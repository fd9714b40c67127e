/-
WhereClause/Wire.lean

The binary form in which a Postgres server takes a parameter, given the type
that the server expects.  A whole number is kept in 64 bits until that type is
known and is then narrowed only if it fits.
-/
import WhereClause.Value

namespace WhereClause.Wire

/-- The types that come with the server and that some value can be sent as; all others, such as
those of extensions, go by their names. -/
inductive PgType where
  | bool
  | int2
  | int4
  | int8
  | float4
  | float8
  | text
  | varchar
  | bpchar
  | name
  | unknown
  | bytea
  | json
  | jsonb
  | other (name : String)
  deriving DecidableEq

/-- On which side of what a type can hold a whole number lies. -/
inductive RangeFault where
  | tooSmall
  | tooLarge
  deriving DecidableEq

/-- How the conversion of numbers words it. -/
def RangeFault.message : RangeFault → String
  | .tooSmall => "number too small to fit in target type"
  | .tooLarge => "number too large to fit in target type"

/-- Why a value cannot be sent as a type. -/
inductive Refusal where
  | wrongType
  | outOfRange (fault : RangeFault)
  deriving DecidableEq

/-- The low `n` bytes of a number, the highest first. -/
def bigEndian : Nat → Nat → List UInt8
  | 0, _ => []
  | n + 1, x => bigEndian n (x / 256) ++ [UInt8.ofNat x]

/-- A whole number in two's complement. -/
def twosComplement (n : Nat) (v : Int) : List UInt8 :=
  bigEndian n (v % Int.pow 2 (8 * n)).toNat

/-- A whole number in `n` bytes, if they can hold it. -/
def narrowed (n : Nat) (v : Int) : Except Refusal (List UInt8) :=
  if v < -Int.pow 2 (8 * n - 1) then .error (.outOfRange .tooSmall)
  else if Int.pow 2 (8 * n - 1) ≤ v then .error (.outOfRange .tooLarge)
  else .ok (twosComplement n v)

/-- The bytes of a text. -/
def utf8 (s : String) : List UInt8 := s.toUTF8.toList

/-- What is sent ahead of a text to a type of an extension that takes texts: nothing, or the
version of the format. -/
def textPrefix? : String → Option (List UInt8)
  | "citext" => some []
  | "ltree" | "lquery" | "ltxtquery" => some [1]
  | _ => none

/-- A value as the server takes it; the value and the type have to go together. -/
def encode : Value → PgType → Except Refusal (List UInt8)
  | .bool b, .bool => .ok [if b then 1 else 0]
  | .int v, .int2 => narrowed 2 v.toInt
  | .int v, .int4 => narrowed 4 v.toInt
  | .int v, .int8 => .ok (twosComplement 8 v.toInt)
  | .float x, .float4 => .ok (bigEndian 4 x.toFloat32.toBits.toNat)
  | .float x, .float8 => .ok (bigEndian 8 x.toBits.toNat)
  | .text s, .text | .text s, .varchar | .text s, .bpchar | .text s, .name
  | .text s, .unknown => .ok (utf8 s)
  | .text s, .other name =>
    match textPrefix? name with
    | some version => .ok (version ++ utf8 s)
    | none => .error .wrongType
  | .bytes bs, .bytea => .ok bs
  | .json j, .json => .ok (utf8 j.text)
  -- The first byte is the version of the format.
  | .json j, .jsonb => .ok (1 :: utf8 j.text)
  | _, _ => .error .wrongType

end WhereClause.Wire
