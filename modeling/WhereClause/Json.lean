/-
WhereClause/Json.lean

JSON documents.  Objects keep the order of their keys; whole numbers and
floating-point numbers are kept apart.  The compact text is what is sent to a
database; equality of documents looks neither at the order of keys nor across
the two kinds of number.
-/
import WhereClause.Decimal.Layout

namespace WhereClause

inductive Json where
  | null
  | bool (b : Bool)
  | int (n : Int)
  | float (x : Float)
  | string (s : String)
  | array (items : List Json)
  | object (entries : List (String × Json))
  deriving Inhabited

namespace Json

/-- A whole number stays one from `-2 ^ 63` to `2 ^ 64 - 1`; beyond that it is
the nearest floating-point number. -/
def ofInt (n : Int) : Json :=
  if -Int.pow 2 63 ≤ n ∧ n < Int.pow 2 64 then .int n else .float (Float.ofInt n)

/-! ### The compact text -/

/-- Exponents from -5 to 15 are written out, whole numbers keep `.0`, powers of
ten always have a sign, and a tie goes to the even digit. -/
def floatLayout : Decimal.Layout where
  isPositional e := -5 ≤ e && e ≤ 15
  keepsFraction := true
  signsPower := true
  tie := .toEven

def hexDigits (width n : Nat) : List Char :=
  let ds := Nat.toDigits 16 n
  List.replicate (width - ds.length) '0' ++ ds

/-- The short escapes where there is one, code points for the other control
characters, and everything else as it is. -/
def escapedChar (c : Char) : List Char :=
  if c = '"' ∨ c = '\\' then ['\\', c]
  else if c = '\x08' then ['\\', 'b']
  else if c = '\x0c' then ['\\', 'f']
  else if c = '\n' then ['\\', 'n']
  else if c = '\r' then ['\\', 'r']
  else if c = '\t' then ['\\', 't']
  else if c.toNat < 32 then ['\\', 'u'] ++ hexDigits 4 c.toNat
  else [c]

def quotedText (s : String) : String :=
  String.ofList (['"'] ++ s.toList.flatMap escapedChar ++ ['"'])

mutual

def text : Json → String
  | .null => "null"
  | .bool b => if b then "true" else "false"
  | .int n => toString n
  | .float x => floatLayout.text x
  | .string s => quotedText s
  | .array items => "[" ++ ",".intercalate (itemTexts items) ++ "]"
  | .object entries => "\x7b" ++ ",".intercalate (entryTexts entries) ++ "\x7d"

def itemTexts : List Json → List String
  | [] => []
  | j :: js => j.text :: itemTexts js

def entryTexts : List (String × Json) → List String
  | [] => []
  | (k, j) :: es => (quotedText k ++ ":" ++ j.text) :: entryTexts es

end

/-! ### Equality -/

mutual

/-- Equality of documents: objects by key, floating-point numbers as numbers. -/
def same : Json → Json → Bool
  | .null, .null => true
  | .bool a, .bool b => a == b
  | .int m, .int n => m == n
  | .float x, .float y => x == y
  | .string s, .string t => s == t
  | .array xs, .array ys => sameItems xs ys
  | .object es, .object fs => es.length == fs.length && sameEntries es fs
  | _, _ => false

def sameItems : List Json → List Json → Bool
  | [], [] => true
  | x :: xs, y :: ys => same x y && sameItems xs ys
  | _, _ => false

/-- Each of the first entries has its like among the second. -/
def sameEntries : List (String × Json) → List (String × Json) → Bool
  | [], _ => true
  | (k, x) :: es, fs =>
    (match fs.lookup k with
      | some y => same x y
      | none => false) && sameEntries es fs

end

end Json

end WhereClause
