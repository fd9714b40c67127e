/-
WhereClause/Value.lean

The values that stand behind placeholders.  There is no null among them: null
is always written into the text of the query.
-/
import WhereClause.Json

namespace WhereClause

inductive ValueType where
  | bool
  | int
  | float
  | text
  | bytes
  | json
  deriving DecidableEq

inductive Value where
  | bool (b : Bool)
  | int (n : Int64)
  | float (x : Float)
  | text (s : String)
  | bytes (bs : List UInt8)
  | json (j : Json)

def ValueType.name : ValueType → String
  | .bool => "boolean"
  | .int => "integer"
  | .float => "float"
  | .text => "text"
  | .bytes => "bytes"
  | .json => "json"

namespace Value

def type : Value → ValueType
  | .bool _ => .bool
  | .int _ => .int
  | .float _ => .float
  | .text _ => .text
  | .bytes _ => .bytes
  | .json _ => .json

/-- A whole number, or the nearest floating-point number to one that 64 bits
cannot hold. -/
def ofInt (n : Int) : Value :=
  if -Int.pow 2 63 ≤ n ∧ n < Int.pow 2 63 then .int (Int64.ofInt n) else .float (Float.ofInt n)

/-- All places are written out, no fraction is added, and a tie goes up. -/
def floatLayout : Decimal.Layout where
  isPositional _ := true
  keepsFraction := false
  signsPower := false
  tie := .up

/-- The value for a reader; bytes show only how many they are. -/
def display : Value → String
  | .bool b => if b then "true" else "false"
  | .int n => toString n.toInt
  | .float x => floatLayout.text x
  | .text s => s
  | .bytes bs => "<" ++ toString bs.length ++ " bytes>"
  | .json j => j.text

/-- The text that a value stands for in a pattern; only texts and numbers have one. -/
def patternText? : Value → Option String
  | .text s => some s
  | .int n => some (toString n.toInt)
  | .float x => some (floatLayout.text x)
  | .bool _ | .bytes _ | .json _ => none

/-- Equality of type and content, floating-point numbers as numbers. -/
def same : Value → Value → Bool
  | .bool a, .bool b => a == b
  | .int m, .int n => m == n
  | .float x, .float y => x == y
  | .text s, .text t => s == t
  | .bytes a, .bytes b => a == b
  | .json j, .json k => j.same k
  | _, _ => false

end Value

end WhereClause
