/-
WhereClause/Spec.lean

Specifications: what a caller hands in.  A mapping of columns to values and a
list that begins with an operator describe conditions, a typed condition and raw
SQL are conditions, and the rest only occurs as operands.
-/
import WhereClause.Condition

namespace WhereClause

/-- A condition as it is given to the compiler, or an operand of one; which of these it is
depends on where it stands. -/
inductive Spec where
  | scalar (s : Scalar Spec)
  | list (items : List Spec)
  | map (entries : List (String × Spec))
  | condition (c : Condition Spec)

namespace Spec

/-- No constraint at all. -/
def null : Spec := .scalar .null

def value (v : Value) : Spec := .scalar (.value v)

def text (s : String) : Spec := .value (.text s)

def raw (sql : String) : Spec := .scalar (.raw ⟨sql⟩)

def subquery (q : Subquery Spec) : Spec := .scalar (.subquery q)

/-- The condition that an operator makes of its operands. -/
def operator (token : String) (operands : List Spec) : Spec := .list (.text token :: operands)

/-- The conjunction of a test for each column; a later entry for a column
replaces an earlier one. -/
def hash (entries : List (String × Spec)) : Spec := .map (Keyed.ofPairs entries)

/-- How an error names a specification. -/
def shape : Spec → Shape
  | .scalar s => s.shape
  | .list _ => .list
  | .map _ => .mapping
  | .condition c => .condition c.kind

/-- Null, the empty text, the empty list and the empty mapping place no constraint. -/
def isEmpty : Spec → Bool
  | .scalar .null => true
  | .scalar (.value (.text s)) => s.isEmpty
  | .scalar _ => false
  | .list items => items.isEmpty
  | .map entries => entries.isEmpty
  | .condition _ => false

/-! ### From a document -/

mutual

/-- A document as a specification; objects become mappings. -/
def ofJson : Json → Spec
  | .null => null
  | .bool b => value (.bool b)
  | .int n => value (.ofInt n)
  | .float x => value (.float x)
  | .string s => text s
  | .array items => .list (ofItems items)
  | .object entries => .map (ofEntries entries)

def ofItems : List Json → List Spec
  | [] => []
  | j :: js => ofJson j :: ofItems js

def ofEntries : List (String × Json) → List (String × Spec)
  | [] => []
  | (k, j) :: es => (k, ofJson j) :: ofEntries es

end

end Spec

/-! ### Specifications in their places

The operator is the one that is named if the specification does not fit. -/

/-- A column is a text that is not empty, raw SQL or a sub-query. -/
def Column.ofSpec (operator : String) : Spec → Except Error (Column Spec)
  | .scalar (.value (.text s)) =>
    if s.isEmpty then .error (.invalidOperand operator (.notColumn (.value .text)))
    else .ok (.name s)
  | .scalar (.raw sql) => .ok (.raw sql)
  | .scalar (.subquery q) => .ok (.subquery q)
  | other => .error (.invalidOperand operator (.notColumn other.shape))

namespace Operand

mutual

/-- Anything but a condition, at any depth. -/
def ofSpec (operator : String) : Spec → Except Error (Operand Spec)
  | .scalar s => .ok (.scalar s)
  | .list items => do return .list (← ofItems operator items)
  | .map entries => do return .row (← ofEntries operator entries)
  | .condition c => .error (.invalidOperand operator (.conditionAsValue c.kind))

def ofItems (operator : String) : List Spec → Except Error (List (Operand Spec))
  | [] => .ok []
  | s :: ss => do return (← ofSpec operator s) :: (← ofItems operator ss)

def ofEntries (operator : String) :
    List (String × Spec) → Except Error (List (String × Operand Spec))
  | [] => .ok []
  | (k, s) :: es => do return (k, ← ofSpec operator s) :: (← ofEntries operator es)

end

variable {S : Type}

/-- The scalar that an operand is. -/
def toScalar (operator : String) : Operand S → Except Error (Scalar S)
  | .scalar s => .ok s
  | other => .error (.invalidOperand operator (.notScalar other.shape))

/-- The members of a list; anything else is a list of one. -/
def members : Operand S → List (Operand S)
  | .list items => items
  | other => [other]

end Operand

/-- An operand for a scalar slot. -/
def Scalar.ofSpec (operator : String) (s : Spec) : Except Error (Scalar Spec) := do
  (← Operand.ofSpec operator s).toScalar operator

end WhereClause
