/-
WhereClause/Registry.lean

Which operators there are.  A registry gives each token the form that reads its
operands; a token without a form is a comparison if it may be written as one,
and unknown otherwise.  Tokens are told apart by their normal form alone.

The forms here are those with which compiling always comes to an end.  A caller may register
a reader of any kind, one that makes more than it was given included; registries of those are
in `WhereClause.Open.Compiler`, and the ones of the library are among them
(`Open.Compiler.endsIn_embed`).
-/
import WhereClause.Condition.Operands
import WhereClause.Text.Quoted

namespace WhereClause

/-- A way to read the operands of an operator, which is told how the operator is
written. -/
abbrev OperandReader := String → List Spec → Except Error (Condition Spec)

/-- A reader that may drop and reorder what it gets, but nothing comes from
elsewhere: what stands in the condition is smaller than the operands. -/
structure OperatorForm where
  read : OperandReader
  /-- Compiling recurs on what stands in the condition, so that has to be smaller.  Readers
  that are not held to it are `Open.Reader`s. -/
  sizeOf_nested_lt : ∀ {operator : String} {operands : List Spec} {c : Condition Spec},
    read operator operands = .ok c → ∀ t ∈ c.nested, sizeOf t < sizeOf operands

namespace OperatorForm

open Condition

def comparison : OperatorForm := ⟨readComparison, sizeOf_nested_lt_of_readComparison⟩

def membership : OperatorForm := ⟨readMembership, sizeOf_nested_lt_of_readMembership⟩

def between : OperatorForm := ⟨readBetween, sizeOf_nested_lt_of_readBetween⟩

/-- Not under any token at first, since `BETWEEN` takes its column first. -/
def betweenColumns : OperatorForm :=
  ⟨readBetweenColumns, sizeOf_nested_lt_of_readBetweenColumns⟩

def pattern : OperatorForm := ⟨readPattern, sizeOf_nested_lt_of_readPattern⟩

def negation : OperatorForm := ⟨readNegation, sizeOf_nested_lt_of_readNegation⟩

def junction : OperatorForm := ⟨readJunction, sizeOf_nested_lt_of_readJunction⟩

def existence : OperatorForm := ⟨readExistence, sizeOf_nested_lt_of_readExistence⟩

end OperatorForm

/-- Forms by normalized token.  Look-up does not depend on what a form is; to compile
specifications at all depths it has to be an `OperatorForm`. -/
structure Registry (F : Type := OperatorForm) where
  forms : List (String × F)

namespace Registry

variable {F G : Type}

/-- Comparisons only. -/
def empty : Registry F := ⟨[]⟩

def standard : Registry where
  forms :=
    [("AND", .junction), ("OR", .junction), ("NOT", .negation),
     ("IN", .membership), ("NOT IN", .membership),
     ("BETWEEN", .between), ("NOT BETWEEN", .between),
     ("LIKE", .pattern), ("NOT LIKE", .pattern),
     ("OR LIKE", .pattern), ("OR NOT LIKE", .pattern),
     ("ILIKE", .pattern), ("NOT ILIKE", .pattern),
     ("OR ILIKE", .pattern), ("OR NOT ILIKE", .pattern),
     ("EXISTS", .existence), ("NOT EXISTS", .existence)]

/-- Other forms under the same tokens. -/
def map (f : F → G) (r : Registry F) : Registry G := ⟨r.forms.map fun e => (e.1, f e.2)⟩

/-- Give a token a form, in place of the one it may have. -/
def register (token : String) (form : F) (r : Registry F) : Registry F :=
  ⟨Keyed.put (Operator.normalize token) form r.forms⟩

def get? (r : Registry F) (token : String) : Option F :=
  r.forms.lookup (Operator.normalize token)

/-- The condition that a token makes of its operands, where `read` says what its form
does with them. -/
def parseBy (read : F → OperandReader) (r : Registry F) (token : String)
    (operands : List Spec) : Except Error (Condition Spec) :=
  let operator := Operator.normalize token
  match r.forms.lookup operator with
  | some form => read form operator operands
  | none =>
    if isComparison operator then Condition.readComparison operator operands
    else .error (.unknownOperator operator)

/-- The condition that a token makes of its operands. -/
def parse (r : Registry) (token : String) (operands : List Spec) :
    Except Error (Condition Spec) :=
  r.parseBy OperatorForm.read token operands

theorem sizeOf_nested_lt_of_parse {r : Registry} {token : String} {operands : List Spec}
    {c : Condition Spec} (h : r.parse token operands = .ok c) :
    ∀ t ∈ c.nested, sizeOf t < sizeOf operands := by
  simp only [parse, parseBy] at h
  split at h
  · exact OperatorForm.sizeOf_nested_lt _ h
  · split at h
    · exact OperatorForm.comparison.sizeOf_nested_lt h
    · simp at h

/-! ### Listing -/

/-- The registered tokens, by code point. -/
def operators (r : Registry F) : List String := (r.forms.map (·.1)).mergeSort fun s t => s ≤ t

def describe (r : Registry F) : String :=
  "OperatorRegistry \x7b operators: [" ++
    ", ".intercalate (r.operators.map Text.quoted) ++ "] \x7d"

end Registry

end WhereClause
