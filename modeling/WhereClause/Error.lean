/-
WhereClause/Error.lean

What can be wrong with a condition.  Errors are causes; their wording is in
`Error.message` alone.  A failure below a junction or a negation carries the
path to it, outermost place first, and `Error.root` is what failed there.
-/
import WhereClause.Operator
import WhereClause.Value

namespace WhereClause

/-! ### What an operand looks like -/

inductive ConditionKind where
  | hash
  | comparison
  | membership
  | between
  | betweenColumns
  | pattern
  | negation
  | junction
  | existence
  deriving DecidableEq

def ConditionKind.name : ConditionKind → String
  | .hash => "hash"
  | .comparison => "simple"
  | .membership => "in"
  | .between => "between"
  | .betweenColumns => "between-columns"
  | .pattern => "like"
  | .negation => "not"
  | .junction => "conjunction"
  | .existence => "exists"

/-- The shape of a specification or operand, without its contents. -/
inductive Shape where
  | null
  | value (type : ValueType)
  | list
  | mapping
  | row
  | raw
  | subquery
  | condition (kind : ConditionKind)
  deriving DecidableEq

def Shape.describe : Shape → String
  | .null => "null"
  | .value t => "a " ++ t.name ++ " value"
  | .list => "a list"
  | .mapping => "a mapping"
  | .row => "a row"
  | .raw => "a raw expression"
  | .subquery => "a sub-query"
  | .condition k => "a " ++ k.name ++ " condition"

/-! ### Causes -/

/-- How many operands an operator takes. -/
inductive Arity where
  | exactly (n : Nat)
  | twoOrThree
  | other (text : String)
  deriving DecidableEq

def Arity.describe : Arity → String
  | .exactly n => toString n
  | .twoOrThree => "2 or 3"
  | .other text => text

/-- Why something is no condition. -/
inductive ShapeFault where
  | notCondition (found : Shape)
  | noOperator (found : Shape)
  | other (text : String)
  deriving DecidableEq

def ShapeFault.describe : ShapeFault → String
  | .notCondition found => found.describe ++ " is not a condition"
  | .noOperator found =>
    "expected an operator as the first element of a list, got " ++ found.describe
  | .other text => text

/-- Why an operand does not fit its place. -/
inductive OperandFault where
  | notScalar (found : Shape)
  | notColumn (found : Shape)
  | notSubquery (found : Shape)
  | notRow (found : Shape)
  | notPattern (found : Shape)
  | notEscaping (found : Shape)
  | notReplacement (found : Shape)
  | notCharacter (key : String)
  | conditionAsValue (kind : ConditionKind)
  | mappingAsValue
  | subqueryAsColumn
  | other (text : String)
  deriving DecidableEq

def OperandFault.describe : OperandFault → String
  | .notScalar found => "expected a single value, got " ++ found.describe
  | .notColumn found => "expected a column name, got " ++ found.describe
  | .notSubquery found => "expected a sub-query, got " ++ found.describe
  | .notRow found => "composite IN expects each value to be a row, got " ++ found.describe
  | .notPattern found => found.describe ++ " cannot be used as a pattern"
  | .notEscaping found => "expected an escape mapping or false, got " ++ found.describe
  | .notReplacement found => "escape replacements must be text, got " ++ found.describe
  | .notCharacter key => "escape mapping keys must be single characters, got '" ++ key ++ "'"
  | .conditionAsValue kind => "a " ++ kind.name ++ " condition cannot be used as a value"
  | .mappingAsValue => "a mapping cannot be compared to a column"
  | .subqueryAsColumn => "a sub-query cannot be used as the column of IN"
  | .other text => text

/-- A step towards a failure. -/
inductive Place where
  /-- The operand of a junction, counted from one. -/
  | operand (index : Nat) (junction : Junction)
  | negated
  | other (text : String)
  deriving DecidableEq

def Place.describe : Place → String
  | .operand index junction => "operand " ++ toString index ++ " of " ++ junction.text
  | .negated => "operand of NOT"
  | .other text => text

inductive Error where
  | arity (operator : String) (expected : Arity) (actual : Nat)
  | unknownOperator (operator : String)
  | unsupportedShape (fault : ShapeFault)
  | invalidOperand (operator : String) (fault : OperandFault)
  | invalidParameterName (name : String)
  | within (place : Place) (inner : Error)
  deriving DecidableEq

namespace Error

def message : Error → String
  | .arity operator expected actual =>
    "Operator '" ++ operator ++ "' expects " ++ expected.describe ++
      " operand(s), but got " ++ toString actual
  | .unknownOperator operator => "Unknown operator '" ++ operator ++ "'"
  | .unsupportedShape fault => "Unsupported condition shape: " ++ fault.describe
  | .invalidOperand operator fault =>
    "Invalid operand for '" ++ operator ++ "': " ++ fault.describe
  | .invalidParameterName name =>
    "Invalid parameter name '" ++ name ++
      "': numeric names are reserved for positional placeholders"
  | .within place inner => place.describe ++ ": " ++ inner.message

/-- The failure without the path to it. -/
def root : Error → Error
  | .within _ inner => inner.root
  | e => e

/-- The path to the failure, outermost place first. -/
def path : Error → List Place
  | .within place inner => place :: inner.path
  | _ => []

theorem root_ne_within (e : Error) (p : Place) (i : Error) : e.root ≠ .within p i := by
  fun_induction root e <;> simp_all

end Error

end WhereClause
