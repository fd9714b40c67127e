/-
WhereClause/Open/Spec.lean

Specifications with code of a caller's own in them.  Besides what a `WhereClause.Spec` is
made of there are programs: a query that a caller has written is a template whose one part
is its program (`Spec.foreign`), and no operand is a program by itself.  Readers turn
operands into nodes, and check them as they do so.
-/
import WhereClause.Condition.Operands
import WhereClause.Open.Node

namespace WhereClause.Open

inductive Spec where
  | scalar (s : Scalar Spec)
  | list (items : List Spec)
  | map (entries : List (String × Spec))
  | node (n : Node Spec)
  /-- What a query of a caller's own does; it stands in the template of the query. -/
  | program (p : Program Spec)

namespace Spec

def null : Spec := .scalar .null

def value (v : Value) : Spec := .scalar (.value v)

def text (s : String) : Spec := .value (.text s)

def raw (sql : String) : Spec := .scalar (.raw ⟨sql⟩)

def subquery (q : Subquery Spec) : Spec := .scalar (.subquery q)

/-- A query of a caller's own, as which `p` is run. -/
def foreign (p : Program Spec) : Spec := .subquery (.template [.condition (.program p)])

/-- The condition that an operator makes of its operands. -/
def operator (token : String) (operands : List Spec) : Spec := .list (.text token :: operands)

def shape : Spec → Shape
  | .scalar s => s.shape
  | .list _ => .list
  | .map _ => .mapping
  | .node n => .condition n.kind
  | .program _ => .subquery

/-! ### Specifications in their places

The operator is the one that is named if the specification does not fit. -/

def toColumn (operator : String) : Spec → Except Error (Column Spec)
  | .scalar (.value (.text s)) =>
    if s.isEmpty then .error (.invalidOperand operator (.notColumn (.value .text)))
    else .ok (.name s)
  | .scalar (.raw sql) => .ok (.raw sql)
  | .scalar (.subquery q) => .ok (.subquery q)
  | other => .error (.invalidOperand operator (.notColumn other.shape))

mutual

/-- Anything but a condition, at any depth. -/
def toOperand (operator : String) : Spec → Except Error (Operand Spec)
  | .scalar s => .ok (.scalar s)
  | .list items => do return .list (← toOperands operator items)
  | .map entries => do return .row (← toEntries operator entries)
  | .node n => .error (.invalidOperand operator (.conditionAsValue n.kind))
  | .program _ => .error (.invalidOperand operator (.notScalar .subquery))

def toOperands (operator : String) : List Spec → Except Error (List (Operand Spec))
  | [] => .ok []
  | s :: ss => do return (← toOperand operator s) :: (← toOperands operator ss)

def toEntries (operator : String) :
    List (String × Spec) → Except Error (List (String × Operand Spec))
  | [] => .ok []
  | (k, s) :: es => do return (k, ← toOperand operator s) :: (← toEntries operator es)

end

/-- An operand for a scalar slot. -/
def toScalar (operator : String) (s : Spec) : Except Error (Operand Spec) := do
  let o ← s.toOperand operator
  checkScalar operator o
  return o

/-- One entry of an escape table. -/
def toReplacement (operator : String) (e : String × Spec) : Except Error (Char × String) :=
  match e.1.toList with
  | [c] =>
    match e.2 with
    | .scalar (.value (.text s)) => .ok (c, s)
    | other => .error (.invalidOperand operator (.notReplacement other.shape))
  | _ => .error (.invalidOperand operator (.notCharacter e.1))

/-- Null leaves the escaping to the options, `false` turns it off, and a mapping is an
escape table. -/
def toEscaping (operator : String) : Spec → Except Error Escaping
  | .scalar .null => .ok .standard
  | .scalar (.value (.bool false)) => .ok .disabled
  | .map entries => do return .custom (← entries.mapM (toReplacement operator))
  | other => .error (.invalidOperand operator (.notEscaping other.shape))

end Spec

/-! ### Readers -/

/-- A way to read the operands of an operator; any function will do. -/
abbrev Reader := String → List Spec → Except Error (Node Spec)

namespace Node

/-- `[operator, column, value]` -/
def readComparison : Reader
  | operator, [column, value] => do
    let column ← column.toColumn operator
    let value ← value.toScalar operator
    ofComparison column operator value
  | operator, operands => .error (.arity operator (.exactly 2) operands.length)

/-- The column or the columns of a membership test. -/
def readColumns (operator : String) : Spec → Except Error (List (Column Spec))
  | .list items => items.mapM (Spec.toColumn operator)
  | column => do return [← column.toColumn operator]

/-- `[operator, column, values]`, with a list of columns for a test of rows -/
def readMembership : Reader
  | operator, [columns, values] => do
    let columns ← readColumns operator columns
    let values ← values.toOperand operator
    ofMembership columns operator values
  | operator, operands => .error (.arity operator (.exactly 2) operands.length)

/-- `[operator, column, low, high]` -/
def readBetween : Reader
  | operator, [column, low, high] => do
    let column ← column.toColumn operator
    let low ← low.toScalar operator
    let high ← high.toScalar operator
    ofBetween column operator low high
  | operator, operands => .error (.arity operator (.exactly 3) operands.length)

/-- `[operator, value, low column, high column]` -/
def readBetweenColumns : Reader
  | operator, [value, low, high] => do
    let value ← value.toScalar operator
    let low ← low.toColumn operator
    let high ← high.toColumn operator
    ofBetweenColumns value operator low high
  | operator, operands => .error (.arity operator (.exactly 3) operands.length)

/-- The column, values and escaping of a pattern test. -/
def readPatternWith (operator : String) (column values escaping : Spec) :
    Except Error (Node Spec) := do
  let column ← column.toColumn operator
  let values ← values.toOperand operator
  let escaping ← escaping.toEscaping operator
  ofPatterns column operator values escaping

/-- `[operator, column, values]`, with an escape table or `false` as a third operand -/
def readPattern : Reader
  | operator, [column, values] => readPatternWith operator column values .null
  | operator, [column, values, escaping] => readPatternWith operator column values escaping
  | operator, operands => .error (.arity operator .twoOrThree operands.length)

/-- `[operator, condition]` -/
def readNegation : Reader
  | _, [inner] => .ok (.negation inner)
  | operator, operands => .error (.arity operator (.exactly 1) operands.length)

/-- `[operator, condition, …]`, with any number of operands -/
def readJunction : Reader := ofJunction

/-- `[operator, sub-query]` -/
def readExistence : Reader
  | operator, [.scalar (.subquery q)] => ofExistence operator q
  | operator, [other] => .error (.invalidOperand operator (.notSubquery other.shape))
  | operator, operands => .error (.arity operator (.exactly 1) operands.length)

/-- The hash of a mapping; all its values are read before any is judged. -/
def ofMap (entries : List (String × Spec)) : Except Error (Node Spec) := do
  ofEntries (← entries.mapM fun e => do return (e.1, ← e.2.toOperand e.1))

end Node

end WhereClause.Open
