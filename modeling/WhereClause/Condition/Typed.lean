/-
WhereClause/Condition/Typed.lean

Conditions made of columns and operands.  Each function checks the operator and
the shape of the operands, so that a node that was made can be written; what the
members of a membership test are is only seen as they are written.
-/
import WhereClause.Spec

namespace WhereClause

variable {S : Type}

/-! ### Checks -/

/-- A normalized token that names no operator of the wanted kind is refused. -/
def Operator.known {α : Type} (token : String) : Option α → Except Error α
  | some a => .ok a
  | none => .error (.unknownOperator token)

def PlainColumn.ofColumn (operator : String) : Column S → Except Error PlainColumn
  | .name n => .ok (.name n)
  | .raw sql => .ok (.raw sql)
  | .subquery _ => .error (.invalidOperand operator .subqueryAsColumn)

/-- Rows have no meaning in a hash; the column is named as the operator. -/
def HashTest.ofOperand (column : String) : Operand S → Except Error (HashTest S)
  | .scalar s => .ok (.scalar s)
  | .list items => .ok (.list items)
  | .row _ => .error (.invalidOperand column .mappingAsValue)

/-- A pattern is a text or a number, raw SQL, or a sub-query. -/
def Pattern.ofOperand (operator : String) : Operand S → Except Error (Pattern S)
  | .scalar (.value v) =>
    match v.patternText? with
    | some s => .ok (.text s)
    | none => .error (.invalidOperand operator (.notPattern (.value v.type)))
  | .scalar (.raw sql) => .ok (.raw sql)
  | .scalar (.subquery q) => .ok (.subquery q)
  | other => .error (.invalidOperand operator (.notPattern other.shape))

/-- A sub-query is searched as a whole, and anything but a list is a list of one. -/
def Candidates.ofOperand : Operand S → Candidates S
  | .scalar (.subquery q) => .subquery q
  | other => .members other.members

namespace Condition

/-! ### Typed conditions -/

def ofTests (entries : List (String × Operand S)) : Except Error (Condition S) := do
  return .hash (← entries.mapM fun e => do return (e.1, ← HashTest.ofOperand e.1 e.2))

/-- A test for each column; a later entry for a column replaces an earlier one. -/
def ofHash (entries : List (String × Operand S)) : Except Error (Condition S) :=
  ofTests (Keyed.ofPairs entries)

def ofComparison (column : Column S) (token : String) (value : Operand S) :
    Except Error (Condition S) := do
  let operator := Operator.normalize token
  let comparison ← Operator.known operator (ComparisonOperator.ofToken? operator)
  return .comparison column comparison (← value.toScalar operator)

/-- One column or several; no column at all is allowed. -/
def ofMembership (columns : List (Column S)) (token : String) (values : Operand S) :
    Except Error (Condition S) := do
  let operator := Operator.normalize token
  let polarity ← Operator.known operator (Polarity.ofToken? "IN" operator)
  let columns ← columns.mapM (PlainColumn.ofColumn operator)
  return .membership columns polarity (.ofOperand values)

def ofBetween (column : Column S) (token : String) (low high : Operand S) :
    Except Error (Condition S) := do
  let operator := Operator.normalize token
  let polarity ← Operator.known operator (Polarity.ofToken? "BETWEEN" operator)
  let low ← low.toScalar operator
  let high ← high.toScalar operator
  return .between column polarity low high

def ofBetweenColumns (value : Operand S) (token : String) (low high : Column S) :
    Except Error (Condition S) := do
  let operator := Operator.normalize token
  let polarity ← Operator.known operator (Polarity.ofToken? "BETWEEN" operator)
  let value ← value.toScalar operator
  return .betweenColumns value polarity low high

/-- The operator is named as it was given if a value is no pattern. -/
def ofPatterns (column : Column S) (token : String) (values : Operand S)
    (escaping : Escaping) : Except Error (Condition S) := do
  let operator := Operator.normalize token
  let like ← Operator.known operator (LikeOperator.ofToken? operator)
  return .pattern column like (← values.members.mapM (Pattern.ofOperand token)) escaping

def ofJunction (token : String) (operands : List S) : Except Error (Condition S) := do
  let operator := Operator.normalize token
  let junction ← Operator.known operator (Junction.ofToken? operator)
  return .junction junction operands

def ofExistence (token : String) (q : Subquery S) : Except Error (Condition S) := do
  let operator := Operator.normalize token
  let polarity ← Operator.known operator (Polarity.ofToken? "EXISTS" operator)
  return .existence polarity q

/-! ### Conditions from mappings -/

/-- The hash of a mapping; all its values are read before any is judged. -/
def ofMap (entries : List (String × Spec)) : Except Error (Condition Spec) := do
  ofTests (← entries.mapM fun e => do return (e.1, ← Operand.ofSpec e.1 e.2))

end Condition

/-! ### Nothing is added -/

section

theorem Operand.nestedItems_members (o : Operand S) :
    Operand.nestedItems o.members = o.nested := by
  cases o <;> simp [members, nestedItems, nested]

theorem Operand.nested_toScalar {operator : String} {o : Operand S} {s : Scalar S}
    (h : o.toScalar operator = .ok s) : s.nested = o.nested := by
  cases o <;> simp_all [toScalar, nested]

theorem HashTest.nested_ofOperand {column : String} {o : Operand S} {e : HashTest S}
    (h : HashTest.ofOperand column o = .ok e) : e.nested = o.nested := by
  cases o <;> simp [ofOperand] at h <;> subst h <;> simp [nested, Operand.nested]

theorem Candidates.nested_ofOperand (o : Operand S) :
    (Candidates.ofOperand o).nested = o.nested := by
  unfold ofOperand
  split
  · simp [nested, Operand.nested, Scalar.nested]
  · simp [nested, Operand.nestedItems_members]

theorem Pattern.nested_ofOperand {operator : String} {o : Operand S} {p : Pattern S}
    (h : Pattern.ofOperand operator o = .ok p) : p.nested = o.nested := by
  unfold ofOperand at h
  split at h
  · split at h <;> simp at h
    subst h
    simp [nested, Operand.nested, Scalar.nested]
  · simp at h
    subst h
    simp [nested, Operand.nested, Scalar.nested]
  · simp at h
    subst h
    simp [nested, Operand.nested, Scalar.nested]
  · simp at h

end

end WhereClause
