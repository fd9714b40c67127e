/-
WhereClause/Render/Condition.lean

Conditions as SQL, once the conditions that stand in them can be written.  An
empty text is a condition that places no constraint; such operands of a junction
are left out, and so is the negation of one.
-/
import WhereClause.Render.Membership
import WhereClause.Render.Pattern

namespace WhereClause

/-- Clauses that are not empty, joined; each has parentheses unless it is alone. -/
def Junction.join (j : Junction) : List String → String
  | [] => ""
  | [clause] => clause
  | clauses => (" " ++ j.text ++ " ").intercalate (clauses.map parenthesized)

def HashTest.render (d : Dialect) (column : String) : HashTest (Render String) → Render String
  | .list items => Membership.render d [.name column] .positive (.members items)
  | .scalar (.subquery q) => Membership.render d [.name column] .positive (.subquery q)
  | .scalar .null => pure (d.columnName column ++ " IS NULL")
  | .scalar (.raw sql) => pure (d.columnName column ++ "=" ++ sql.text)
  | .scalar (.value v) => do return d.columnName column ++ "=" ++ (← d.bind v)

namespace Condition

/-- The operands of a junction, each failing in its own place. -/
def renderOperands (j : Junction) (operands : List (Render String)) : Render (List String) :=
  operands.zipIdx.mapM fun (r, i) => Render.within (.operand (i + 1) j) r

/-- The negation of no constraint is no constraint. -/
def negated (condition : String) : String :=
  if condition.isEmpty then "" else "NOT " ++ parenthesized condition

def render (d : Dialect) : Condition (Render String) → Render String
  | .hash entries => do
    return Junction.and.join (← entries.mapM fun e => e.2.render d e.1)
  | .comparison column operator value => do
    let column ← column.render d
    let value ← value.render d
    return column ++ " " ++ operator.text ++ " " ++ value
  | .membership columns polarity candidates => Membership.render d columns polarity candidates
  | .between column polarity low high => do
    let column ← column.render d
    let low ← low.render d
    let high ← high.render d
    return column ++ " " ++ polarity.apply "BETWEEN" ++ " " ++ low ++ " AND " ++ high
  | .betweenColumns value polarity low high => do
    let value ← value.render d
    let low ← low.render d
    let high ← high.render d
    return value ++ " " ++ polarity.apply "BETWEEN" ++ " " ++ low ++ " AND " ++ high
  | .pattern column operator patterns escaping =>
    Pattern.renderAll d column operator escaping patterns
  | .negation inner => do
    return negated (← Render.within .negated inner)
  | .junction operator operands => do
    let clauses ← renderOperands operator operands
    return operator.join (clauses.filter (!·.isEmpty))
  | .existence polarity q => do
    return polarity.apply "EXISTS" ++ " " ++ parenthesized (← q.render d)

end Condition

end WhereClause
