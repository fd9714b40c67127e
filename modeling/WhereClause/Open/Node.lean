/-
WhereClause/Open/Node.lean

Nodes as they are handed from hand to hand.  A caller may make nodes with readers of its
own, and may put queries of its own into them, so a node holds its operands as it was
given them.  Whoever makes one checks them, and whoever writes one checks them again: a
list that turns up where a scalar has to stand is refused while the node is written, with
whatever was bound before it staying bound.

`Program` is what a query of a caller may do: any sequence of the operations that it is
offered, which may depend on all that it can see.  `Condition` is the node whose checks
have been settled; that both are written alike is shown with `Node.settle`.
-/
import WhereClause.Condition.Typed
import WhereClause.Render.Condition

namespace WhereClause.Open

/-! ### Code of a caller -/

/-- What a query of a caller's own does to write itself. -/
inductive Program (S : Type) where
  /-- The text is complete. -/
  | answer (sql : String)
  | fail (e : Error)
  /-- Look at the options, the quoter, and all that is bound so far. -/
  | look (next : Dialect → Sink → Program S)
  /-- Bind a value in the style of the compilation, and go on with its placeholder. -/
  | bind (v : Value) (next : String → Program S)
  /-- Compile a specification, and go on with its text or its error. -/
  | compile (s : S) (next : Except Error String → Program S)

/-- The steps of a program, where `k` compiles the specifications that it makes. -/
def Program.run {S : Type} (d : Dialect) (k : S → Render String) : Program S → Render String
  | .answer sql => pure sql
  | .fail e => Render.fail e
  | .look next => fun sink => run d k (next d sink) sink
  | .bind v next => d.bind v >>= fun placeholder => run d k (next placeholder)
  | .compile s next => fun sink => run d k (next (k s sink).1) (k s sink).2

/-! ### Nodes -/

/-- A node with its operands as they were given. -/
inductive Node (S : Type) where
  | hash (entries : List (String × Operand S))
  /-- The operator is a normalized token. -/
  | comparison (column : Column S) (operator : String) (value : Operand S)
  | membership (columns : List PlainColumn) (polarity : Polarity) (values : Operand S)
  | between (column : Column S) (polarity : Polarity) (low high : Operand S)
  | betweenColumns (value : Operand S) (polarity : Polarity) (low high : Column S)
  | pattern (column : Column S) (operator : LikeOperator) (values : Operand S)
      (escaping : Escaping)
  | negation (inner : S)
  | junction (operator : Junction) (operands : List S)
  | existence (polarity : Polarity) (subquery : Subquery S)

namespace Node

variable {S T : Type}

def kind : Node S → ConditionKind
  | .hash .. => .hash
  | .comparison .. => .comparison
  | .membership .. => .membership
  | .between .. => .between
  | .betweenColumns .. => .betweenColumns
  | .pattern .. => .pattern
  | .negation .. => .negation
  | .junction .. => .junction
  | .existence .. => .existence

/-- Replace what stands in a node. -/
def map (f : S → T) : Node S → Node T
  | .hash entries => .hash (entries.map fun e => (e.1, e.2.map f))
  | .comparison column operator value => .comparison (column.map f) operator (value.map f)
  | .membership columns polarity values => .membership columns polarity (values.map f)
  | .between column polarity low high =>
    .between (column.map f) polarity (low.map f) (high.map f)
  | .betweenColumns value polarity low high =>
    .betweenColumns (value.map f) polarity (low.map f) (high.map f)
  | .pattern column operator values escaping =>
    .pattern (column.map f) operator (values.map f) escaping
  | .negation inner => .negation (f inner)
  | .junction operator operands => .junction operator (operands.map f)
  | .existence polarity q => .existence polarity (q.map f)

end Node

/-! ### Checks as a node is made -/

section

variable {S : Type}

/-- A scalar slot takes neither a list nor a row. -/
def checkScalar (operator : String) : Operand S → Except Error Unit
  | .scalar _ => .ok ()
  | other => .error (.invalidOperand operator (.notScalar other.shape))

/-- A pattern is a text or a number, raw SQL, or a sub-query. -/
def checkPattern (operator : String) : Operand S → Except Error Unit
  | .scalar (.value v) =>
    if v.patternText?.isSome then .ok ()
    else .error (.invalidOperand operator (.notPattern (.value v.type)))
  | .scalar (.raw _) => .ok ()
  | .scalar (.subquery _) => .ok ()
  | other => .error (.invalidOperand operator (.notPattern other.shape))

/-- A row has no meaning in a hash; the column is named as the operator. -/
def checkEntry (column : String) : Operand S → Except Error Unit
  | .row _ => .error (.invalidOperand column .mappingAsValue)
  | _ => .ok ()

namespace Node

/-- The hash of entries with distinct columns. -/
def ofEntries (entries : List (String × Operand S)) : Except Error (Node S) := do
  entries.forM fun e => checkEntry e.1 e.2
  return .hash entries

/-- A test for each column; a later entry for a column replaces an earlier one. -/
def ofHash (entries : List (String × Operand S)) : Except Error (Node S) :=
  ofEntries (Keyed.ofPairs entries)

def ofComparison (column : Column S) (token : String) (value : Operand S) :
    Except Error (Node S) := do
  let operator := Operator.normalize token
  if isComparison operator then
    checkScalar operator value
    return .comparison column operator value
  else .error (.unknownOperator operator)

/-- One column or several; no column at all is allowed. -/
def ofMembership (columns : List (Column S)) (token : String) (values : Operand S) :
    Except Error (Node S) := do
  let operator := Operator.normalize token
  let polarity ← Operator.known operator (Polarity.ofToken? "IN" operator)
  let columns ← columns.mapM (PlainColumn.ofColumn operator)
  return .membership columns polarity values

def ofBetween (column : Column S) (token : String) (low high : Operand S) :
    Except Error (Node S) := do
  let operator := Operator.normalize token
  let polarity ← Operator.known operator (Polarity.ofToken? "BETWEEN" operator)
  checkScalar operator low
  checkScalar operator high
  return .between column polarity low high

def ofBetweenColumns (value : Operand S) (token : String) (low high : Column S) :
    Except Error (Node S) := do
  let operator := Operator.normalize token
  let polarity ← Operator.known operator (Polarity.ofToken? "BETWEEN" operator)
  checkScalar operator value
  return .betweenColumns value polarity low high

/-- The operator is named as it was given if a value is no pattern. -/
def ofPatterns (column : Column S) (token : String) (values : Operand S)
    (escaping : Escaping) : Except Error (Node S) := do
  let operator := Operator.normalize token
  let like ← Operator.known operator (LikeOperator.ofToken? operator)
  values.members.forM (checkPattern token)
  return .pattern column like values escaping

def ofJunction (token : String) (operands : List S) : Except Error (Node S) := do
  let operator := Operator.normalize token
  let junction ← Operator.known operator (Junction.ofToken? operator)
  return .junction junction operands

def ofExistence (token : String) (q : Subquery S) : Except Error (Node S) := do
  let operator := Operator.normalize token
  let polarity ← Operator.known operator (Polarity.ofToken? "EXISTS" operator)
  return .existence polarity q

end Node

end

/-! ### Checks as a node is written -/

/-- A scalar slot; a list or a row in it is refused. -/
def renderScalar (d : Dialect) (operator : String) : Operand (Render String) → Render String
  | .scalar s => s.render d
  | other => Render.fail (.invalidOperand operator (.notScalar other.shape))

/-- The text of a pattern is bound; what is no pattern is refused. -/
def renderPattern (d : Dialect) (operator : String) (table : Option (List (Char × String))) :
    Operand (Render String) → Render String
  | .scalar (.value v) =>
    match v.patternText? with
    | some s => d.bind (.text (Pattern.ofText table s))
    | none => Render.fail (.invalidOperand operator (.notPattern (.value v.type)))
  | .scalar (.raw sql) => pure sql.text
  | .scalar (.subquery q) => do return parenthesized (← q.render d)
  | other => Render.fail (.invalidOperand operator (.notPattern other.shape))

/-- The column is written once, and its text stands in each clause. -/
def renderPatterns (d : Dialect) (column : Column (Render String)) (operator : LikeOperator)
    (escaping : Escaping) : List (Operand (Render String)) → Render String
  | [] => pure operator.polarity.overNothing
  | members => do
    let column ← column.render d
    let patterns ← members.mapM (renderPattern d operator.core (d.options.escapeTable escaping))
    return (" " ++ operator.junction.text ++ " ").intercalate
      (Pattern.clauses d operator column patterns)

/-- The test of an entry of a hash; a row is refused. -/
def renderEntry (d : Dialect) (column : String) : Operand (Render String) → Render String
  | .list items => Membership.render d [.name column] .positive (.members items)
  | .scalar (.subquery q) => Membership.render d [.name column] .positive (.subquery q)
  | .scalar .null => pure (d.columnName column ++ " IS NULL")
  | .scalar (.raw sql) => pure (d.columnName column ++ "=" ++ sql.text)
  | .scalar (.value v) => do return d.columnName column ++ "=" ++ (← d.bind v)
  | .row _ => Render.fail (.invalidOperand column .mappingAsValue)

namespace Node

/-- A node as SQL, once what stands in it can be written. -/
def render (d : Dialect) : Node (Render String) → Render String
  | .hash entries => do
    return Junction.and.join (← entries.mapM fun e => renderEntry d e.1 e.2)
  | .comparison column operator value => do
    let column ← column.render d
    let value ← renderScalar d operator value
    return column ++ " " ++ operator ++ " " ++ value
  | .membership columns polarity values =>
    Membership.render d columns polarity (.ofOperand values)
  | .between column polarity low high => do
    let column ← column.render d
    let low ← renderScalar d (polarity.apply "BETWEEN") low
    let high ← renderScalar d (polarity.apply "BETWEEN") high
    return column ++ " " ++ polarity.apply "BETWEEN" ++ " " ++ low ++ " AND " ++ high
  | .betweenColumns value polarity low high => do
    let value ← renderScalar d (polarity.apply "BETWEEN") value
    let low ← low.render d
    let high ← high.render d
    return value ++ " " ++ polarity.apply "BETWEEN" ++ " " ++ low ++ " AND " ++ high
  | .pattern column operator values escaping =>
    renderPatterns d column operator escaping values.members
  | .negation inner => do
    return Condition.negated (← Render.within .negated inner)
  | .junction operator operands => do
    let clauses ← Condition.renderOperands operator operands
    return operator.join (clauses.filter (!·.isEmpty))
  | .existence polarity q => do
    return polarity.apply "EXISTS" ++ " " ++ parenthesized (← q.render d)

end Node

end WhereClause.Open
