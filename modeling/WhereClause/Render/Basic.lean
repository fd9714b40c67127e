/-
WhereClause/Render/Basic.lean

Writing SQL.  A `Render` step writes something and may bind values as it goes;
it may also fail, and what was bound before a failure stays bound.  Everything
here is written from left to right, so that placeholders are numbered in the
order in which they are read.  Steps form a lawful monad; `pure_apply` and
`bind_apply` say what they do to a sink.
-/
import WhereClause.Options
import WhereClause.Operand

namespace WhereClause

/-- A step that writes an `α` and fills the sink. -/
def Render (α : Type) : Type := Sink → Except Error α × Sink

namespace Render

variable {α β : Type}

instance : Monad Render where
  pure a := fun sink => (.ok a, sink)
  bind x f := fun sink =>
    match x sink with
    | (.ok a, sink) => f a sink
    | (.error e, sink) => (.error e, sink)

/-- What was bound before stays bound. -/
def fail (e : Error) : Render α := fun sink => (.error e, sink)

/-- A step that neither looks at the sink nor changes it. -/
def ofExcept (x : Except Error α) : Render α := fun sink => (x, sink)

/-- The place of a step is put before the error in which it fails. -/
def within (place : Place) (x : Render α) : Render α := fun sink =>
  match x sink with
  | (.ok a, sink) => (.ok a, sink)
  | (.error e, sink) => (.error (.within place e), sink)

/-- The number of values bound so far. -/
def count : Render Nat := fun sink => (.ok sink.size, sink)

/-! ### What steps do -/

@[simp] theorem pure_apply (a : α) (sink : Sink) : (pure a : Render α) sink = (.ok a, sink) :=
  rfl

/-- The second step goes on with the sink of the first; after an error there is none. -/
theorem bind_apply (x : Render α) (f : α → Render β) (sink : Sink) :
    (x >>= f) sink = match x sink with
      | (.ok a, sink) => f a sink
      | (.error e, sink) => (.error e, sink) :=
  rfl

instance : LawfulMonad Render := LawfulMonad.mk' Render
  (fun x => by
    funext sink
    show (match x sink with
      | (.ok a, sink) => (.ok a, sink)
      | (.error e, sink) => (.error e, sink)) = x sink
    rcases x sink with ⟨- | -, -⟩ <;> rfl)
  (fun _ _ => rfl)
  (fun x f g => by
    funext sink
    simp only [bind_apply]
    rcases x sink with ⟨- | -, -⟩ <;> rfl)

end Render

/-! ### Dialects -/

/-- What decides how things are written. -/
structure Dialect where
  options : Options
  quoter : Quoter

namespace Dialect

/-- Bind a value; its placeholder is what is written. -/
def bind (d : Dialect) (v : Value) : Render String := fun sink =>
  let (placeholder, sink) := sink.bind d.options.placeholder v
  (.ok placeholder, sink)

def columnName (d : Dialect) (name : String) : String := d.quoter.columnName name

def tableName (d : Dialect) (name : String) : String := d.quoter.tableName name

end Dialect

/-- What stands in parentheses is an operand, whatever it is. -/
def parenthesized (sql : String) : String := "(" ++ sql ++ ")"

/-! ### Sub-queries and the sides of a test -/

def Template.Part.render (d : Dialect) : Template.Part (Render String) → Render String
  | .text s => pure s
  | .value v => d.bind v
  | .column n => pure (d.columnName n)
  | .table n => pure (d.tableName n)
  | .condition c => c
  | .count => do return (← Render.count).repr

namespace Subquery

/-- The columns of a selection, and all of them if none is named. -/
def columnList (d : Dialect) : List String → String
  | [] => "*"
  | columns => ", ".intercalate (columns.map d.columnName)

/-- An empty filter is left out. -/
def whereClause (condition : String) : String :=
  if condition.isEmpty then "" else " WHERE " ++ condition

def render (d : Dialect) : Subquery (Render String) → Render String
  | .select table columns none =>
    pure ("SELECT " ++ columnList d columns ++ " FROM " ++ d.tableName table)
  | .select table columns (some filter) => do
    let condition ← filter
    return "SELECT " ++ columnList d columns ++ " FROM " ++ d.tableName table ++
      whereClause condition
  | .template parts => do return String.join (← parts.mapM (·.render d))

end Subquery

/-- Null is written out, a value is bound, raw SQL stays as it is. -/
def Scalar.render (d : Dialect) : Scalar (Render String) → Render String
  | .null => pure "NULL"
  | .value v => d.bind v
  | .raw sql => pure sql.text
  | .subquery q => do return parenthesized (← q.render d)

/-- A name is quoted, raw SQL is trusted, and a query is put in parentheses. -/
def Column.render (d : Dialect) : Column (Render String) → Render String
  | .name n => pure (d.columnName n)
  | .raw sql => pure sql.text
  | .subquery q => do return parenthesized (← q.render d)

/-- Plain columns are written without a sink. -/
def PlainColumn.text (d : Dialect) : PlainColumn → String
  | .name n => d.columnName n
  | .raw sql => sql.text

end WhereClause
