/-
WhereClause/Compiler.lean

Compiling specifications.  A compiler is a dialect and a registry and keeps
nothing from one compilation to the next; several fragments of a statement share
a sink through `compileInto`, and their placeholders are numbered on.

Main result: compiling is reading one level and writing it over the compiled
next one (`Spec.compile_eq`).
-/
import WhereClause.Reading
import WhereClause.Render.Condition

namespace WhereClause

/-- The SQL of one level, given that of the next. -/
def Reading.render (d : Dialect) : Reading (Render String) → Render String
  | .text sql => pure sql
  | .failed e => Render.fail e
  | .node c => c.render d

structure Compiler where
  dialect : Dialect
  registry : Registry

/-- A condition and the values of its placeholders. -/
structure Compiled where
  sql : String
  sink : Sink

namespace Spec

/-- A specification as SQL. -/
def compile (c : Compiler) (s : Spec) : Render String :=
  s.fold c.registry (Reading.render c.dialect)

theorem compile_eq (c : Compiler) (s : Spec) :
    s.compile c = ((s.read c.registry).map (compile c)).render c.dialect :=
  fold_eq _ _ s

/-- What is read as a condition is written as it. -/
theorem compile_of_read {c : Compiler} {s : Spec} {x : Condition Spec}
    (h : s.read c.registry = .node x) :
    s.compile c = (x.map (compile c)).render c.dialect := by
  rw [compile_eq, h]
  rfl

theorem compile_condition (c : Compiler) (x : Condition Spec) :
    (condition x).compile c = (x.map (compile c)).render c.dialect :=
  compile_of_read rfl

end Spec

namespace Compiler

/-- The compiler for some options, with the quotes that they ask for. -/
def ofOptions (o : Options) : Compiler := ⟨⟨o, o.quoteStyle.quoter⟩, .standard⟩

/-- Bind into a sink that may have entries already. -/
def compileInto (c : Compiler) (s : Spec) (sink : Sink) : Except Error String × Sink :=
  s.compile c sink

/-- Build a condition that was made already. -/
def build (c : Compiler) (x : Condition Spec) (sink : Sink) : Except Error String × Sink :=
  (x.map (Spec.compile c)).render c.dialect sink

def compile (c : Compiler) (s : Spec) : Except Error Compiled :=
  match c.compileInto s .empty with
  | (.ok sql, sink) => .ok ⟨sql, sink⟩
  | (.error e, _) => .error e

end Compiler

/-- Whether there is no constraint, and so nothing to write after `WHERE`. -/
def Compiled.isEmpty (x : Compiled) : Bool := x.sql.isEmpty

end WhereClause
