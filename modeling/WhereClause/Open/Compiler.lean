/-
WhereClause/Open/Compiler.lean

Compiling with any readers in the registry.  A reader may make a node of anything, also of
more than it was given, so compiling need not come to an end: an operator can be defined by
itself.  `Spec.compileWithin` is what compiling does with a limit on the number of calls
that are under way at a time, and with something else in place of any further call; if that
is never seen then compiling comes to an end (`Compiler.EndsIn`).

Main results: a query of a caller's own writes what its program answers
(`Spec.render_foreign`), and compiling ends in one way at most (`Compiler.EndsIn.unique`).
-/
import WhereClause.Open.Spec
import WhereClause.Registry

namespace WhereClause.Open

/-! ### Registries -/

/-- The readers of the library, and of a caller, by normalized token. -/
abbrev Registry := WhereClause.Registry Reader

namespace Registry

def standard : Registry where
  forms :=
    [("AND", Node.readJunction), ("OR", Node.readJunction), ("NOT", Node.readNegation),
     ("IN", Node.readMembership), ("NOT IN", Node.readMembership),
     ("BETWEEN", Node.readBetween), ("NOT BETWEEN", Node.readBetween),
     ("LIKE", Node.readPattern), ("NOT LIKE", Node.readPattern),
     ("OR LIKE", Node.readPattern), ("OR NOT LIKE", Node.readPattern),
     ("ILIKE", Node.readPattern), ("NOT ILIKE", Node.readPattern),
     ("OR ILIKE", Node.readPattern), ("OR NOT ILIKE", Node.readPattern),
     ("EXISTS", Node.readExistence), ("NOT EXISTS", Node.readExistence)]

/-- The node that a token makes of its operands; what has no reader is a comparison. -/
def parse (r : Registry) (token : String) (operands : List Spec) : Except Error (Node Spec) :=
  let operator := Operator.normalize token
  match r.forms.lookup operator with
  | some read => read operator operands
  | none =>
    if isComparison operator then Node.readComparison operator operands
    else .error (.unknownOperator operator)

end Registry

/-! ### Compiling -/

structure Compiler where
  dialect : Dialect
  registry : Registry

namespace Compiler

/-- Write what was read, where `k` compiles what stands in it. -/
def write (c : Compiler) (k : Spec → Render String) (x : Except Error (Node Spec)) :
    Render String := do
  let n ← Render.ofExcept x
  (n.map k).render c.dialect

/-- One call, where `k` stands for the calls that it makes. -/
def step (c : Compiler) (k : Spec → Render String) : Spec → Render String
  | .scalar .null => pure ""
  | .scalar (.raw sql) => pure sql.text
  | .scalar (.value (.text s)) =>
    if s.isEmpty then pure ""
    else Render.fail (.unsupportedShape (.notCondition (.value .text)))
  | .scalar other => Render.fail (.unsupportedShape (.notCondition other.shape))
  | .list [] => pure ""
  | .list (.scalar (.value (.text token)) :: operands) =>
    c.write k (c.registry.parse token operands)
  | .list (first :: _) => Render.fail (.unsupportedShape (.noOperator first.shape))
  | .map [] => pure ""
  | .map (e :: es) => c.write k (Node.ofMap (e :: es))
  | .node n => c.write k (.ok n)
  | .program p => p.run c.dialect k

end Compiler

/-- A specification as SQL, with at most `n` calls under way at a time; any further call
does what `overflow` does. -/
def Spec.compileWithin (c : Compiler) (overflow : Spec → Render String) : Nat → Spec → Render String
  | 0, s => overflow s
  | n + 1, s => c.step (compileWithin c overflow n) s

/-- **A query of a caller's own** is written as its program answers, with nothing around it. -/
theorem Spec.render_foreign (d : Dialect) (k : Spec → Render String) (p : Program Spec) :
    ((Subquery.template [.condition (Spec.program p)]).map k).render d = k (.program p) := by
  rw [Subquery.map_template]
  show (do return String.join (← [k (.program p)].mapM id) : Render String) = k (.program p)
  simp [String.join]

namespace Compiler

variable {c : Compiler}

/-- Compiling `s` comes to an end, with this outcome: some number of calls is enough, since
what would be done in place of any further one is never seen. -/
def EndsIn (c : Compiler) (s : Spec) (sink : Sink) (outcome : Except Error String × Sink) : Prop :=
  ∃ n, ∀ overflow, s.compileWithin c overflow n sink = outcome

/-- More calls are fewer calls that others take the place of. -/
theorem compileWithin_add (c : Compiler) (overflow : Spec → Render String) (m n : Nat) :
    Spec.compileWithin c overflow (m + n) =
      Spec.compileWithin c (Spec.compileWithin c overflow m) n := by
  induction n with
  | zero => rfl
  | succ n ih =>
    funext s
    show c.step (Spec.compileWithin c overflow (m + n)) s = _
    rw [ih]
    rfl

/-- What is enough stays enough. -/
theorem EndsIn.at_least {s : Spec} {sink : Sink} {outcome : Except Error String × Sink}
    (h : c.EndsIn s sink outcome) : ∃ n, ∀ m overflow,
      s.compileWithin c overflow (m + n) sink = outcome := by
  obtain ⟨n, hn⟩ := h
  refine ⟨n, fun m overflow => ?_⟩
  rw [compileWithin_add]
  exact hn _

/-- **Compiling ends in one way at most.** -/
theorem EndsIn.unique {s : Spec} {sink : Sink} {outcome outcome' : Except Error String × Sink}
    (h : c.EndsIn s sink outcome) (h' : c.EndsIn s sink outcome') : outcome = outcome' := by
  obtain ⟨n, hn⟩ := h.at_least
  obtain ⟨m, hm⟩ := h'.at_least
  have hsame := hn m (fun _ => pure "")
  rw [Nat.add_comm, hm n] at hsame
  exact hsame.symm

end Compiler

end WhereClause.Open
