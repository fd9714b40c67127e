/-
WhereClause/Proofs/Open/Binds.lean

What code of a caller's own can do to a sink.  A reader sees no sink.  A query of a caller's
own may look at the sink as often as it likes, fail, and compile whatever it likes in any
order, but the one thing that it can do to the sink is to bind a value in the style of the
compilation.  So whatever a compilation does, and however it ends, it is a run of bindings.

The node cases go through `Render.Congruence`: a node is written with the steps that a
congruence keeps, whatever stands in the node (`Congruence.node`).  A program is no node, so
its operations are gone through here (`Program.binds_run`).

Main results: one call binds if the next calls do (`Compiler.binds_step`), so every
compilation that ends has appended to the sink and done nothing else to it
(`Compiler.EndsIn.binds`, `Compiler.EndsIn.prefix_entries`).
-/
import WhereClause.Open.Compiler
import WhereClause.Proofs.Render.Binds
import WhereClause.Proofs.Roles

namespace WhereClause

/-! ### Nodes, whatever stands in them -/

section

variable {S T : Type} {Q : T → T → Prop} {f g : S → T}

/-- Two copies of a column agree if what takes the place of each thing in one is related to
what takes its place in the other.  So it is for sub-queries and operands. -/
theorem Column.agree_map (hfg : ∀ s, Q (f s) (g s)) (c : Column S) :
    (c.map f).Agree Q (c.map g) :=
  (Column.Agree.refl (R := Eq) c fun _ _ => rfl).map fun s _ _ h => h ▸ hfg s

theorem Subquery.agree_map (hfg : ∀ s, Q (f s) (g s)) (q : Subquery S) :
    (q.map f).Agree Q (q.map g) :=
  (Subquery.Agree.refl (R := Eq) q fun _ _ => rfl).map fun s _ _ h => h ▸ hfg s

theorem Operand.agree_map (hfg : ∀ s, Q (f s) (g s)) (o : Operand S) :
    (o.map f).Agree Q (o.map g) :=
  (Operand.Agree.refl (R := Eq) o fun _ _ => rfl).map fun s _ _ h => h ▸ hfg s

end

namespace Render.Congruence

open WhereClause.Open

variable {d : Dialect} (K : Congruence d)

/-- A scalar slot is written on both sides, or refused on both. -/
theorem scalarSlot (operator : String) {o o' : Operand (Render String)} (h : o.Agree K.rel o') :
    K.rel (renderScalar d operator o) (renderScalar d operator o') := by
  cases h with
  | scalar h => exact K.scalar h
  | list h => exact K.fail _
  | row h => exact K.fail _

/-- A value is a pattern by its type, so it is one on both sides or on neither. -/
theorem patternSlot (operator : String) (table : Option (List (Char × String)))
    {o o' : Operand (Render String)} (h : o.Agree K.rel o') :
    K.rel (renderPattern d operator table o) (renderPattern d operator table o') := by
  cases h with
  | scalar h =>
    cases h with
    | null => exact K.fail _
    | @value v w h =>
      have hsome : v.patternText?.isSome = w.patternText?.isSome := by
        rw [Value.isSome_patternText?, Value.isSome_patternText?, h]
      -- Whether there is a text depends on the type of the value, not on the value.
      simp only [renderPattern]
      cases hv : v.patternText? with
      | none =>
        rw [hv, Option.isSome_none, eq_comm, Option.isSome_eq_false_iff, Option.isNone_iff_eq_none]
          at hsome
        rw [hsome, h]
        exact K.fail _
      | some t =>
        rw [hv, Option.isSome_some, eq_comm, Option.isSome_iff_exists] at hsome
        obtain ⟨t', ht'⟩ := hsome
        rw [ht']
        exact K.value rfl
    | raw sql => exact K.pure _
    | subquery h =>
      apply K.bind (K.subquery h)
      intro sql
      exact K.pure _
  | list h => exact K.fail _
  | row h => exact K.fail _

/-- What an entry of a hash is tested against decides how; a row is refused on both sides. -/
theorem entrySlot (column : String) {o o' : Operand (Render String)} (h : o.Agree K.rel o') :
    K.rel (renderEntry d column o) (renderEntry d column o') := by
  cases h with
  | scalar h =>
    cases h with
    | null => exact K.pure _
    | value h =>
      apply K.bind (K.value h)
      intro placeholder
      exact K.pure _
    | raw sql => exact K.pure _
    | subquery h => exact K.membership [.name column] .positive (.subquery h)
  | list h => exact K.membership [.name column] .positive (.members h)
  | row h => exact K.fail _

/-- **A node is written to related steps** if what stands in it is replaced by related
steps. -/
theorem node {S : Type} {f g : S → Render String} (hfg : ∀ s, K.rel (f s) (g s)) (n : Node S) :
    K.rel ((n.map f).render d) ((n.map g).render d) := by
  have hcolumn (c : Column S) := K.column (c.agree_map hfg)
  have hscalar (operator : String) (o : Operand S) := K.scalarSlot operator (o.agree_map hfg)
  have hsubquery (q : Subquery S) := K.subquery (q.agree_map hfg)
  cases n with
  | hash entries =>
    -- Both sides have the same columns, since only what stands in the entries was replaced.
    have hentries : List.Forall₂
        (fun e e' => K.rel (renderEntry d e.1 e.2) (renderEntry d e'.1 e'.2))
        (entries.map fun e => (e.1, e.2.map f)) (entries.map fun e => (e.1, e.2.map g)) := by
      rw [List.forall₂_map_left_iff, List.forall₂_map_right_iff, List.forall₂_same]
      intro e _
      exact K.entrySlot e.1 (e.2.agree_map hfg)
    apply K.bind (K.mapM hentries fun _ _ h => h)
    intro clauses
    exact K.pure _
  | comparison column operator value =>
    apply K.bind (hcolumn column)
    intro x
    apply K.bind (hscalar operator value)
    intro y
    exact K.pure _
  | membership columns polarity values =>
    exact K.membership columns polarity (Candidates.agree_ofOperand (values.agree_map hfg))
  | between column polarity low high =>
    apply K.bind (hcolumn column)
    intro x
    apply K.bind (hscalar _ low)
    intro y
    apply K.bind (hscalar _ high)
    intro z
    exact K.pure _
  | betweenColumns value polarity low high =>
    apply K.bind (hscalar _ value)
    intro x
    apply K.bind (hcolumn low)
    intro y
    apply K.bind (hcolumn high)
    intro z
    exact K.pure _
  | pattern column operator values escaping =>
    have hmembers := Operand.agree_members (values.agree_map hfg)
    show K.rel (renderPatterns d _ operator escaping _) (renderPatterns d _ operator escaping _)
    -- Whether there are members at all is seen from either side.
    generalize (values.map f).members = os, (values.map g).members = os' at hmembers
    cases hmembers with
    | nil => exact K.pure _
    | cons ho hos =>
      apply K.bind (hcolumn column)
      intro x
      apply K.bind (K.mapM (.cons ho hos) fun _ _ h => K.patternSlot _ _ h)
      intro patterns
      exact K.pure _
  | negation inner =>
    apply K.bind (K.within _ (hfg inner))
    intro sql
    exact K.pure _
  | junction operator operands =>
    have hoperands : List.Forall₂ K.rel (operands.map f) (operands.map g) := by
      rw [List.forall₂_map_left_iff, List.forall₂_map_right_iff, List.forall₂_same]
      intro t _
      exact hfg t
    apply K.bind (K.operands operator hoperands)
    intro clauses
    exact K.pure _
  | existence polarity q =>
    apply K.bind (hsubquery q)
    intro sql
    exact K.pure _

end Render.Congruence

namespace Open

variable {c : Compiler} {k : Spec → Render String}

/-! ### One call -/

/-- A program binds, and compiles what it makes; all else leaves the sink as it is. -/
theorem Program.binds_run {d : Dialect} (hk : ∀ s, (k s).Binds d.options.placeholder)
    (p : Program Spec) : (p.run d k).Binds d.options.placeholder := by
  induction p with
  | answer sql => exact .of_unchanged fun _ => rfl
  | fail e => exact .of_unchanged fun _ => rfl
  | look next ih => exact fun sink => ih d sink sink
  | bind v next ih => exact Render.Binds.bind (fun _ => ⟨[v], rfl⟩) ih
  | compile s next ih =>
    intro sink
    -- The program goes on after an error as well, and so it keeps what was bound before.
    obtain ⟨vs, hvs⟩ := hk s sink
    obtain ⟨ws, hws⟩ := ih (k s sink).1 (k s sink).2
    refine ⟨vs ++ ws, ?_⟩
    rw [Sink.bindAll_append, ← hvs]
    exact hws

/-- Reading touches no sink, and then a node is written. -/
theorem Compiler.binds_write (hk : ∀ s, (k s).Binds c.dialect.options.placeholder)
    (x : Except Error (Node Spec)) : (c.write k x).Binds c.dialect.options.placeholder := by
  cases x with
  | error e => exact .of_unchanged fun _ => rfl
  | ok n => exact (Render.Binds.congruence c.dialect).node (g := k) hk n

/-- **One call** does no more to a sink than a run of bindings, if the calls that it makes
do no more. -/
theorem Compiler.binds_step (hk : ∀ s, (k s).Binds c.dialect.options.placeholder) (s : Spec) :
    (c.step k s).Binds c.dialect.options.placeholder := by
  unfold step
  split
  · exact .of_unchanged fun _ => rfl
  · exact .of_unchanged fun _ => rfl
  · split <;> exact .of_unchanged fun _ => rfl
  · exact .of_unchanged fun _ => rfl
  · exact .of_unchanged fun _ => rfl
  · exact binds_write hk _
  · exact .of_unchanged fun _ => rfl
  · exact .of_unchanged fun _ => rfl
  · exact binds_write hk _
  · exact binds_write hk _
  · exact Program.binds_run hk _

/-! ### All calls -/

theorem Spec.binds_compileWithin {overflow : Spec → Render String}
    (h : ∀ s, (overflow s).Binds c.dialect.options.placeholder) (n : Nat) (s : Spec) :
    (s.compileWithin c overflow n).Binds c.dialect.options.placeholder := by
  induction n generalizing s with
  | zero => exact h s
  | succ n ih => exact Compiler.binds_step ih s

/-- **A compilation that ends is a run of bindings**, also where it ends in an error.  What
would be done in place of a further call does not matter, so it may as well do nothing. -/
theorem Compiler.EndsIn.binds {s : Spec} {sink t : Sink} {result : Except Error String}
    (h : c.EndsIn s sink (result, t)) :
    ∃ vs, t = sink.bindAll c.dialect.options.placeholder vs := by
  obtain ⟨n, hn⟩ := h
  have hnothing (s : Spec) : (pure "" : Render String).Binds c.dialect.options.placeholder :=
    .of_unchanged fun _ => rfl
  obtain ⟨vs, hvs⟩ := s.binds_compileWithin hnothing n sink
  rw [hn] at hvs
  exact ⟨vs, hvs⟩

/-- What is in the sink before a compilation is there after it, in its place. -/
theorem Compiler.EndsIn.prefix_entries {s : Spec} {sink t : Sink} {result : Except Error String}
    (h : c.EndsIn s sink (result, t)) : sink.entries <+: t.entries := by
  obtain ⟨vs, rfl⟩ := h.binds
  exact sink.prefix_bindAll _ vs

end Open

end WhereClause
