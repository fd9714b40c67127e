/-
WhereClause/Proofs/Render/Found.lean

Bindings that are found again.  Binding takes a fresh name, and what is bound later
comes behind it, so a value is still found under its placeholder when all is written.

Main results: what each of several steps has bound is found after the last of them
(`Render.exists_mapM_found`), and so are the values of a list, with or without nulls
among them (`Dialect.mapM_bind`, `Dialect.mapM_bindNullable`).
-/
import WhereClause.Proofs.Render.Runs
import WhereClause.Proofs.Sink.Fresh

namespace WhereClause

open Render

namespace Sink

/-- The value that is bound to a placeholder, whose name stands behind its sigil. -/
def valueOf? (s : Sink) (placeholder : String) : Option Value :=
  s.get? (String.ofList placeholder.toList.tail)

theorem get?_of_prefix {s t : Sink} {name : String} {v : Value} (h : s.entries <+: t.entries)
    (hget : s.get? name = some v) : t.get? name = some v := by
  obtain ⟨es, hes⟩ := h
  rw [get?] at hget ⊢
  rw [← hes, List.lookup_append, hget]
  rfl

theorem get?_append_nextName (style : PlaceholderStyle) (s : Sink) (v : Value) :
    (s.append (s.nextName style) v).get? (s.nextName style) = some v := by
  have hnone : s.entries.lookup (s.nextName style) = none := by
    refine List.lookup_eq_none_iff.2 fun e he => bne_iff_ne.2 fun heq => ?_
    exact s.nextName_notMem style (heq ▸ List.mem_map_of_mem he)
  rw [get?, entries_append, List.lookup_append, hnone]
  exact List.lookup_cons_self

end Sink

theorem PlaceholderStyle.tail_render (style : PlaceholderStyle) (name : String) :
    String.ofList (style.render name).toList.tail = name := by
  cases style <;> simp [render]

namespace Dialect

theorem exists_bind (d : Dialect) (v : Value) (sink : Sink) :
    ∃ placeholder sink', d.bind v sink = (.ok placeholder, sink') ∧
      sink.entries <+: sink'.entries ∧ sink'.valueOf? placeholder = some v := by
  refine ⟨_, _, rfl, List.prefix_append _ _, ?_⟩
  -- The name is fresh, so nothing before it is found under it.
  rw [Sink.valueOf?, PlaceholderStyle.tail_render]
  exact Sink.get?_append_nextName d.options.placeholder sink v

end Dialect

/-- If each step only adds to the sink, and what its result says of the sink stays true
when more is added, then all the results are right about the last sink. -/
theorem Render.exists_mapM_found {α β : Type} {f : α → Render β} {R : Sink → β → α → Prop}
    (hmono : ∀ {s t b a}, s.entries <+: t.entries → R s b a → R t b a)
    (hstep : ∀ a s, ∃ b t, f a s = (.ok b, t) ∧ s.entries <+: t.entries ∧ R t b a)
    (as : List α) (sink : Sink) :
    ∃ bs sink', as.mapM f sink = (.ok bs, sink') ∧ sink.entries <+: sink'.entries ∧
      List.Forall₂ (R sink') bs as := by
  induction as generalizing sink with
  | nil => exact ⟨[], sink, rfl, List.prefix_refl _, .nil⟩
  | cons a as ih =>
    obtain ⟨b, t, hb, hprefix, hR⟩ := hstep a sink
    obtain ⟨bs, sink', hbs, hprefix', hfound⟩ := ih t
    refine ⟨b :: bs, sink', ?_, hprefix.trans hprefix', .cons (hmono hprefix' hR) hfound⟩
    rw [List.mapM_cons]
    exact bind_eq_ok.2 ⟨b, t, hb, bind_eq_ok.2 ⟨bs, sink', hbs, rfl⟩⟩

namespace Dialect

/-- Values that are bound one after the other are found behind their placeholders, and
nothing that was bound before is lost. -/
theorem mapM_bind (d : Dialect) (vs : List Value) (sink : Sink) :
    ∃ placeholders sink', vs.mapM d.bind sink = (.ok placeholders, sink') ∧
      sink.entries <+: sink'.entries ∧
      List.Forall₂ (fun p v => sink'.valueOf? p = some v) placeholders vs :=
  exists_mapM_found (R := fun s p v => s.valueOf? p = some v) Sink.get?_of_prefix d.exists_bind vs
    sink

/-- Bind a value, unless there is none. -/
def bindNullable (d : Dialect) : Option Value → Render (Option String)
  | none => pure none
  | some v => do return some (← d.bind v)

theorem mapM_bindNullable (d : Dialect) (vs : List (Option Value)) (sink : Sink) :
    ∃ placeholders sink', vs.mapM d.bindNullable sink = (.ok placeholders, sink') ∧
      sink.entries <+: sink'.entries ∧
      List.Forall₂ (Option.Rel fun p v => sink'.valueOf? p = some v) placeholders vs := by
  refine exists_mapM_found (R := fun s => Option.Rel fun p v => s.valueOf? p = some v) ?_ ?_ vs
    sink
  · rintro s t p v hprefix (h | _)
    · exact .some (Sink.get?_of_prefix hprefix h)
    · exact .none
  · intro v s
    cases v with
    | none => exact ⟨none, s, rfl, List.prefix_refl _, .none⟩
    | some v =>
      obtain ⟨p, t, hrun, hprefix, hfound⟩ := d.exists_bind v s
      exact ⟨some p, t, bind_eq_ok.2 ⟨p, t, hrun, rfl⟩, hprefix, .some hfound⟩

end Dialect

end WhereClause
