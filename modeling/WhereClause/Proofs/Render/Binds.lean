/-
WhereClause/Proofs/Render/Binds.lean

All that compiling does to a sink is to bind values in its own style, one after
the other; so it is also where compiling fails, and for sub-queries that are
written by hand.

Main results: what compiling leaves behind is a run of bindings
(`Spec.binds_compile`), so that it adds entries at the end and changes none
(`Spec.prefix_compile`).
-/
import WhereClause.Proofs.Render.Congruence
import WhereClause.Proofs.Sink.Fresh

namespace WhereClause

namespace Render

variable {α β : Type}

/-- A step that does no more to a sink than a run of bindings. -/
def Binds (style : PlaceholderStyle) (x : Render α) : Prop :=
  ∀ sink : Sink, ∃ vs, (x sink).2 = sink.bindAll style vs

theorem Binds.of_unchanged {style : PlaceholderStyle} {x : Render α}
    (h : ∀ sink, (x sink).2 = sink) : x.Binds style :=
  fun sink => ⟨[], h sink⟩

theorem Binds.bind {style : PlaceholderStyle} {x : Render α} {f : α → Render β}
    (hx : x.Binds style) (hf : ∀ a, (f a).Binds style) : (x >>= f).Binds style := by
  intro sink
  obtain ⟨vs, hvs⟩ := hx sink
  rw [bind_apply]
  rcases hrun : x sink with ⟨e | a, t⟩
  · -- What a failing step has bound stays bound.
    rw [hrun] at hvs
    exact ⟨vs, hvs⟩
  · rw [hrun] at hvs
    obtain ⟨ws, hws⟩ := hf a t
    refine ⟨vs ++ ws, ?_⟩
    rw [Sink.bindAll_append, ← hvs]
    exact hws

theorem Binds.within {style : PlaceholderStyle} (place : Place) {x : Render α}
    (hx : x.Binds style) : (Render.within place x).Binds style := by
  intro sink
  obtain ⟨vs, hvs⟩ := hx sink
  refine ⟨vs, ?_⟩
  rw [← hvs, Render.within]
  rcases x sink with ⟨e | a, t⟩ <;> rfl

/-- Only the first of two related steps is looked at. -/
def Binds.congruence (d : Dialect) : Congruence d where
  rel x _ := x.Binds d.options.placeholder
  pure _ := .of_unchanged fun _ => rfl
  fail _ := .of_unchanged fun _ => rfl
  bind hx hf := hx.bind hf
  within place _ _ hx := hx.within place
  count := .of_unchanged fun _ => rfl
  value {v _} _ := fun _ => ⟨[v], rfl⟩

end Render

namespace Spec

theorem binds_compile (c : Compiler) (s : Spec) :
    (s.compile c).Binds c.dialect.options.placeholder :=
  (Render.Binds.congruence c.dialect).compile_self s

theorem prefix_compile (c : Compiler) (s : Spec) (sink : Sink) :
    sink.entries <+: (s.compile c sink).2.entries := by
  obtain ⟨vs, hvs⟩ := s.binds_compile c sink
  rw [hvs]
  exact sink.prefix_bindAll _ vs

end Spec

end WhereClause
