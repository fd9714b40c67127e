/-
WhereClause/Proofs/Noninterference.lean

Bound values leave no trace in a query.  Compiling looks at the type of a value
and at nothing else of it, so two specifications that differ only in values, or
two sinks that bind different values to the same names, cannot be told apart by
what is written, by how compiling fails, or by the names of the placeholders.

Main results: steps that cannot be told apart form a congruence
(`Render.Alike.congruence`), and so compiling does not tell such
specifications apart (`Compiler.compileInto_agree`).
-/
import WhereClause.Proofs.Render.Binds
import WhereClause.Proofs.Roles

namespace WhereClause

namespace Render

variable {α β : Type}

/-- On sinks with the same names, two steps have the same result and leave the
same names behind. -/
def Alike (x y : Render α) : Prop :=
  ∀ s t : Sink, s.names = t.names → (x s).1 = (y t).1 ∧ (x s).2.names = (y t).2.names

theorem Alike.bind {x y : Render α} {f g : α → Render β} (hxy : x.Alike y)
    (hfg : ∀ a, (f a).Alike (g a)) : (x >>= f).Alike (y >>= g) := by
  intro s t hst
  obtain ⟨hresult, hnames⟩ := hxy s t hst
  rw [bind_apply, bind_apply]
  rcases hx : x s with ⟨r, s'⟩
  rcases hy : y t with ⟨r', t'⟩
  rw [hx, hy] at hresult hnames
  obtain rfl : r = r' := hresult
  cases r with
  | ok a => exact hfg a s' t' hnames
  | error e => exact ⟨rfl, hnames⟩

theorem Alike.within (place : Place) {x y : Render α} (hxy : x.Alike y) :
    (Render.within place x).Alike (Render.within place y) := by
  intro s t hst
  obtain ⟨hresult, hnames⟩ := hxy s t hst
  rw [Render.within, Render.within]
  rcases hx : x s with ⟨r, s'⟩
  rcases hy : y t with ⟨r', t'⟩
  rw [hx, hy] at hresult hnames
  obtain rfl : r = r' := hresult
  cases r with
  | ok a => exact ⟨rfl, hnames⟩
  | error e => exact ⟨rfl, hnames⟩

/-- A placeholder depends on the names that are taken, not on its value. -/
theorem Alike.value (d : Dialect) (v w : Value) : (d.bind v).Alike (d.bind w) := by
  intro s t hst
  have hordinal := Sink.nextOrdinal_congr hst d.options.placeholder
  constructor
  · simp only [Dialect.bind, Sink.bind_eq, Sink.nextName, hordinal]
  · simp only [Dialect.bind, Sink.bind_eq, Sink.nextName, hordinal, Sink.names_append, hst]

theorem Alike.count : Alike count count := by
  intro s t hst
  have hsize : s.size = t.size := by
    simpa [Sink.names, Sink.size] using congrArg List.length hst
  exact ⟨congrArg Except.ok hsize, hst⟩

def Alike.congruence (d : Dialect) : Congruence d where
  rel := Alike
  pure _ := fun _ _ h => ⟨rfl, h⟩
  fail _ := fun _ _ h => ⟨rfl, h⟩
  bind hxy hfg := hxy.bind hfg
  within place _ _ hxy := hxy.within place
  count := .count
  value {v w} _ := .value d v w

end Render

theorem Spec.alike_compile (table : List (String × Builtin)) (d : Dialect) {s s' : Spec}
    (h : s.Agree (Registry.roles table) .condition s') :
    (s.compile ⟨d, .ofBuiltins table⟩).Alike (s'.compile ⟨d, .ofBuiltins table⟩) :=
  (Render.Alike.congruence d).compile (c := ⟨d, .ofBuiltins table⟩)
    (fun _ _ hst => hst.read table) h

namespace Compiler

/-- **Values do not influence the text.**  With the forms of the library under any
tokens, two specifications that differ only in values fail with one error or
compile to one text, and the same names are added in the same order. -/
theorem compileInto_agree (table : List (String × Builtin)) (d : Dialect) {s s' : Spec}
    (h : s.Agree (Registry.roles table) .condition s') (sink : Sink) :
    (compileInto ⟨d, .ofBuiltins table⟩ s sink).1 =
        (compileInto ⟨d, .ofBuiltins table⟩ s' sink).1 ∧
      ∃ added, (compileInto ⟨d, .ofBuiltins table⟩ s sink).2.names = sink.names ++ added ∧
        (compileInto ⟨d, .ofBuiltins table⟩ s' sink).2.names = sink.names ++ added := by
  obtain ⟨hresult, hnames⟩ := Spec.alike_compile table d h sink sink rfl
  obtain ⟨new, hnew⟩ := s.prefix_compile ⟨d, .ofBuiltins table⟩ sink
  -- What the first adds are the names behind those of the sink; the second has the same.
  have hadded : (compileInto ⟨d, .ofBuiltins table⟩ s sink).2.names =
      sink.names ++ new.map (·.1) := by
    rw [Sink.names, compileInto, ← hnew, List.map_append]
    rfl
  refine ⟨hresult, new.map (·.1), hadded, ?_⟩
  rw [← hadded]
  exact hnames.symm

/-- A value that ends the literal it would stand in changes nothing. -/
theorem compileInto_agree_hostile :
    let plain : Spec := .operator "=" [.text "name", .text "x"]
    let hostile : Spec := .operator "=" [.text "name", .text "' OR 1=1 --"]
    plain.Agree (Registry.roles []) .condition hostile ∧
      (compileInto ⟨⟨.standard, QuoteStyle.bare.quoter⟩, .ofBuiltins []⟩ plain .empty).1 =
        (compileInto ⟨⟨.standard, QuoteStyle.bare.quoter⟩, .ofBuiltins []⟩ hostile .empty).1 := by
  have hagree : (Spec.operator "=" [.text "name", .text "x"]).Agree (Registry.roles []) .condition
      (.operator "=" [.text "name", .text "' OR 1=1 --"]) :=
    .operator "=" (.cons (.same _) (.cons (.value rfl) .nil))
  exact ⟨hagree, (compileInto_agree [] _ hagree .empty).1⟩

end Compiler

end WhereClause
