/-
WhereClause/Proofs/Sink/Fresh.lean

Binding always finds a free name.  A style gives different numbers different
names, so among one more candidates than there are entries at least one is
free; the search stops at the first of them.

Main results: the number that the search ends with is free and no smaller one
is (`nextOrdinal_spec`, `not_free_of_lt_nextOrdinal`), so that binding appends
one entry under a name that the sink did not have (`nextName_notMem`), and a run
of bindings leaves what was there in its place (`prefix_bindAll`).
-/
import Mathlib.Data.List.Nodup
import Mathlib.Data.List.Perm.Subperm
import WhereClause.Proofs.Sink.Numeral
import WhereClause.Sink

namespace WhereClause

namespace PlaceholderStyle

/-- Different numbers have different names. -/
theorem name_injective (style : PlaceholderStyle) : Function.Injective style.name := by
  intro m n h
  cases style with
  | named stem =>
    have hl : stem.toList ++ m.repr.toList = stem.toList ++ n.repr.toList := by
      rw [← String.toList_append, ← String.toList_append]
      exact congrArg String.toList h
    exact Numeral.repr_injective (String.toList_inj.1 (List.append_cancel_left hl))
  | positional => exact Nat.succ.inj (Numeral.repr_injective h)

end PlaceholderStyle

namespace Sink

/-! ### The search -/

theorem le_firstFree (isFree : Nat → Bool) (fuel n : Nat) : n ≤ firstFree isFree fuel n := by
  induction fuel generalizing n with
  | zero => exact Nat.le_refl n
  | succ fuel ih =>
    rw [firstFree]
    split
    · exact Nat.le_refl n
    · exact Nat.le_of_succ_le (ih (n + 1))

/-- What the search passes over is taken. -/
theorem not_free_of_lt_firstFree {isFree : Nat → Bool} {fuel n m : Nat} (hn : n ≤ m)
    (hm : m < firstFree isFree fuel n) : isFree m = false := by
  induction fuel generalizing n with
  | zero => exact absurd hm (Nat.not_lt.2 hn)
  | succ fuel ih =>
    rw [firstFree] at hm
    split at hm
    · exact absurd hm (Nat.not_lt.2 hn)
    · next hfree =>
      rcases Nat.eq_or_lt_of_le hn with rfl | hlt
      · exact Bool.eq_false_iff.2 hfree
      · exact ih hlt hm

/-- If a number within reach is free then the search ends with one. -/
theorem free_firstFree (isFree : Nat → Bool) {fuel n m : Nat} (hn : n ≤ m)
    (hm : m ≤ n + fuel) (hfree : isFree m = true) : isFree (firstFree isFree fuel n) = true := by
  induction fuel generalizing n with
  | zero =>
    obtain rfl : n = m := Nat.le_antisymm hn hm
    exact hfree
  | succ fuel ih =>
    rw [firstFree]
    split
    · next h => exact h
    · next h =>
      -- The free number lies further on, and is one step nearer now.
      have hne : n ≠ m := by
        rintro rfl
        exact h hfree
      exact ih (by omega) (by omega)

/-! ### The next number -/

theorem contains_eq_false_iff {s : Sink} {name : String} :
    s.contains name = false ↔ name ∉ s.names := by
  rw [contains, Bool.eq_false_iff, ne_eq, List.contains_iff_mem]

/-- Not all of the names from `n` on are taken, one more than there are entries. -/
theorem exists_free (style : PlaceholderStyle) (s : Sink) (n : Nat) :
    ∃ m, n ≤ m ∧ m ≤ n + s.size ∧ style.name m ∉ s.names := by
  -- Otherwise there would be more names than entries.
  by_contra hall
  push Not at hall
  have hsub : (List.range' n (s.size + 1)).map style.name ⊆ s.names := by
    intro name hname
    obtain ⟨m, hm, rfl⟩ := List.mem_map.1 hname
    obtain ⟨hn, hm⟩ := List.mem_range'_1.1 hm
    exact hall m hn (by omega)
  have hnodup : ((List.range' n (s.size + 1)).map style.name).Nodup :=
    List.Nodup.map style.name_injective (List.nodup_range' _)
  have hlen := (hnodup.subperm hsub).length_le
  rw [List.length_map, List.length_range', names, List.length_map] at hlen
  exact Nat.not_succ_le_self _ hlen

theorem size_le_nextOrdinal (style : PlaceholderStyle) (s : Sink) :
    s.size ≤ s.nextOrdinal style :=
  le_firstFree _ _ _

/-- The number that binding takes is free. -/
theorem nextOrdinal_spec (style : PlaceholderStyle) (s : Sink) :
    style.name (s.nextOrdinal style) ∉ s.names := by
  obtain ⟨m, hn, hm, hfree⟩ := exists_free style s s.size
  have hfound : (!s.contains (style.name (s.nextOrdinal style))) = true :=
    free_firstFree (fun n => !s.contains (style.name n)) hn hm
      (by simpa using contains_eq_false_iff.2 hfree)
  exact contains_eq_false_iff.1 (by simpa using hfound)

/-- No smaller number from the size of the sink on is free. -/
theorem not_free_of_lt_nextOrdinal {style : PlaceholderStyle} {s : Sink} {n : Nat}
    (hn : s.size ≤ n) (hlt : n < s.nextOrdinal style) : style.name n ∈ s.names := by
  have htaken := not_free_of_lt_firstFree hn hlt
  by_contra hfree
  simp [contains_eq_false_iff.2 hfree] at htaken

theorem nextOrdinal_eq_of_free {style : PlaceholderStyle} {s : Sink} {n : Nat}
    (hn : s.size ≤ n) (hfree : style.name n ∉ s.names)
    (hleast : ∀ m, s.size ≤ m → m < n → style.name m ∈ s.names) :
    s.nextOrdinal style = n := by
  rcases Nat.lt_trichotomy (s.nextOrdinal style) n with hlt | heq | hgt
  · exact absurd (hleast _ (size_le_nextOrdinal style s) hlt) (nextOrdinal_spec style s)
  · exact heq
  · exact absurd (not_free_of_lt_nextOrdinal hn hgt) hfree

/-- The number depends on the names that are taken alone. -/
theorem nextOrdinal_congr {s t : Sink} (h : s.names = t.names) (style : PlaceholderStyle) :
    s.nextOrdinal style = t.nextOrdinal style := by
  have hsize : s.size = t.size := by
    simpa [names, size] using congrArg List.length h
  rw [nextOrdinal, nextOrdinal, hsize]
  simp only [contains, h]

/-! ### Binding -/

/-- The name under which the next value is bound. -/
def nextName (style : PlaceholderStyle) (s : Sink) : String := style.name (s.nextOrdinal style)

theorem bind_eq (style : PlaceholderStyle) (v : Value) (s : Sink) :
    s.bind style v = (style.render (s.nextName style), s.append (s.nextName style) v) :=
  rfl

theorem nextName_notMem (style : PlaceholderStyle) (s : Sink) : s.nextName style ∉ s.names :=
  nextOrdinal_spec style s

@[simp] theorem entries_append (name : String) (v : Value) (s : Sink) :
    (s.append name v).entries = s.entries ++ [(name, v)] :=
  rfl

@[simp] theorem names_append (name : String) (v : Value) (s : Sink) :
    (s.append name v).names = s.names ++ [name] := by
  simp [names]

@[simp] theorem size_append (name : String) (v : Value) (s : Sink) :
    (s.append name v).size = s.size + 1 := by
  simp [size]

/-! ### Runs of bindings -/

/-- Bind values one after the other. -/
def bindAll (style : PlaceholderStyle) (vs : List Value) (s : Sink) : Sink :=
  vs.foldl (fun s v => (s.bind style v).2) s

theorem bindAll_append (style : PlaceholderStyle) (vs ws : List Value) (s : Sink) :
    s.bindAll style (vs ++ ws) = (s.bindAll style vs).bindAll style ws :=
  List.foldl_append

/-- What binding one value keeps is kept by a run. -/
theorem bindAll_induction {P : Sink → Prop} (style : PlaceholderStyle)
    (step : ∀ s v, P s → P (s.bind style v).2) (vs : List Value) {s : Sink} (hs : P s) :
    P (s.bindAll style vs) := by
  induction vs generalizing s with
  | nil => exact hs
  | cons v vs ih => exact ih (step s v hs)

/-- Nothing that is in the sink is lost or moved. -/
theorem prefix_bindAll (style : PlaceholderStyle) (vs : List Value) (s : Sink) :
    s.entries <+: (s.bindAll style vs).entries := by
  refine bindAll_induction (P := fun t => s.entries <+: t.entries) style ?_ vs
    (List.prefix_refl _)
  intro t v ht
  rw [bind_eq, entries_append]
  exact ht.trans (List.prefix_append _ _)

theorem size_bindAll (style : PlaceholderStyle) (vs : List Value) (s : Sink) :
    (s.bindAll style vs).size = s.size + vs.length := by
  induction vs generalizing s with
  | nil => rfl
  | cons v vs ih =>
    show ((s.bind style v).2.bindAll style vs).size = s.size + (v :: vs).length
    rw [ih, bind_eq, size_append, List.length_cons]
    omega

end Sink

end WhereClause
