/-
WhereClause/Proofs/Sink/Candidates.lean

The loop behind binding, with no bound on it: the name of a number is tried, and as long
as it is taken, so is that of the next number.  `Tries` is a run of this loop that has
come to its end, with the count of the names that it tried.

A run goes up one number at a time, so it is determined by where it begins and where the
first free number is (`tries_iff`).  The search that binding makes is bounded by the
number of entries; since one of so many names is free, the bound is never what ends it.

Main result: on every sink the loop comes to an end, after one name more than there are
entries at the latest, and binding takes the least number that is free (`bind_tries`).
-/
import Mathlib.Order.Bounds.Basic
import WhereClause.Proofs.Sink.Fresh

namespace WhereClause.Sink

variable {style : PlaceholderStyle} {s : Sink} {n k m : Nat}

/-- The numbers from `n` on whose names are free. -/
def freeFrom (style : PlaceholderStyle) (s : Sink) (n : Nat) : Set Nat :=
  {m | n ≤ m ∧ style.name m ∉ s.names}

/-- From number `n` on the loop tries `k` names and ends with number `m`. -/
inductive Tries (style : PlaceholderStyle) (s : Sink) : Nat → Nat → Nat → Prop
  | free {n : Nat} (hfree : style.name n ∉ s.names) : Tries style s n 1 n
  | taken {n k m : Nat} (htaken : style.name n ∈ s.names) (hrest : Tries style s (n + 1) k m) :
      Tries style s n (k + 1) m

/-! ### Runs of the loop -/

/-- A number whose name is taken is no loss to the free ones. -/
theorem isLeast_freeFrom_succ (htaken : style.name n ∈ s.names) :
    IsLeast (s.freeFrom style n) m ↔ IsLeast (s.freeFrom style (n + 1)) m := by
  have hsame : s.freeFrom style n = s.freeFrom style (n + 1) := by
    ext i
    constructor
    · rintro ⟨hn, hfree⟩
      refine ⟨Nat.lt_of_le_of_ne hn ?_, hfree⟩
      rintro rfl
      exact hfree htaken
    · rintro ⟨hn, hfree⟩
      exact ⟨Nat.le_of_succ_le hn, hfree⟩
  rw [hsame]

/-- Where a run ends, and how many names it has tried by then. -/
theorem Tries.isLeast (h : Tries style s n k m) :
    IsLeast (s.freeFrom style n) m ∧ n + k = m + 1 := by
  induction h with
  | free hfree => exact ⟨⟨⟨Nat.le_refl _, hfree⟩, fun i hi => hi.1⟩, rfl⟩
  | taken htaken _ ih =>
    obtain ⟨hleast, hcount⟩ := ih
    exact ⟨(isLeast_freeFrom_succ htaken).2 hleast, by omega⟩

/-- If a number is free the loop reaches the first one. -/
theorem tries_of_isLeast (h : IsLeast (s.freeFrom style n) m) :
    Tries style s n (m + 1 - n) m := by
  -- By induction on how far the free number is.
  obtain ⟨d, rfl⟩ := Nat.exists_eq_add_of_le h.1.1
  induction d generalizing n with
  | zero =>
    rw [Nat.add_zero, Nat.add_sub_cancel_left]
    exact .free h.1.2
  | succ d ih =>
    have htaken : style.name n ∈ s.names := by
      by_contra hfree
      have hle : n + (d + 1) ≤ n := h.2 ⟨Nat.le_refl n, hfree⟩
      omega
    have hnext : n + (d + 1) = n + 1 + d := by omega
    rw [hnext] at h ⊢
    have hrest := ih ((isLeast_freeFrom_succ htaken).1 h)
    have hcount : n + 1 + d + 1 - n = n + 1 + d + 1 - (n + 1) + 1 := by omega
    rw [hcount]
    exact .taken htaken hrest

/-- **Runs of the loop**: the first free number, and all names up to it. -/
theorem tries_iff : Tries style s n k m ↔ IsLeast (s.freeFrom style n) m ∧ n + k = m + 1 := by
  constructor
  · exact Tries.isLeast
  · rintro ⟨hleast, hcount⟩
    obtain rfl : k = m + 1 - n := by omega
    exact tries_of_isLeast hleast

/-! ### The number that binding takes -/

theorem isLeast_nextOrdinal (style : PlaceholderStyle) (s : Sink) :
    IsLeast (s.freeFrom style s.size) (s.nextOrdinal style) := by
  refine ⟨⟨size_le_nextOrdinal style s, nextOrdinal_spec style s⟩, fun m hm => ?_⟩
  by_contra hlt
  exact hm.2 (not_free_of_lt_nextOrdinal hm.1 (Nat.not_le.1 hlt))

/-- At most as many numbers are passed over as there are entries. -/
theorem nextOrdinal_le (style : PlaceholderStyle) (s : Sink) :
    s.nextOrdinal style ≤ s.size + s.size := by
  obtain ⟨m, hn, hm, hfree⟩ := exists_free style s s.size
  exact Nat.le_trans ((isLeast_nextOrdinal style s).2 ⟨hn, hfree⟩) hm

/-- Under a new name, writing to the entries is appending to them. -/
theorem put_nextName (style : PlaceholderStyle) (v : Value) (s : Sink) :
    Keyed.put (s.nextName style) v s.entries = s.entries ++ [(s.nextName style, v)] := by
  rcases Keyed.put_cases (s.nextName style) v s.entries with ⟨-, -, hput⟩ | ⟨i, w, -, hi, -⟩
  · exact hput
  · have hmem : s.nextName style ∈ s.names := List.mem_map_of_mem (List.mem_of_getElem? hi)
    exact absurd hmem (s.nextName_notMem style)

/-- **Binding ends with the least free number**: from the size of the sink on there is one
run of the loop, which tries one name more than there are entries at the most; binding
writes the value under the name that it ends with, as one new entry, and answers that
name behind the sigil of the style. -/
theorem bind_tries (style : PlaceholderStyle) (v : Value) (s : Sink) :
    ∃ m k, (∀ k' m', Tries style s s.size k' m' ↔ k' = k ∧ m' = m) ∧ k ≤ s.size + 1 ∧
      IsLeast {i | s.size ≤ i ∧ style.name i ∉ s.names} m ∧
      (s.bind style v).1 = style.render (style.name m) ∧
      (s.bind style v).2.entries = Keyed.put (style.name m) v s.entries ∧
      (s.bind style v).2.entries = s.entries ++ [(style.name m, v)] := by
  have hleast := isLeast_nextOrdinal style s
  have hsize := size_le_nextOrdinal style s
  have hbound := nextOrdinal_le style s
  refine ⟨s.nextOrdinal style, s.nextOrdinal style + 1 - s.size, fun k' m' => ?_, by omega,
    hleast, rfl, (put_nextName style v s).symm, rfl⟩
  -- A run is known from where it ends and how often it tried.
  rw [tries_iff]
  constructor
  · rintro ⟨hleast', hcount⟩
    obtain rfl : m' = s.nextOrdinal style := hleast'.unique hleast
    exact ⟨by omega, rfl⟩
  · rintro ⟨rfl, rfl⟩
    exact ⟨hleast, by omega⟩

/-- Two names are tried on a sink of one entry. -/
example : (Sink.bind (.named "p") (.bool true) ⟨[("p1", .bool false)]⟩).1 = ":p2" := by
  decide +kernel

end WhereClause.Sink
