/-
WhereClause/Keyed.lean

Entries by key, kept in the order in which their keys first came.  Writing a
key that is present replaces its value where it stands; reading is
`List.lookup`.

Main results: a write adds at most its own key, at the end (`keys_put`), changes
what is read under no other key (`lookup_put`), and moves no other entry
(`getElem?_put`); it is an entry at the end or one in place of the entry that is
read (`put_cases`).  Where no key comes twice, what is read does not depend on the
order (`lookup_eq_of_perm`).
-/

namespace WhereClause.Keyed

variable {κ α : Type} [DecidableEq κ]

/-- Replace the value of `k` in place, or append it. -/
def put (k : κ) (a : α) : List (κ × α) → List (κ × α)
  | [] => [(k, a)]
  | e :: es => if e.1 = k then (k, a) :: es else e :: put k a es

/-- The entries that writing `ps` one after the other leaves. -/
def ofPairs (ps : List (κ × α)) : List (κ × α) :=
  ps.foldl (fun es p => put p.1 p.2 es) []

/-! ### The keys after a write -/

theorem keys_put (k : κ) (a : α) (es : List (κ × α)) :
    (put k a es).map (·.1) =
      if k ∈ es.map (·.1) then es.map (·.1) else es.map (·.1) ++ [k] := by
  induction es with
  | nil => simp [put]
  | cons e es ih =>
    rw [put]
    split
    · next h => simp [h]
    · next h =>
      have hk : k ≠ e.1 := fun he => h he.symm
      simp only [List.map_cons, ih, List.mem_cons, hk, false_or]
      split <;> simp

/-- A write is read back, and no other key notices it. -/
theorem lookup_put [BEq κ] [LawfulBEq κ] (j k : κ) (a : α) (es : List (κ × α)) :
    (put k a es).lookup j = if j = k then some a else es.lookup j := by
  induction es with
  | nil => grind [put]
  | cons e es ih => grind [put]

/-- Entries under other keys stay where they stand. -/
theorem getElem?_put {k : κ} {a : α} {es : List (κ × α)} {i : Nat} {e : κ × α}
    (h : es[i]? = some e) (hk : e.1 ≠ k) : (put k a es)[i]? = some e := by
  -- The induction is on the entries, for every place, since the place moves with them.
  induction es generalizing i with
  | nil => simp at h
  | cons e' es ih =>
    rw [put]
    cases i with
    | zero =>
      obtain rfl : e' = e := by simpa using h
      rw [if_neg hk]
      rfl
    | succ i =>
      have hi : es[i]? = some e := by simpa using h
      split
      · exact hi
      · exact ih hi

/-- A key that is new comes to the end; under one that is there, the value that is
read gives way where it stands. -/
theorem put_cases [BEq κ] [LawfulBEq κ] (k : κ) (a : α) (es : List (κ × α)) :
    (es.lookup k = none ∧ k ∉ es.map (·.1) ∧ put k a es = es ++ [(k, a)]) ∨
      ∃ i b, es.lookup k = some b ∧ es[i]? = some (k, b) ∧ put k a es = es.set i (k, a) := by
  induction es with
  | nil => exact .inl ⟨rfl, by simp, rfl⟩
  | cons e es ih =>
    -- Only the first entry under the key counts, for looking up and for writing alike.
    by_cases h : e.1 = k
    · subst h
      exact .inr ⟨0, e.2, List.lookup_cons_self, rfl, if_pos rfl⟩
    · have hk : k ≠ e.1 := fun he => h he.symm
      have hput : put k a (e :: es) = e :: put k a es := if_neg h
      have hlookup : (e :: es).lookup k = es.lookup k := by
        rw [List.lookup_cons, beq_false_of_ne hk]
      rw [hput, hlookup]
      rcases ih with ⟨hnone, hnew, hes⟩ | ⟨i, b, hsome, hi, hes⟩
      · refine .inl ⟨hnone, ?_, by rw [hes]; rfl⟩
        rw [List.map_cons, List.mem_cons, not_or]
        exact ⟨hk, hnew⟩
      · exact .inr ⟨i + 1, b, hsome, hi, by rw [hes]; rfl⟩

theorem mem_of_lookup {κ α : Type} [BEq κ] [LawfulBEq κ] {k : κ} {a : α} {es : List (κ × α)}
    (h : es.lookup k = some a) : (k, a) ∈ es := by
  obtain ⟨before, after, rfl, -⟩ := List.lookup_eq_some_iff.1 h
  exact List.mem_append_right _ List.mem_cons_self

/-- What is read is replaced with the values. -/
theorem lookup_map {κ α β : Type} [BEq κ] (f : α → β) (k : κ) (es : List (κ × α)) :
    (es.map fun e => (e.1, f e.2)).lookup k = (es.lookup k).map f := by
  induction es with
  | nil => rfl
  | cons e es ih =>
    rw [List.map_cons, List.lookup_cons, List.lookup_cons, ih]
    cases k == e.1 <;> rfl

/-! ### Distinct keys -/

theorem nodup_put {k : κ} {a : α} {es : List (κ × α)} (h : (es.map (·.1)).Nodup) :
    ((put k a es).map (·.1)).Nodup := by
  rw [keys_put]
  split
  · exact h
  · next hk =>
    rw [List.nodup_append]
    refine ⟨h, by simp, fun j hj l hl hjl => hk ?_⟩
    rw [← List.mem_singleton.1 hl, ← hjl]
    exact hj

omit [DecidableEq κ] in
/-- Where no key comes twice, each entry is the one that is read. -/
theorem lookup_eq_some_of_mem [BEq κ] [LawfulBEq κ] {es : List (κ × α)} {e : κ × α}
    (h : (es.map (·.1)).Nodup) (he : e ∈ es) : es.lookup e.1 = some e.2 := by
  induction es with
  | nil => simp at he
  | cons e' es ih =>
    rw [List.map_cons, List.nodup_cons] at h
    rcases List.mem_cons.1 he with rfl | he
    · exact List.lookup_cons_self
    · have hne : (e.1 == e'.1) = false :=
        beq_false_of_ne fun heq => h.1 (heq ▸ List.mem_map_of_mem he)
      rw [List.lookup_cons, hne]
      exact ih h.2 he

omit [DecidableEq κ] in
/-- Where no key comes twice, the order of the entries does not matter. -/
theorem lookup_eq_of_perm [BEq κ] [LawfulBEq κ] {es fs : List (κ × α)} (hperm : es.Perm fs)
    (h : (es.map (·.1)).Nodup) (k : κ) : es.lookup k = fs.lookup k := by
  have hf : (fs.map (·.1)).Nodup := (hperm.map _).nodup_iff.1 h
  refine Option.ext fun a => ⟨fun ha => ?_, fun ha => ?_⟩
  · exact lookup_eq_some_of_mem hf (hperm.mem_iff.1 (mem_of_lookup ha))
  · exact lookup_eq_some_of_mem h (hperm.mem_iff.2 (mem_of_lookup ha))

omit [DecidableEq κ] in
/-- Reading does not notice an entry under another key. -/
theorem lookup_append_cons_of_ne [BEq κ] [LawfulBEq κ] {before after : List (κ × α)} {e : κ × α}
    {k : κ} (hk : k ≠ e.1) : (before ++ e :: after).lookup k = (before ++ after).lookup k := by
  rw [List.lookup_append, List.lookup_append, List.lookup_cons, beq_false_of_ne hk]

end WhereClause.Keyed
