/-
WhereClause/Attempt.lean

Steps that may fail, one after the other: what is known when all of them went
well, for two steps (`bind_eq_ok`) and for a list of them
(`exists_of_mem_mapM`, `map_eq_of_mapM`, `exists_mapM_eq_ok`, and `mapM_eq_ok` where a
step can be inverted), and for a list of checks (`forM_eq_ok`).
-/

namespace WhereClause.Attempt

variable {ε α β : Type}

/-- Two steps go well if the first does, and the second with its result. -/
theorem bind_eq_ok {x : Except ε α} {f : α → Except ε β} {b : β} :
    x >>= f = .ok b ↔ ∃ a, x = .ok a ∧ f a = .ok b := by
  cases x <;> simp [bind, Except.bind]

/-- Each result of a list of steps comes from one of its items. -/
theorem exists_of_mem_mapM {f : α → Except ε β} {as : List α} {bs : List β}
    (h : as.mapM f = .ok bs) : ∀ b ∈ bs, ∃ a ∈ as, f a = .ok b := by
  induction as generalizing bs with
  | nil =>
    cases h
    simp
  | cons a as ih =>
    simp only [List.mapM_cons] at h
    obtain ⟨b, hb, h⟩ := bind_eq_ok.1 h
    obtain ⟨cs, hcs, h⟩ := bind_eq_ok.1 h
    cases h
    intro c hc
    rcases List.mem_cons.1 hc with rfl | hc
    · exact ⟨a, by simp, hb⟩
    · obtain ⟨d, hd, hdc⟩ := ih hcs c hc
      exact ⟨d, by simp [hd], hdc⟩

/-- What each step keeps of an item, a list of steps keeps of all of them. -/
theorem map_eq_of_mapM {γ : Type} {f : α → Except ε β} {g : α → γ} {h : β → γ}
    (hstep : ∀ a b, f a = .ok b → h b = g a) {as : List α} {bs : List β}
    (hrun : as.mapM f = .ok bs) : bs.map h = as.map g := by
  induction as generalizing bs with
  | nil =>
    cases hrun
    rfl
  | cons a as ih =>
    simp only [List.mapM_cons] at hrun
    obtain ⟨b, hb, hrun⟩ := bind_eq_ok.1 hrun
    obtain ⟨cs, hcs, hrun⟩ := bind_eq_ok.1 hrun
    cases hrun
    rw [List.map_cons, List.map_cons, hstep a b hb, ih hcs]

/-- If each step is known from its result, with a condition on the result, then so
is a list of steps. -/
theorem mapM_eq_ok {f : α → Except ε β} {g : β → α} {p : β → Prop}
    (h : ∀ a b, f a = .ok b ↔ a = g b ∧ p b) {as : List α} {bs : List β} :
    as.mapM f = .ok bs ↔ as = bs.map g ∧ ∀ b ∈ bs, p b := by
  -- The induction is on the steps, for all results.
  induction as generalizing bs with
  | nil => cases bs <;> simp [pure, Except.pure]
  | cons a as ih =>
    simp only [List.mapM_cons, bind_eq_ok, h, ih]
    constructor
    · rintro ⟨b, ⟨rfl, hb⟩, bs, ⟨rfl, hbs⟩, heq⟩
      cases heq
      exact ⟨rfl, List.forall_mem_cons.2 ⟨hb, hbs⟩⟩
    · rintro ⟨has, hbs⟩
      cases bs with
      | nil => simp at has
      | cons b bs =>
        cases has
        obtain ⟨hb, hbs⟩ := List.forall_mem_cons.1 hbs
        exact ⟨b, ⟨rfl, hb⟩, bs, ⟨rfl, hbs⟩, rfl⟩

/-- A list of steps succeeds if each of them does. -/
theorem exists_mapM_eq_ok {f : α → Except ε β} {as : List α} :
    (∃ bs, as.mapM f = .ok bs) ↔ ∀ a ∈ as, ∃ b, f a = .ok b := by
  induction as with
  | nil => simp [pure, Except.pure]
  | cons a as ih =>
    rw [List.forall_mem_cons, ← ih]
    simp only [List.mapM_cons, bind_eq_ok]
    constructor
    · rintro ⟨-, b, hb, bs, hbs, -⟩
      exact ⟨⟨b, hb⟩, bs, hbs⟩
    · rintro ⟨⟨b, hb⟩, bs, hbs⟩
      exact ⟨b :: bs, b, hb, bs, hbs, rfl⟩

/-- A list of checks passes if each of them does. -/
theorem forM_eq_ok {check : α → Except ε Unit} {as : List α} :
    as.forM check = .ok () ↔ ∀ a ∈ as, check a = .ok () := by
  induction as with
  | nil => simp [pure, Except.pure]
  | cons a as ih =>
    rw [List.forall_mem_cons, ← ih]
    show (check a >>= fun _ => as.forM check) = .ok () ↔ _
    cases check a with
    | error e => simp [bind, Except.bind]
    | ok u => simp [bind, Except.bind]

end WhereClause.Attempt
