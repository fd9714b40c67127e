/-
WhereClause/Proofs/Render/Runs.lean

Runs that succeed, and what is known when they do.  A run of several steps is
made of the runs of each, so a property of what is written can be shown from
left to right.

Main results: inversion of each way to make a step (`bind_eq_ok`,
`within_eq_ok`, `mapM_eq_ok`), where a list of steps fails
(`exists_of_fst_mapM_eq_error`), and steps that follow others in lockstep
(`Mirrors.bind`, `Mirrors.mapM`).
-/
import Mathlib.Data.List.Forall2
import WhereClause.Render.Basic

namespace WhereClause.Render

variable {α β γ δ : Type}

/-! ### Inversion -/

/-- **Two steps succeed** exactly if the first does, and the second does with what the first one
left. -/
theorem bind_eq_ok {x : Render α} {f : α → Render β} {sink sink' : Sink} {b : β} :
    (x >>= f) sink = (.ok b, sink') ↔
      ∃ a s, x sink = (.ok a, s) ∧ f a s = (.ok b, sink') := by
  rw [bind_apply]
  rcases x sink with ⟨e | a, s⟩
  · constructor
    · intro h
      exact absurd h (by simp)
    · rintro ⟨a, t, h, -⟩
      exact absurd h (by simp)
  · constructor
    · intro h
      exact ⟨a, s, rfl, h⟩
    · rintro ⟨a', t, h, hf⟩
      cases h
      exact hf

/-- To answer is to leave the sink alone. -/
theorem pure_eq_ok {a b : α} {sink sink' : Sink} :
    (pure a : Render α) sink = (.ok b, sink') ↔ a = b ∧ sink = sink' := by
  rw [pure_apply, Prod.mk.injEq, Except.ok.injEq]

/-- A place makes no difference where nothing fails. -/
theorem within_eq_ok {place : Place} {x : Render α} {sink sink' : Sink} {a : α} :
    within place x sink = (.ok a, sink') ↔ x sink = (.ok a, sink') := by
  rw [within]
  rcases x sink with ⟨e | a, s⟩
  · constructor <;> exact fun h => absurd h (by simp)
  · rfl

/-- What follows a failure is not run. -/
theorem fst_bind_of_error {x : Render α} {f : α → Render β} {sink : Sink} {e : Error}
    (h : (x sink).1 = .error e) : ((x >>= f) sink).1 = .error e := by
  rw [bind_apply]
  rcases hx : x sink with ⟨e' | a, s⟩
  · rw [hx] at h
    obtain rfl : e' = e := Except.error.inj h
    rfl
  · rw [hx] at h
    exact absurd h (by simp)

/-- An error gets the place before it. -/
theorem fst_within_of_error {place : Place} {x : Render α} {sink : Sink} {e : Error}
    (h : (x sink).1 = .error e) : (within place x sink).1 = .error (.within place e) := by
  rw [within]
  rcases hx : x sink with ⟨e' | a, s⟩
  · rw [hx] at h
    obtain rfl : e' = e := Except.error.inj h
    rfl
  · rw [hx] at h
    exact absurd h (by simp)

/-- Either the first step fails, or what follows it does. -/
theorem fst_bind_eq_error {x : Render α} {f : α → Render β} {sink : Sink} {e : Error}
    (h : ((x >>= f) sink).1 = .error e) :
    (x sink).1 = .error e ∨ ∃ a s, x sink = (.ok a, s) ∧ (f a s).1 = .error e := by
  rw [bind_apply] at h
  rcases hx : x sink with ⟨e' | a, s⟩
  · rw [hx] at h
    obtain rfl : e' = e := Except.error.inj h
    exact .inl rfl
  · rw [hx] at h
    exact .inr ⟨a, s, rfl, h⟩

/-- An error with a place before it came from inside. -/
theorem fst_within_eq_error {place : Place} {x : Render α} {sink : Sink} {e : Error}
    (h : (within place x sink).1 = .error e) :
    ∃ e', (x sink).1 = .error e' ∧ e = .within place e' := by
  rw [within] at h
  rcases hx : x sink with ⟨e' | a, s⟩
  · rw [hx] at h
    exact ⟨e', rfl, (Except.error.inj h).symm⟩
  · rw [hx] at h
    exact absurd h (by simp)

/-- A list of steps fails in the first of them that does. -/
theorem exists_of_fst_mapM_eq_error {f : α → Render β} {as : List α} {sink : Sink} {e : Error}
    (h : (as.mapM f sink).1 = .error e) :
    ∃ before a after, as = before ++ a :: after ∧
      (∀ a' ∈ before, ∃ s b t, f a' s = (.ok b, t)) ∧ ∃ s, (f a s).1 = .error e := by
  induction as generalizing sink with
  | nil => exact absurd h (by simp)
  | cons a as ih =>
    rw [List.mapM_cons] at h
    rcases fst_bind_eq_error h with h | ⟨b, s, hb, h⟩
    · exact ⟨[], a, as, rfl, by simp, sink, h⟩
    rcases fst_bind_eq_error h with h | ⟨bs, t, -, h⟩
    · obtain ⟨before, a', after, rfl, hbefore, ha'⟩ := ih h
      exact ⟨a :: before, a', after, rfl,
        List.forall_mem_cons.2 ⟨⟨sink, b, s, hb⟩, hbefore⟩, ha'⟩
    · exact absurd h (by simp)

/-- Items and their results one after the other, each from the sink that the one before
it has left. -/
inductive InTurn (R : α → Sink → β → Sink → Prop) : List α → Sink → List β → Sink → Prop
  | nil (s : Sink) : InTurn R [] s [] s
  | cons {a : α} {b : β} {as : List α} {bs : List β} {s t u : Sink} (h : R a s b t)
      (hs : InTurn R as t bs u) : InTurn R (a :: as) s (b :: bs) u

/-- There is a result for each item. -/
theorem InTurn.length_eq {R : α → Sink → β → Sink → Prop} {as : List α} {bs : List β}
    {s t : Sink} (h : InTurn R as s bs t) : bs.length = as.length := by
  induction h with
  | nil => rfl
  | cons _ _ ih => rw [List.length_cons, List.length_cons, ih]

/-- What holds of each result holds of all. -/
theorem InTurn.forall_mem {R : α → Sink → β → Sink → Prop} {P : β → Prop}
    (hP : ∀ a s b t, R a s b t → P b) {as : List α} {bs : List β} {s t : Sink}
    (h : InTurn R as s bs t) : ∀ b ∈ bs, P b := by
  induction h with
  | nil => exact List.forall_mem_nil P
  | cons h _ ih => exact List.forall_mem_cons.2 ⟨hP _ _ _ _ h, ih⟩

/-- The results are made of others. -/
theorem InTurn.exists_map {R : α → Sink → β → Sink → Prop} {f : β → γ} {as : List α}
    {cs : List γ} {s t : Sink} (h : InTurn (fun a s c t => ∃ b, R a s b t ∧ c = f b) as s cs t) :
    ∃ bs, InTurn R as s bs t ∧ cs = bs.map f := by
  induction h with
  | nil => exact ⟨[], .nil _, rfl⟩
  | cons h _ ih =>
    obtain ⟨b, hb, rfl⟩ := h
    obtain ⟨bs, hbs, rfl⟩ := ih
    exact ⟨b :: bs, .cons hb hbs, rfl⟩

/-- A list of steps succeeds as its steps do, one after the other. -/
theorem mapM_eq_ok {R : γ → Sink → β → Sink → Prop} {p : γ → α} {f : α → Render β} {as : List γ}
    (h : ∀ a ∈ as, ∀ s b t, f (p a) s = (.ok b, t) ↔ R a s b t) {bs : List β} {s t : Sink} :
    (as.map p).mapM f s = (.ok bs, t) ↔ InTurn R as s bs t := by
  induction as generalizing bs s with
  | nil =>
    constructor
    · intro hrun
      obtain ⟨rfl, rfl⟩ := pure_eq_ok.1 hrun
      exact .nil s
    · rintro ⟨⟩
      rfl
  | cons a as ih =>
    obtain ⟨ha, has⟩ := List.forall_mem_cons.1 h
    rw [List.map_cons, List.mapM_cons]
    constructor
    · intro hrun
      obtain ⟨b, s', hb, hrun⟩ := bind_eq_ok.1 hrun
      obtain ⟨bs', t', hbs, hrun⟩ := bind_eq_ok.1 hrun
      obtain ⟨rfl, rfl⟩ := pure_eq_ok.1 hrun
      exact .cons ((ha s b s').1 hb) ((ih has).1 hbs)
    · rintro (_ | ⟨hb, hbs⟩)
      exact bind_eq_ok.2 ⟨_, _, (ha _ _ _).2 hb,
        bind_eq_ok.2 ⟨_, _, (ih has).2 hbs, rfl⟩⟩

/-- Each result of a list of steps is that of one of them, run on some sink. -/
theorem forall₂_of_mapM {f : α → Render β} {as : List α} {bs : List β} {sink sink' : Sink}
    (h : as.mapM f sink = (.ok bs, sink')) :
    List.Forall₂ (fun a b => ∃ s t, f a s = (.ok b, t)) as bs := by
  induction as generalizing bs sink with
  | nil =>
    obtain ⟨rfl, -⟩ := pure_eq_ok.1 h
    exact .nil
  | cons a as ih =>
    rw [List.mapM_cons] at h
    obtain ⟨b, s, hb, h⟩ := bind_eq_ok.1 h
    obtain ⟨bs', t, hbs, h⟩ := bind_eq_ok.1 h
    obtain ⟨rfl, rfl⟩ := pure_eq_ok.1 h
    exact .cons ⟨sink, s, hb⟩ (ih hbs)

/-- Steps that are the same, one by one. -/
theorem mapM_congr_forall₂ {f : α → Render γ} {g : β → Render γ} {as : List α} {bs : List β}
    (h : List.Forall₂ (fun a b => f a = g b) as bs) : as.mapM f = bs.mapM g := by
  induction h with
  | nil => rfl
  | cons hab _ ih => rw [List.mapM_cons, List.mapM_cons, hab, ih]

/-- What is on the left faces something. -/
theorem exists_of_mem_left {R : α → β → Prop} {as : List α} {bs : List β}
    (h : List.Forall₂ R as bs) {a : α} (ha : a ∈ as) : ∃ b ∈ bs, R a b := by
  induction h with
  | nil => exact absurd ha List.not_mem_nil
  | @cons a' b as bs hab _ ih =>
    rcases List.mem_cons.1 ha with rfl | ha
    · exact ⟨b, List.mem_cons_self, hab⟩
    · obtain ⟨b', hb', hab'⟩ := ih ha
      exact ⟨b', List.mem_cons_of_mem _ hb', hab'⟩

/-- What is on the right faces something. -/
theorem exists_of_mem_right {R : α → β → Prop} {as : List α} {bs : List β}
    (h : List.Forall₂ R as bs) {b : β} (hb : b ∈ bs) : ∃ a ∈ as, R a b :=
  exists_of_mem_left h.flip hb

/-! ### What is written -/

/-- Whatever the step writes has a property. -/
def Yields (P : α → Prop) (x : Render α) : Prop :=
  ∀ sink a sink', x sink = (.ok a, sink') → P a

theorem Yields.pure {P : α → Prop} {a : α} (h : P a) : Yields P (Pure.pure a) := by
  intro sink a' sink' hrun
  obtain ⟨rfl, rfl⟩ := pure_eq_ok.1 hrun
  exact h

/-- The last step decides on the result. -/
theorem Yields.bind {P : β → Prop} {x : Render α} {f : α → Render β} (h : ∀ a, Yields P (f a)) :
    Yields P (x >>= f) := by
  intro sink b sink' hrun
  obtain ⟨a, s, -, hf⟩ := bind_eq_ok.1 hrun
  exact h a s b sink' hf

/-! ### Steps in lockstep -/

/-- Whenever the first step succeeds so does the second, in the same way on the
sink, and the results are related. -/
def Mirrors (M : α → β → Prop) (x : Render α) (y : Render β) : Prop :=
  ∀ sink a sink', x sink = (.ok a, sink') → ∃ b, y sink = (.ok b, sink') ∧ M a b

/-- A step mirrors itself. -/
theorem Mirrors.refl (x : Render α) : Mirrors Eq x x := fun _ a _ h => ⟨a, h, rfl⟩

/-- What is known of a result may be kept beside what it mirrors. -/
theorem Mirrors.and_yields {M : α → β → Prop} {P : α → Prop} {x : Render α} {y : Render β}
    (hxy : Mirrors M x y) (hx : Yields P x) : Mirrors (fun a b => P a ∧ M a b) x y := by
  intro sink a sink' hrun
  obtain ⟨b, hy, hab⟩ := hxy sink a sink' hrun
  exact ⟨b, hy, hx sink a sink' hrun, hab⟩

theorem Mirrors.pure {M : α → β → Prop} {a : α} {b : β} (h : M a b) :
    Mirrors M (Pure.pure a) (Pure.pure b) := by
  intro sink a' sink' hrun
  obtain ⟨rfl, rfl⟩ := pure_eq_ok.1 hrun
  exact ⟨b, rfl, h⟩

/-- A step that fails mirrors anything, since nothing is asked of it. -/
theorem Mirrors.fail {M : α → β → Prop} (e : Error) (y : Render β) : Mirrors M (fail e) y := by
  intro sink a sink' hrun
  exact absurd hrun (by simp [Render.fail])

/-- The second steps start on one sink, after steps that mirror each other. -/
theorem Mirrors.bind {M : α → β → Prop} {N : γ → δ → Prop} {x : Render α} {y : Render β}
    {f : α → Render γ} {g : β → Render δ} (hxy : Mirrors M x y)
    (hfg : ∀ a b, M a b → Mirrors N (f a) (g b)) : Mirrors N (x >>= f) (y >>= g) := by
  intro sink c sink' hrun
  obtain ⟨a, s, hx, hf⟩ := bind_eq_ok.1 hrun
  obtain ⟨b, hy, hab⟩ := hxy sink a s hx
  obtain ⟨d, hg, hcd⟩ := hfg a b hab s c sink' hf
  exact ⟨d, bind_eq_ok.2 ⟨b, s, hy, hg⟩, hcd⟩

theorem Mirrors.within {M : α → β → Prop} {x : Render α} {y : Render β} (place : Place)
    (hxy : Mirrors M x y) : Mirrors M (within place x) (within place y) := by
  intro sink a sink' hrun
  obtain ⟨b, hy, hab⟩ := hxy sink a sink' (within_eq_ok.1 hrun)
  exact ⟨b, within_eq_ok.2 hy, hab⟩

/-- Lists are gone through together, pair by pair. -/
theorem Mirrors.mapM {M : γ → δ → Prop} {P : α → β → Prop} {f : α → Render γ}
    {g : β → Render δ} {as : List α} {bs : List β} (h : List.Forall₂ P as bs)
    (hfg : ∀ a b, P a b → Mirrors M (f a) (g b)) :
    Mirrors (List.Forall₂ M) (as.mapM f) (bs.mapM g) := by
  induction h with
  | nil => exact .pure .nil
  | cons hab _ ih =>
    rw [List.mapM_cons, List.mapM_cons]
    refine (hfg _ _ hab).bind fun c d hcd => ?_
    exact ih.bind fun cs ds hcds => .pure (.cons hcd hcds)

/-- The same step, followed by different uses of its result. -/
theorem Mirrors.bind_same {M : γ → δ → Prop} (x : Render α) {f : α → Render γ}
    {g : α → Render δ} (hfg : ∀ a, Mirrors M (f a) (g a)) : Mirrors M (x >>= f) (x >>= g) :=
  (Mirrors.refl x).bind fun a _ hab => hab ▸ hfg a

end WhereClause.Render
