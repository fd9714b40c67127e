/-
WhereClause/Proofs/Render/Uniform.lean

Steps that do the same wherever they start.  A start is a style and a sink; after
some values were bound on it, a uniform step fails with one error whatever the
start, or binds the same further values from every start and has a result that
depends on the start through the placeholders of the values alone.

For texts this dependence is made explicit: they are fixed pieces with gaps for the
placeholders.  Since no placeholder is empty, a text that is made so is empty from
every start or from none, which is what rendering branches on.

Main results: rules for each way to make a step (`UniformAt.bind`, `Uniform.mapM`)
and for each way to make a text (`IsText.append`, `IsText.intercalate`).
-/
import WhereClause.Proofs.Render.Runs
import WhereClause.Proofs.Sink.Fresh

namespace WhereClause

/-! ### Texts with gaps -/

/-- A piece of a text with gaps for `k` placeholders. -/
inductive Piece (k : Nat) where
  | text (s : String)
  | gap (i : Fin k)

namespace Piece

variable {k l : Nat}

/-- A gap is filled with the placeholder of its number. -/
def fill (placeholders : Fin k → String) : Piece k → String
  | .text s => s
  | .gap i => placeholders i

/-- The text that pieces make once their gaps are filled. -/
def fillAll (placeholders : Fin k → String) (pieces : List (Piece k)) : String :=
  String.join (pieces.map (fill placeholders))

/-- More values leave the gaps as they are. -/
def widen (h : k ≤ l) : Piece k → Piece l
  | .text s => .text s
  | .gap i => .gap (i.castLE h)

/-- A gap is filled as before, among more placeholders. -/
theorem fill_widen (h : k ≤ l) (placeholders : Fin l → String) (p : Piece k) :
    (p.widen h).fill placeholders = p.fill fun i => placeholders (i.castLE h) := by
  cases p <;> rfl

/-- A gap is not empty, whatever fills it. -/
def isEmpty : Piece k → Bool
  | .text s => s.isEmpty
  | .gap _ => false

/-- Whether the text is empty is seen from the pieces, since no placeholder is empty. -/
theorem isEmpty_fillAll {placeholders : Fin k → String} (h : ∀ i, placeholders i ≠ "")
    (pieces : List (Piece k)) : (fillAll placeholders pieces).isEmpty = pieces.all isEmpty := by
  induction pieces with
  | nil => rfl
  | cons p ps ih =>
    have hp : (p.fill placeholders).isEmpty = p.isEmpty := by
      cases p with
      | text s => rfl
      | gap i => simpa [fill, isEmpty] using h i
    rw [fillAll] at ih ⊢
    rw [List.map_cons, String.join_cons, List.all_cons, ← ih, ← hp, Bool.eq_iff_iff]
    simp

end Piece

/-- The placeholder that the value with a number gets when values are bound one
after the other. -/
def Sink.placeholder (style : PlaceholderStyle) (vs : List Value) (s : Sink)
    (i : Fin vs.length) : String :=
  ((s.bindAll style (vs.take i)).bind style vs[i]).1

/-- A placeholder has its sigil, if nothing else. -/
theorem Sink.placeholder_ne_empty (style : PlaceholderStyle) (vs : List Value) (s : Sink)
    (i : Fin vs.length) : s.placeholder style vs i ≠ "" := by
  rw [placeholder, bind_eq]
  cases style <;> simp [PlaceholderStyle.render]

/-- Values that are bound later change no placeholder. -/
theorem Sink.placeholder_append (style : PlaceholderStyle) (vs ws : List Value) (s : Sink)
    (i : Fin vs.length) (h : vs.length ≤ (vs ++ ws).length) :
    s.placeholder style (vs ++ ws) (i.castLE h) = s.placeholder style vs i := by
  have hget : (vs ++ ws)[i.castLE h] = vs[i] := List.getElem_append_left i.2
  have htake : (vs ++ ws).take i = vs.take i :=
    List.take_append_of_le_length (Nat.le_of_lt i.2)
  rw [placeholder, placeholder, hget, Fin.val_castLE, htake]

/-! ### Starts -/

/-- Where a compilation starts, and how it writes placeholders. -/
structure Start where
  style : PlaceholderStyle
  sink : Sink

namespace Start

/-- The sink when values were bound. -/
def after (ρ : Start) (vs : List Value) : Sink := ρ.sink.bindAll ρ.style vs

/-- The placeholders of some values that were bound from here. -/
def placeholder (ρ : Start) (vs : List Value) : Fin vs.length → String :=
  ρ.sink.placeholder ρ.style vs

end Start

/-- The same dialect with placeholders of another style. -/
def Dialect.inStyle (d : Dialect) (style : PlaceholderStyle) : Dialect :=
  { d with options := { d.options with placeholder := style } }

/-! ### Results -/

/-- What is known of a result when some values were bound; more values take nothing
away. -/
structure Results (α : Type) where
  holds : List Value → (Start → α) → Prop
  mono : ∀ {vs vs' : List Value} {a : Start → α}, vs <+: vs' → holds vs a → holds vs' a

/-- From every start the text has the same pieces. -/
def IsText (vs : List Value) (a : Start → String) : Prop :=
  ∃ pieces : List (Piece vs.length), ∀ ρ, a ρ = Piece.fillAll (ρ.placeholder vs) pieces

namespace Results

variable {α : Type}

/-- A text that is made of the same pieces from every start; if more is bound, the pieces are
widened. -/
def text : Results String where
  holds := IsText
  mono := by
    rintro vs - a ⟨ws, rfl⟩ ⟨pieces, ha⟩
    have hlength : vs.length ≤ (vs ++ ws).length := by simp
    refine ⟨pieces.map (Piece.widen hlength), fun ρ => ?_⟩
    have hfill : ∀ p : Piece vs.length, p.fill (ρ.placeholder vs) =
        (p.widen hlength).fill (ρ.placeholder (vs ++ ws)) := fun p => by
      rw [Piece.fill_widen]
      congr 1
      funext i
      exact (Sink.placeholder_append _ _ _ _ i hlength).symm
    rw [ha, Piece.fillAll, Piece.fillAll, List.map_map]
    exact congrArg String.join (List.map_congr_left fun p _ => hfill p)

/-- There is a result from every start, or from none. -/
def option (P : Results α) : Results (Option α) where
  holds vs a := (∀ ρ, a ρ = none) ∨ ∃ b, P.holds vs b ∧ ∀ ρ, a ρ = some (b ρ)
  mono := by
    rintro vs vs' a h (ha | ⟨b, hb, ha⟩)
    · exact .inl ha
    · exact .inr ⟨b, P.mono h hb, ha⟩

/-- There are as many results from every start. -/
def each (P : Results α) : Results (List α) where
  holds vs a := ∃ bs : List (Start → α), (∀ b ∈ bs, P.holds vs b) ∧ ∀ ρ, a ρ = bs.map (· ρ)
  mono := by
    rintro vs vs' a h ⟨bs, hbs, ha⟩
    exact ⟨bs, fun b hb => P.mono h (hbs b hb), ha⟩

end Results

/-! ### Texts from texts -/

namespace IsText

variable {vs : List Value} {a b : Start → String}

/-- A text that has no gaps. -/
theorem const (s : String) : IsText vs fun _ => s :=
  ⟨[.text s], fun _ => by simp [Piece.fillAll, Piece.fill]⟩

/-- Pieces one after the other. -/
theorem append (ha : IsText vs a) (hb : IsText vs b) : IsText vs fun ρ => a ρ ++ b ρ := by
  obtain ⟨ps, ha⟩ := ha
  obtain ⟨qs, hb⟩ := hb
  refine ⟨ps ++ qs, fun ρ => ?_⟩
  simp only [ha, hb, Piece.fillAll, List.map_append, String.join_append]

/-- Parentheses are pieces without gaps. -/
theorem parenthesized (ha : IsText vs a) : IsText vs fun ρ => parenthesized (a ρ) :=
  ((const "(").append ha).append (const ")")

/-- A text is empty from every start or from none. -/
theorem isEmpty (ha : IsText vs a) :
    (∀ ρ, (a ρ).isEmpty = true) ∨ ∀ ρ, (a ρ).isEmpty = false := by
  obtain ⟨ps, ha⟩ := ha
  have hempty : ∀ ρ, (a ρ).isEmpty = ps.all Piece.isEmpty := fun ρ => by
    rw [ha, Piece.isEmpty_fillAll]
    exact Sink.placeholder_ne_empty _ _ _
  simp only [hempty]
  cases ps.all Piece.isEmpty with
  | true => exact .inl fun _ => rfl
  | false => exact .inr fun _ => rfl

/-- A branch on whether a text is empty is taken from every start, or from none. -/
theorem ifEmpty (s : String) (ha : IsText vs a) (hb : IsText vs b) :
    IsText vs fun ρ => if (a ρ).isEmpty then s else b ρ := by
  rcases ha.isEmpty with h | h
  · simpa only [h, if_true] using const s
  · simpa only [h, Bool.false_eq_true, if_false] using hb

/-- The induction is on the texts: as many are joined from every start. -/
theorem intercalate (sep : String) {as : Start → List String}
    (has : Results.text.each.holds vs as) : IsText vs fun ρ => sep.intercalate (as ρ) := by
  obtain ⟨bs, hbs, has⟩ := has
  simp only [has]
  clear has
  induction bs with
  | nil => exact const ""
  | cons b bs ih =>
    obtain ⟨hb, hbs⟩ := List.forall_mem_cons.1 hbs
    cases bs with
    | nil =>
      simp only [List.map_cons, List.map_nil, String.intercalate_singleton]
      exact hb
    | cons b' bs =>
      simp only [List.map_cons, String.intercalate_cons_cons] at ih ⊢
      exact (append hb (const sep)).append (ih hbs)

end IsText

namespace Results

variable {vs : List Value}

/-- What is made of each result is made of it from every start. -/
theorem each_map {α β : Type} {P : Results α} {Q : Results β} {as : Start → List α}
    {f : Start → α → β} (has : P.each.holds vs as)
    (h : ∀ a, P.holds vs a → Q.holds vs fun ρ => f ρ (a ρ)) :
    Q.each.holds vs fun ρ => (as ρ).map (f ρ) := by
  obtain ⟨bs, hbs, has⟩ := has
  refine ⟨bs.map fun b ρ => f ρ (b ρ), fun b' hb' => ?_, fun ρ => ?_⟩
  · obtain ⟨b, hb, rfl⟩ := List.mem_map.1 hb'
    exact h b (hbs b hb)
  · simp only [has, List.map_map]
    rfl

/-- The texts that are not empty are the same ones from every start. -/
theorem each_filter {as : Start → List String} (has : text.each.holds vs as) :
    text.each.holds vs fun ρ => (as ρ).filter (!·.isEmpty) := by
  obtain ⟨bs, hbs, has⟩ := has
  simp only [has]
  clear has
  induction bs with
  | nil => exact ⟨[], fun b hb => absurd hb List.not_mem_nil, fun _ => rfl⟩
  | cons b bs ih =>
    obtain ⟨hb, hbs⟩ := List.forall_mem_cons.1 hbs
    obtain ⟨cs, hcs, hfilter⟩ := ih hbs
    simp only [List.map_cons, List.filter_cons, hfilter]
    rcases IsText.isEmpty hb with h | h
    · exact ⟨cs, hcs, fun ρ => by simp [h]⟩
    · exact ⟨b :: cs, List.forall_mem_cons.2 ⟨hb, hcs⟩, fun ρ => by simp [h]⟩

/-- Which results there are is the same from every start. -/
theorem each_option {α : Type} {P : Results α} {as : Start → List (Option α)}
    (has : P.option.each.holds vs as) :
    (∃ hasNone, ∀ ρ, (as ρ).any Option.isNone = hasNone) ∧
      P.each.holds vs fun ρ => (as ρ).filterMap id := by
  obtain ⟨bs, hbs, has⟩ := has
  simp only [has]
  clear has
  induction bs with
  | nil =>
    refine ⟨⟨false, fun _ => rfl⟩, [], ?_, fun _ => rfl⟩
    exact fun b hb => absurd hb List.not_mem_nil
  | cons b bs ih =>
    obtain ⟨hb, hbs⟩ := List.forall_mem_cons.1 hbs
    obtain ⟨⟨hasNone, hany⟩, cs, hcs, hfilter⟩ := ih hbs
    simp only [List.map_cons, List.any_cons, hany, List.filterMap_cons, hfilter]
    rcases hb with h | ⟨c, hc, h⟩
    · simp only [h]
      exact ⟨⟨true, fun _ => rfl⟩, cs, hcs, fun _ => rfl⟩
    · simp only [h]
      exact ⟨⟨hasNone, fun _ => Bool.false_or _⟩, c :: cs, List.forall_mem_cons.2 ⟨hc, hcs⟩,
        fun _ => rfl⟩

end Results

/-! ### Uniform steps -/

namespace Render

variable {α β γ : Type} {P : Results α} {Q : Results β} {vs : List Value}

/-- From every start on which these values were bound the step fails in the same way, or
binds the same values. -/
def UniformAt (P : Results α) (vs : List Value) (x : Start → Render α) : Prop :=
  (∃ e, ∀ ρ, (x ρ (ρ.after vs)).1 = .error e) ∨
    ∃ vs' a, vs <+: vs' ∧ P.holds vs' a ∧ ∀ ρ, x ρ (ρ.after vs) = (.ok (a ρ), ρ.after vs')

/-- Uniform after any values that may have been bound before. -/
def Uniform (P : Results α) (x : Start → Render α) : Prop := ∀ vs, UniformAt P vs x

/-- A result that depends on the placeholders alone. -/
theorem UniformAt.pure {a : Start → α} (h : P.holds vs a) :
    UniformAt P vs fun ρ => Pure.pure (a ρ) :=
  .inr ⟨vs, a, List.prefix_refl vs, h, fun _ => rfl⟩

theorem Uniform.const (s : String) : Uniform .text fun _ => Pure.pure s :=
  fun _ => .pure (IsText.const s)

theorem Uniform.fail (e : Error) : Uniform P fun _ => Render.fail e :=
  fun _ => .inl ⟨e, fun _ => rfl⟩

/-- The second step starts after the values of the first, and may bind more. -/
theorem UniformAt.bind {x : Start → Render α} {f : Start → α → Render β} (hx : UniformAt P vs x)
    (hf : ∀ vs' a, vs <+: vs' → P.holds vs' a → UniformAt Q vs' fun ρ => f ρ (a ρ)) :
    UniformAt Q vs fun ρ => x ρ >>= f ρ := by
  rcases hx with ⟨e, he⟩ | ⟨vs', a, hvs, ha, hx⟩
  · exact .inl ⟨e, fun ρ => fst_bind_of_error (he ρ)⟩
  · have hbind : ∀ ρ, (x ρ >>= f ρ) (ρ.after vs) = f ρ (a ρ) (ρ.after vs') := fun ρ => by
      rw [bind_apply, hx]
    rcases hf vs' a hvs ha with ⟨e, he⟩ | ⟨vs'', b, hvs', hb, hf⟩
    · exact .inl ⟨e, fun ρ => (congrArg Prod.fst (hbind ρ)).trans (he ρ)⟩
    · exact .inr ⟨vs'', b, hvs.trans hvs', hb, fun ρ => (hbind ρ).trans (hf ρ)⟩

theorem Uniform.bind {x : Start → Render α} {f : Start → α → Render β} (hx : Uniform P x)
    (hf : ∀ vs a, P.holds vs a → UniformAt Q vs fun ρ => f ρ (a ρ)) :
    Uniform Q fun ρ => x ρ >>= f ρ :=
  fun vs => (hx vs).bind fun vs' a _ ha => hf vs' a ha

/-- What is made of a uniform result is uniform. -/
theorem Uniform.map {x : Start → Render α} {f : Start → α → β} (hx : Uniform P x)
    (hf : ∀ vs a, P.holds vs a → Q.holds vs fun ρ => f ρ (a ρ)) :
    Uniform Q fun ρ => x ρ >>= fun a => Pure.pure (f ρ a) :=
  hx.bind fun vs a ha => .pure (hf vs a ha)

/-- A place is put before the same error from every start. -/
theorem Uniform.within (place : Place) {x : Start → Render α} (hx : Uniform P x) :
    Uniform P fun ρ => Render.within place (x ρ) := by
  intro vs
  rcases hx vs with ⟨e, he⟩ | ⟨vs', a, hvs, ha, hx⟩
  · exact .inl ⟨.within place e, fun ρ => fst_within_of_error (he ρ)⟩
  · exact .inr ⟨vs', a, hvs, ha, fun ρ => within_eq_ok.2 (hx ρ)⟩

/-- The text of a binding is the gap for its value. -/
theorem Uniform.value (d : Dialect) (v : Value) :
    Uniform .text fun ρ => (d.inStyle ρ.style).bind v := by
  intro vs
  have hlast : vs.length < (vs ++ [v]).length := by simp
  refine .inr ⟨vs ++ [v], fun ρ => ((ρ.after vs).bind ρ.style v).1, List.prefix_append _ _,
    ⟨[.gap ⟨vs.length, hlast⟩], fun ρ => ?_⟩, fun ρ => ?_⟩
  · have hget : (vs ++ [v])[vs.length] = v := by simp
    have htake : (vs ++ [v]).take vs.length = vs := by simp
    show _ = String.join [((ρ.sink.bindAll ρ.style ((vs ++ [v]).take vs.length)).bind ρ.style
      (vs ++ [v])[vs.length]).1]
    rw [hget, htake]
    simp [Start.after]
  · rw [Start.after, Start.after, Sink.bindAll_append]
    rfl

/-- A list of steps is uniform if each of them is. -/
theorem Uniform.mapM {f : Start → γ → Render α} {cs : List γ}
    (h : ∀ c ∈ cs, Uniform P fun ρ => f ρ c) : Uniform P.each fun ρ => cs.mapM (f ρ) := by
  induction cs with
  | nil =>
    intro vs
    exact .pure ⟨[], fun b hb => absurd hb List.not_mem_nil, fun _ => rfl⟩
  | cons c cs ih =>
    obtain ⟨hc, hcs⟩ := List.forall_mem_cons.1 h
    simp only [List.mapM_cons]
    apply hc.bind
    intro vs a ha
    apply (ih hcs vs).bind
    intro vs' as hvs has
    apply UniformAt.pure
    obtain ⟨bs, hbs, has⟩ := has
    -- What the first step gave is still that after the values of the others were bound.
    exact ⟨a :: bs, List.forall_mem_cons.2 ⟨P.mono hvs ha, hbs⟩,
      fun ρ => congrArg (a ρ :: ·) (has ρ)⟩

end Render

end WhereClause
