/-
WhereClause/Proofs/Render/Congruence.lean

Rendering is made of few things: it writes texts, fails, puts a place before an
error, counts, and binds values, one after the other.  A relation between steps
that each of these keeps, and for which it is enough that two bound values have
one type, is kept by rendering as a whole.

Main results: agreeing conditions render to related steps if what stands in them
is related (`Congruence.condition`), and so do specifications whose levels agree
(`Congruence.compile`).
-/
import WhereClause.Compiler
import WhereClause.Proofs.Agreement

namespace WhereClause

/-! ### Levels that agree -/

/-- Levels that were read alike: the same text, the same error, or nodes that agree. -/
inductive Reading.Agree {S T : Type} (R : S → T → Prop) : Reading S → Reading T → Prop
  | text (sql : String) : Agree R (.text sql) (.text sql)
  | failed (e : Error) : Agree R (.failed e) (.failed e)
  | node {c : Condition S} {c' : Condition T} (h : c.Agree R c') : Agree R (.node c) (.node c')

/-- A level agrees with itself if what stands in it is related to itself. -/
theorem Reading.Agree.refl {S : Type} {R : S → S → Prop} (x : Reading S)
    (h : ∀ t ∈ x.nested, R t t) : x.Agree R x := by
  cases x with
  | text sql => exact .text sql
  | failed e => exact .failed e
  | node c => exact .node (.refl c h)

/-! ### Congruences -/

/-- A relation between steps that is kept by all that rendering is made of. -/
structure Render.Congruence (d : Dialect) where
  rel : ∀ {α : Type}, Render α → Render α → Prop
  pure : ∀ {α : Type} (a : α), rel (Pure.pure a) (Pure.pure a)
  fail : ∀ {α : Type} (e : Error), rel (Render.fail e : Render α) (Render.fail e)
  bind : ∀ {α β : Type} {x y : Render α} {f g : α → Render β}, rel x y →
    (∀ a, rel (f a) (g a)) → rel (x >>= f) (y >>= g)
  within : ∀ {α : Type} (place : Place) {x y : Render α}, rel x y →
    rel (Render.within place x) (Render.within place y)
  count : rel Render.count Render.count
  value : ∀ {v w : Value}, v.type = w.type → rel (d.bind v) (d.bind w)

namespace Render.Congruence

variable {d : Dialect} (K : Congruence d)

/-- Lists are gone through together, pair by pair. -/
theorem mapM {α β γ : Type} {P : α → β → Prop} {f : α → Render γ} {g : β → Render γ}
    {as : List α} {bs : List β} (h : List.Forall₂ P as bs)
    (hfg : ∀ a b, P a b → K.rel (f a) (g b)) : K.rel (as.mapM f) (bs.mapM g) := by
  induction h with
  | nil => exact K.pure []
  | cons hab _ ih =>
    rw [List.mapM_cons, List.mapM_cons]
    apply K.bind (hfg _ _ hab)
    intro c
    apply K.bind ih
    intro cs
    exact K.pure (c :: cs)

/-- Where an attempt fails there is no step, so both sides have failed with one error. -/
theorem ofExcept {α β γ : Type} {P : α → β → Prop} {x : Except Error α} {y : Except Error β}
    {f : α → Render γ} {g : β → Render γ} (h : Attempt.Agree P x y)
    (hfg : ∀ a b, P a b → K.rel (f a) (g b)) :
    K.rel (Render.ofExcept x >>= f) (Render.ofExcept y >>= g) := by
  cases h with
  | ok h => exact hfg _ _ h
  | error e => exact K.fail e

/-! ### Sub-queries and the sides of a test -/

theorem part {p p' : Template.Part (Render String)} (h : p.Agree K.rel p') :
    K.rel (p.render d) (p'.render d) := by
  cases h with
  | text s => exact K.pure s
  | value h => exact K.value h
  | column n => exact K.pure _
  | table n => exact K.pure _
  | condition h => exact h
  | count => exact K.bind K.count fun n => K.pure n.repr

/-- Tables and columns are the same on both sides, and so is all that is written of them. -/
theorem subquery {q q' : Subquery (Render String)} (h : q.Agree K.rel q') :
    K.rel (q.render d) (q'.render d) := by
  cases h with
  | plain table columns => exact K.pure _
  | filtered table columns h => exact K.bind h fun _ => K.pure _
  | template h => exact K.bind (K.mapM h fun _ _ => K.part) fun _ => K.pure _

/-- Values of one type are bound on both sides, whatever they are. -/
theorem scalar {s s' : Scalar (Render String)} (h : s.Agree K.rel s') :
    K.rel (s.render d) (s'.render d) := by
  cases h with
  | null => exact K.pure _
  | value h => exact K.value h
  | raw sql => exact K.pure _
  | subquery h => exact K.bind (K.subquery h) fun _ => K.pure _

theorem column {c c' : Column (Render String)} (h : c.Agree K.rel c') :
    K.rel (c.render d) (c'.render d) := by
  cases h with
  | name n => exact K.pure _
  | raw sql => exact K.pure _
  | subquery h => exact K.bind (K.subquery h) fun _ => K.pure _

/-! ### Membership tests -/

/-- Keys are the same on both sides, so an entry is found on both or on neither. -/
theorem entryUnder {o o' : Operand (Render String)} (h : o.Agree K.rel o')
    (column : PlainColumn) :
    Option.Rel (Operand.Agree K.rel) (Membership.entryUnder column o)
      (Membership.entryUnder column o') := by
  -- The one entry of a row is looked up; all else stands for itself.
  cases h with
  | scalar h => exact .some (.scalar h)
  | list h => exact .some (.list h)
  | row h => exact Keyed.Agree.lookup h column.key

/-- Null faces null, so a member is left out of the list on both sides or on neither. -/
theorem member (operator : String) {o o' : Option (Operand (Render String))}
    (h : Option.Rel (Operand.Agree K.rel) o o') :
    K.rel (Membership.renderMember d operator o) (Membership.renderMember d operator o') := by
  cases h with
  | none => exact K.pure none
  | some h =>
    cases h with
    | scalar h =>
      cases h with
      | null => exact K.pure none
      | value h => exact K.bind (K.value h) fun s => K.pure (some s)
      | raw sql => exact K.pure _
      | subquery h => exact K.fail _
    | list h => exact K.fail _
    | row h => exact K.fail _

/-- An entry of a row; as it may be absent, so may the other be. -/
theorem entry (operator : String) {o o' : Option (Operand (Render String))}
    (h : Option.Rel (Operand.Agree K.rel) o o') :
    K.rel (Membership.renderEntry d operator o) (Membership.renderEntry d operator o') := by
  cases h with
  | none => exact K.pure _
  | some h =>
    cases h with
    | scalar h => exact K.scalar h
    | list h => exact K.fail _
    | row h => exact K.fail _

/-- As many entries on both sides; beyond the end of a list there is none on either. -/
theorem rowEntries (operator : String) (columns : List PlainColumn)
    {o o' : Operand (Render String)} (h : o.Agree K.rel o') :
    Attempt.Agree (List.Forall₂ (Option.Rel (Operand.Agree K.rel)))
      (Membership.rowEntries operator columns o) (Membership.rowEntries operator columns o') := by
  cases h with
  | scalar h =>
    have hshape := (Operand.Agree.scalar h).shape_eq
    simp only [Membership.rowEntries, hshape]
    exact .error _
  | list h =>
    refine .ok ?_
    rw [List.forall₂_map_left_iff, List.forall₂_map_right_iff]
    exact List.forall₂_same.2 fun i _ => forall₂_getElem? h i
  | row h =>
    refine .ok ?_
    rw [List.forall₂_map_left_iff, List.forall₂_map_right_iff]
    exact List.forall₂_same.2 fun c _ => Keyed.Agree.lookup h c.key

/-- A row is refused on both sides for its shape, or is written entry by entry. -/
theorem row (operator : String) (columns : List PlainColumn) {o o' : Operand (Render String)}
    (h : o.Agree K.rel o') :
    K.rel (Membership.renderRow d operator columns o)
      (Membership.renderRow d operator columns o') := by
  apply K.ofExcept (K.rowEntries operator columns h)
  intro entries entries' hentries
  apply K.bind (K.mapM hentries fun _ _ h => K.entry operator h)
  intro clauses
  exact K.pure _

/-- The numbers of columns and members decide on the form, and they are the same. -/
theorem membership (columns : List PlainColumn) (polarity : Polarity)
    {x x' : Candidates (Render String)} (h : x.Agree K.rel x') :
    K.rel (Membership.render d columns polarity x)
      (Membership.render d columns polarity x') := by
  cases h with
  | members h =>
    cases h with
    | nil => exact K.pure _
    | cons ho hos =>
      -- There is a member on both sides, so the number of columns decides what is written.
      match columns with
      | [] => exact K.pure _
      | [column] =>
        apply K.bind (K.mapM (.cons ho hos) fun _ _ h => K.member _ (K.entryUnder h column))
        intro members
        exact K.pure _
      | c :: c' :: cs =>
        apply K.bind (K.mapM (.cons ho hos) fun _ _ h => K.row _ _ h)
        intro rows
        exact K.pure _
  | subquery h =>
    match columns with
    | [] => exact K.pure _
    | c :: cs => exact K.bind (K.subquery h) fun _ => K.pure _

/-! ### Conditions -/

/-- What an entry asks for decides on the form, and is the same up to its value. -/
theorem hashTest (name : String) {e e' : HashTest (Render String)} (h : e.Agree K.rel e') :
    K.rel (e.render d name) (e'.render d name) := by
  cases h with
  | scalar h =>
    cases h with
    | null => exact K.pure _
    | value h => exact K.bind (K.value h) fun _ => K.pure _
    | raw sql => exact K.pure _
    | subquery h => exact K.membership [.name name] .positive (.subquery h)
  | list h => exact K.membership [.name name] .positive (.members h)

/-- The text of a pattern is a value, and what is bound is of one type in any case. -/
theorem pattern (table : Option (List (Char × String))) {p p' : Pattern (Render String)}
    (h : p.Agree K.rel p') : K.rel (p.render d table) (p'.render d table) := by
  cases h with
  | text s s' => exact K.value rfl
  | raw sql => exact K.pure _
  | subquery h => exact K.bind (K.subquery h) fun _ => K.pure _

/-- Operands that face each other have one number, so the place before an error is the same. -/
theorem operands (j : Junction) {rs rs' : List (Render String)} (h : List.Forall₂ K.rel rs rs') :
    K.rel (Condition.renderOperands j rs) (Condition.renderOperands j rs') := by
  have hnumbered : List.Forall₂ (fun e e' => K.rel e.1 e'.1 ∧ e.2 = e'.2) rs.zipIdx rs'.zipIdx :=
    forall₂_zipIdx h 0
  refine K.mapM hnumbered ?_
  rintro ⟨r, i⟩ ⟨r', -⟩ ⟨hr, rfl⟩
  exact K.within _ hr

/-- **Nodes that agree are written to related steps.** The cases are those of agreement, each of
which writes the same around related parts. -/
theorem condition {c c' : Condition (Render String)} (h : c.Agree K.rel c') :
    K.rel (c.render d) (c'.render d) := by
  cases h with
  | hash h =>
    apply K.bind
    · apply K.mapM h
      rintro _ _ ⟨name, ht⟩
      exact K.hashTest name ht
    · intro clauses
      exact K.pure _
  | comparison operator hc hx =>
    apply K.bind (K.column hc)
    intro x
    apply K.bind (K.scalar hx)
    intro y
    exact K.pure _
  | membership columns polarity hx => exact K.membership columns polarity hx
  | between polarity hc hx hy =>
    apply K.bind (K.column hc)
    intro x
    apply K.bind (K.scalar hx)
    intro y
    apply K.bind (K.scalar hy)
    intro z
    exact K.pure _
  | betweenColumns polarity hx hb hc =>
    apply K.bind (K.scalar hx)
    intro x
    apply K.bind (K.column hb)
    intro y
    apply K.bind (K.column hc)
    intro z
    exact K.pure _
  | pattern operator escaping hc hps =>
    -- Without patterns the column is not written at all, on both sides.
    cases hps with
    | nil => exact K.pure _
    | cons hp hps =>
      apply K.bind (K.column hc)
      intro x
      apply K.bind (K.mapM (.cons hp hps) fun _ _ h => K.pattern _ h)
      intro patterns
      exact K.pure _
  | negation h =>
    apply K.bind (K.within _ h)
    intro sql
    exact K.pure _
  | junction operator h =>
    apply K.bind (K.operands operator h)
    intro clauses
    exact K.pure _
  | existence polarity h =>
    apply K.bind (K.subquery h)
    intro sql
    exact K.pure _

/-! ### Specifications -/

/-- Specifications render to related steps if they are related by something that
passes on to all that is read from them. -/
theorem compile {c : Compiler} {R : Spec → Spec → Prop} (K : Congruence c.dialect)
    (hread : ∀ s s', R s s' → (s.read c.registry).Agree R (s'.read c.registry)) {s s' : Spec}
    (h : R s s') : K.rel (s.compile c) (s'.compile c) := by
  induction s using Spec.induction_read c.registry generalizing s' with
  | step s ih =>
    rw [Spec.compile_eq, Spec.compile_eq]
    have hss' := hread s s' h
    -- Only how the two levels agree matters, not that they were read.
    generalize s.read c.registry = x at hss' ih
    generalize s'.read c.registry = x' at hss'
    cases hss' with
    | text sql => exact K.pure sql
    | failed e => exact K.fail e
    | node hc => exact K.condition (hc.map fun t ht t' htt' => ih t ht htt')

/-- A specification renders to a step that is related to itself. -/
theorem compile_self {c : Compiler} (K : Congruence c.dialect) (s : Spec) :
    K.rel (s.compile c) (s.compile c) := by
  refine K.compile (R := Eq) ?_ rfl
  rintro s - rfl
  exact .refl _ fun _ _ => rfl

end Render.Congruence

end WhereClause
