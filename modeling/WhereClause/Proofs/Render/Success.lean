/-
WhereClause/Proofs/Render/Success.lean

When a condition can be written.  Whether it can is decided by what it is, never by
the sink or the dialect, and almost always by what stands in it alone: only the
members of a membership test are looked at as they are written, and not even these
if nothing is tested or there is nothing to be among.

Main results: a node is written exactly if it renders, given when what stands in it
is written (`Condition.succeedsIff_render`), and a specification compiles on every
sink or on none (`Spec.succeedsIff_compile`).
-/
import WhereClause.Compiler
import WhereClause.Proofs.Render.Runs

namespace WhereClause

/-! ### Conditions that render -/

/-- All that stands in the sub-query is written. -/
def Subquery.Renders (q : Subquery Prop) : Prop := ∀ p ∈ q.nested, p

/-- A scalar is written if its sub-query is. -/
def Scalar.Renders (s : Scalar Prop) : Prop := ∀ p ∈ s.nested, p

/-- A column is written if its sub-query is. -/
def Column.Renders (c : Column Prop) : Prop := ∀ p ∈ c.nested, p

/-- A pattern is written if its sub-query is. -/
def Pattern.Renders (p : Pattern Prop) : Prop := ∀ p' ∈ p.nested, p'

namespace Membership

/-- A member is a single value, or null. -/
def MemberRenders : Option (Operand Prop) → Prop
  | none | some (.scalar .null) | some (.scalar (.value _)) | some (.scalar (.raw _)) => True
  | some (.scalar (.subquery _)) | some (.list _) | some (.row _) => False

/-- An entry of a row is a scalar, or is absent. -/
def EntryRenders : Option (Operand Prop) → Prop
  | none => True
  | some (.scalar s) => s.Renders
  | some (.list _) | some (.row _) => False

/-- Only the entries that are looked at matter. -/
def RowRenders (columns : List PlainColumn) : Operand Prop → Prop
  | .row entries => ∀ c ∈ columns, EntryRenders (entries.lookup c.key)
  | .list items => ∀ o ∈ items.take columns.length, EntryRenders (some o)
  | .scalar _ => False

/-- Without a column the candidates are not looked at. -/
def Renders : List PlainColumn → Candidates Prop → Prop
  | [], _ => True
  | _ :: _, .subquery q => q.Renders
  | [column], .members items => ∀ o ∈ items, MemberRenders (entryUnder column o)
  | columns, .members items => ∀ o ∈ items, RowRenders columns o

end Membership

/-- A list asks for members of its column. -/
def HashTest.Renders (column : String) : HashTest Prop → Prop
  | .scalar s => s.Renders
  | .list items => Membership.Renders [.name column] (.members items)

/-- Whether a node is written, given whether what stands in it is. -/
def Condition.Renders : Condition Prop → Prop
  | .hash entries => ∀ e ∈ entries, e.2.Renders e.1
  | .comparison column _ value => column.Renders ∧ value.Renders
  | .membership columns _ candidates => Membership.Renders columns candidates
  | .between column _ low high => column.Renders ∧ low.Renders ∧ high.Renders
  | .betweenColumns value _ low high => value.Renders ∧ low.Renders ∧ high.Renders
  | .pattern _ _ [] _ => True
  | .pattern column _ patterns _ => column.Renders ∧ ∀ p ∈ patterns, p.Renders
  | .negation inner => inner
  | .junction _ operands => ∀ p ∈ operands, p
  | .existence _ q => q.Renders

/-- What was not read is not written. -/
def Reading.Renders : Reading Prop → Prop
  | .text _ => True
  | .failed _ => False
  | .node c => c.Renders

/-- Whether a specification compiles. -/
def Spec.Compiles (r : Registry) (s : Spec) : Prop := s.fold r Reading.Renders

/-- Whether a specification compiles is decided level by level. -/
theorem Spec.compiles_eq (r : Registry) (s : Spec) :
    s.Compiles r = ((s.read r).map (Compiles r)).Renders :=
  fold_eq r _ s

/-! ### Steps that succeed -/

namespace Render

variable {α β : Type} {p q : Prop}

/-- On every sink the step succeeds exactly if `p` holds. -/
def SucceedsIff (p : Prop) (x : Render α) : Prop := ∀ s, (∃ a t, x s = (.ok a, t)) ↔ p

/-- A condition may be put in other words. -/
theorem SucceedsIff.congr {x : Render α} (hx : SucceedsIff p x) (h : p ↔ q) : SucceedsIff q x :=
  fun s => (hx s).trans h

theorem SucceedsIff.pure (a : α) : SucceedsIff True (Pure.pure a) :=
  fun s => iff_true_intro ⟨a, s, rfl⟩

/-- Where nothing stands in a part, all that does is written. -/
theorem SucceedsIff.leaf {x : Render α} (hx : SucceedsIff True x) {ps : List Prop}
    (h : ps = []) : SucceedsIff (∀ p ∈ ps, p) x :=
  hx.congr (by simp [h])

/-- A step that fails does so on every sink. -/
theorem SucceedsIff.fail (e : Error) : SucceedsIff False (fail e : Render α) := by
  intro s
  exact iff_false_intro fun ⟨a, t, hrun⟩ => absurd hrun (by simp [Render.fail])

/-- Binding does not fail. -/
theorem SucceedsIff.value (d : Dialect) (v : Value) : SucceedsIff True (d.bind v) :=
  fun _ => iff_true_intro ⟨_, _, rfl⟩

/-- Both steps have to succeed, and what the first one left in the sink makes no difference to
the second. -/
theorem SucceedsIff.bind {x : Render α} {f : α → Render β} (hx : SucceedsIff p x)
    (hf : ∀ a, SucceedsIff q (f a)) : SucceedsIff (p ∧ q) (x >>= f) := by
  intro s
  constructor
  · rintro ⟨b, t, hrun⟩
    obtain ⟨a, s', hx', hf'⟩ := bind_eq_ok.1 hrun
    exact ⟨(hx s).1 ⟨a, s', hx'⟩, (hf a s').1 ⟨b, t, hf'⟩⟩
  · rintro ⟨hp, hq⟩
    obtain ⟨a, s', hx'⟩ := (hx s).2 hp
    obtain ⟨b, t, hf'⟩ := (hf a s').2 hq
    exact ⟨b, t, bind_eq_ok.2 ⟨a, s', hx', hf'⟩⟩

/-- What is made of a result does not fail. -/
theorem SucceedsIff.map {x : Render α} (hx : SucceedsIff p x) (f : α → β) :
    SucceedsIff p (x >>= fun a => Pure.pure (f a)) :=
  (hx.bind fun a => .pure (f a)).congr (and_iff_left trivial)

/-- A place is put before errors, and it makes none. -/
theorem SucceedsIff.within {x : Render α} (place : Place) (hx : SucceedsIff p x) :
    SucceedsIff p (within place x) := by
  intro s
  simp only [within_eq_ok]
  exact hx s

/-- A list of steps succeeds if each of them does; steps and conditions come from the
same items. -/
theorem SucceedsIff.mapM {γ δ : Type} {f : β → Render γ} {P : δ → Prop} {p : α → β} {q : α → δ}
    {as : List α} (h : ∀ a ∈ as, SucceedsIff (P (q a)) (f (p a))) :
    SucceedsIff (∀ b ∈ as.map q, P b) ((as.map p).mapM f) := by
  induction as with
  | nil => exact (SucceedsIff.pure []).congr (by simp)
  | cons a as ih =>
    obtain ⟨ha, has⟩ := List.forall_mem_cons.1 h
    rw [List.map_cons, List.map_cons, List.mapM_cons, List.forall_mem_cons]
    apply SucceedsIff.bind ha
    intro b
    exact (ih has).map fun bs => b :: bs

end Render

open Render

variable {S : Type} {f : S → Render String} {g : S → Prop} {d : Dialect}

/-! ### Sub-queries and the sides of a test -/

/-- Of the parts of a template only a condition can fail. -/
theorem Template.Part.succeedsIff_render {p : Template.Part S}
    (h : ∀ t ∈ p.nested, SucceedsIff (g t) (f t)) :
    SucceedsIff (∀ p' ∈ (p.map g).nested, p') ((p.map f).render d) := by
  cases p with
  | text s => exact (SucceedsIff.pure _).leaf rfl
  | value v => exact (SucceedsIff.value d v).leaf rfl
  | column n => exact (SucceedsIff.pure _).leaf rfl
  | table n => exact (SucceedsIff.pure _).leaf rfl
  | condition c =>
    exact (h c (List.mem_singleton.2 rfl)).congr (List.forall_mem_singleton (p := id)).symm
  | count => exact SucceedsIff.leaf (fun s => iff_true_intro ⟨_, _, rfl⟩) rfl

/-- A query is written if each condition in it is. -/
theorem Subquery.succeedsIff_render {q : Subquery S}
    (h : ∀ t ∈ q.nested, SucceedsIff (g t) (f t)) :
    SucceedsIff (q.map g).Renders ((q.map f).render d) := by
  cases q with
  | select table columns filter =>
    cases filter with
    | none => exact (SucceedsIff.pure _).leaf rfl
    | some c =>
      have hcondition : SucceedsIff (g c) (f c) := h c (List.mem_singleton.2 rfl)
      apply (hcondition.map _).congr
      exact (List.forall_mem_singleton (p := id)).symm
  | template parts =>
    rw [map_template, map_template]
    have hparts : SucceedsIff (∀ p ∈ parts.map (·.map g), ∀ p' ∈ p.nested, p')
        ((parts.map (·.map f)).mapM (·.render d)) := by
      apply SucceedsIff.mapM
      intro p hp
      apply Template.Part.succeedsIff_render
      intro t ht
      exact h t (List.mem_flatMap.2 ⟨p, hp, ht⟩)
    apply (hparts.map _).congr
    simp only [Renders, nested, List.mem_flatMap]
    constructor
    · rintro h p ⟨part, hpart, hp⟩
      exact h part hpart p hp
    · exact fun h part hpart p hp => h p ⟨part, hpart, hp⟩

/-- A side of a test is written if its sub-query is, and always if it has none. -/
theorem Scalar.succeedsIff_render {s : Scalar S}
    (h : ∀ t ∈ s.nested, SucceedsIff (g t) (f t)) :
    SucceedsIff (s.map g).Renders ((s.map f).render d) := by
  cases s with
  | null => exact (SucceedsIff.pure _).leaf rfl
  | value v => exact (SucceedsIff.value d v).leaf rfl
  | raw sql => exact (SucceedsIff.pure _).leaf rfl
  | subquery q => exact (Subquery.succeedsIff_render h).map _

theorem Column.succeedsIff_render {c : Column S}
    (h : ∀ t ∈ c.nested, SucceedsIff (g t) (f t)) :
    SucceedsIff (c.map g).Renders ((c.map f).render d) := by
  cases c with
  | name n => exact (SucceedsIff.pure _).leaf rfl
  | raw sql => exact (SucceedsIff.pure _).leaf rfl
  | subquery q => exact (Subquery.succeedsIff_render h).map _

/-- The text of a pattern is bound, whatever the escaping makes of it. -/
theorem Pattern.succeedsIff_render (table : Option (List (Char × String))) {p : Pattern S}
    (h : ∀ t ∈ p.nested, SucceedsIff (g t) (f t)) :
    SucceedsIff (p.map g).Renders ((p.map f).render d table) := by
  cases p with
  | text s => exact (SucceedsIff.value d _).leaf rfl
  | raw sql => exact (SucceedsIff.pure _).leaf rfl
  | subquery q => exact (Subquery.succeedsIff_render h).map _

/-! ### Membership tests -/

namespace Membership

/-- Members are null, values or raw SQL; nothing else can be among them. -/
theorem succeedsIff_renderMember (operator : String) (m : Option (Operand S)) :
    SucceedsIff (MemberRenders (m.map (Operand.map g)))
      (renderMember d operator (m.map (Operand.map f))) := by
  cases m with
  | none => exact .pure none
  | some o =>
    rw [Option.map_some, Option.map_some]
    cases o with
    | scalar s =>
      rw [Operand.map_scalar, Operand.map_scalar]
      cases s with
      | null => exact .pure none
      | value v => exact (SucceedsIff.value d v).map some
      | raw sql => exact .pure _
      | subquery q => exact .fail _
    | list items =>
      rw [Operand.map_list, Operand.map_list]
      exact .fail _
    | row entries =>
      rw [Operand.map_row, Operand.map_row]
      exact .fail _

/-- An entry of a row may be a sub-query as well, which is written in its place. -/
theorem succeedsIff_renderEntry (operator : String) {m : Option (Operand S)}
    (h : ∀ o ∈ m, ∀ t ∈ o.nested, SucceedsIff (g t) (f t)) :
    SucceedsIff (EntryRenders (m.map (Operand.map g)))
      (renderEntry d operator (m.map (Operand.map f))) := by
  cases m with
  | none => exact .pure _
  | some o =>
    rw [Option.map_some, Option.map_some]
    cases o with
    | scalar s =>
      rw [Operand.map_scalar, Operand.map_scalar]
      exact Scalar.succeedsIff_render fun t ht => h _ rfl t (by rwa [Operand.nested])
    | list items =>
      rw [Operand.map_list, Operand.map_list]
      exact .fail _
    | row entries =>
      rw [Operand.map_row, Operand.map_row]
      exact .fail _

/-- The entries that are looked at are those under the columns; beyond the end of a list there
is none, which counts as null. -/
theorem rowRenders_iff {operator : String} {columns : List PlainColumn} {o : Operand Prop}
    {entries : List (Option (Operand Prop))} (h : rowEntries operator columns o = .ok entries) :
    RowRenders columns o ↔ ∀ m ∈ entries, EntryRenders m := by
  cases o with
  | scalar s => exact absurd h (by simp [rowEntries])
  | list items =>
    cases h
    rw [range_map_getElem?, RowRenders, List.forall_mem_append, List.forall_mem_map]
    -- What is added for missing entries is written as `NULL`.
    refine (and_iff_left fun m hm => ?_).symm
    rw [List.eq_of_mem_replicate hm]
    trivial
  | row es =>
    cases h
    rw [RowRenders, List.forall_mem_map]

/-- A row is written if each entry under a column is, and a scalar is no row. -/
theorem succeedsIff_renderRow (operator : String) (columns : List PlainColumn) {o : Operand S}
    (h : ∀ t ∈ o.nested, SucceedsIff (g t) (f t)) :
    SucceedsIff (RowRenders columns (o.map g)) (renderRow d operator columns (o.map f)) := by
  have hf := rowEntries_map f operator columns o
  have hg := rowEntries_map g operator columns o
  rw [renderRow, hf]
  cases hentries : rowEntries operator columns o with
  | error e =>
    cases o with
    | scalar s =>
      rw [Operand.map_scalar]
      exact .fail e
    | list items => exact absurd hentries (by simp [rowEntries])
    | row es => exact absurd hentries (by simp [rowEntries])
  | ok entries =>
    rw [hentries] at hg
    -- An entry that is not under a column is not written, so it is not asked for either.
    have hmapM : SucceedsIff (∀ m ∈ entries.map (Option.map (Operand.map g)), EntryRenders m)
        ((entries.map (Option.map (Operand.map f))).mapM (renderEntry d operator)) := by
      apply SucceedsIff.mapM
      intro m hm
      apply succeedsIff_renderEntry operator
      intro o' ho' t ht
      rw [Option.mem_def.1 ho'] at hm
      exact h t (mem_nested_of_rowEntries hentries hm ht)
    exact (hmapM.map _).congr (rowRenders_iff hg).symm

/-- A test of membership is written if its members are. Without a column or without members
there is nothing that could fail. -/
theorem succeedsIff_render (columns : List PlainColumn) (polarity : Polarity) {x : Candidates S}
    (h : ∀ t ∈ x.nested, SucceedsIff (g t) (f t)) :
    SucceedsIff (Renders columns (x.map g)) (render d columns polarity (x.map f)) := by
  cases x with
  | subquery q =>
    cases columns with
    | nil => exact .pure _
    | cons c cs => exact (Subquery.succeedsIff_render h).map _
  | members items =>
    rw [Candidates.map_members, Candidates.map_members]
    -- Where there is no column or no member nothing is written that could fail.
    match columns, items with
    | [], [] => exact .pure _
    | [], _ :: _ => exact .pure _
    | [_], [] =>
      exact (SucceedsIff.pure _).congr
        (iff_of_true trivial fun o ho => absurd ho List.not_mem_nil)
    | _ :: _ :: _, [] =>
      exact (SucceedsIff.pure _).congr
        (iff_of_true trivial fun o ho => absurd ho List.not_mem_nil)
    | [column], m :: ms =>
      have hmembers : SucceedsIff
          (∀ o ∈ (m :: ms).map (Operand.map g), MemberRenders (entryUnder column o))
          (((m :: ms).map (Operand.map f)).mapM fun o =>
            renderMember d (polarity.apply "IN") (entryUnder column o)) := by
        apply SucceedsIff.mapM
        intro o _
        -- Under the column there is the same part of the member on both sides.
        rw [entryUnder_map, entryUnder_map]
        exact succeedsIff_renderMember _ _
      exact hmembers.map _
    | c :: c' :: cs, m :: ms =>
      have hrows : SucceedsIff
          (∀ o ∈ (m :: ms).map (Operand.map g), RowRenders (c :: c' :: cs) o)
          (((m :: ms).map (Operand.map f)).mapM
            (renderRow d (polarity.apply "IN") (c :: c' :: cs))) := by
        apply SucceedsIff.mapM
        intro o ho
        apply succeedsIff_renderRow
        intro t ht
        exact h t (Operand.mem_nestedItems ho ht)
      exact hrows.map _

end Membership

/-! ### Nodes -/

/-- The test of an entry is a test of membership, or it does not fail. -/
theorem HashTest.succeedsIff_render (column : String) {e : HashTest S}
    (h : ∀ t ∈ e.nested, SucceedsIff (g t) (f t)) :
    SucceedsIff ((e.map g).Renders column) ((e.map f).render d column) := by
  cases e with
  | scalar s =>
    cases s with
    | null => exact (SucceedsIff.pure _).leaf rfl
    | value v => exact ((SucceedsIff.value d v).map _).leaf rfl
    | raw sql => exact (SucceedsIff.pure _).leaf rfl
    | subquery q =>
      exact Membership.succeedsIff_render [.name column] .positive (x := .subquery q) h
  | list items =>
    have hitems := Membership.succeedsIff_render (d := d) [.name column] .positive
      (x := .members items) h
    rw [Candidates.map_members, Candidates.map_members] at hitems
    rw [map_list, map_list]
    exact hitems

namespace Condition

/-- All operands of a junction have to be written, also those that are left out as empty. -/
theorem succeedsIff_renderOperands (j : Junction) {operands : List S}
    (h : ∀ t ∈ operands, SucceedsIff (g t) (f t)) :
    SucceedsIff (∀ p ∈ operands.map g, p) (renderOperands j (operands.map f)) := by
  -- The numbers of the operands matter to errors only.
  have hconditions : operands.map g = operands.zipIdx.map fun e => g e.1 := by
    rw [← List.zipIdx_map_fst 0 operands, List.map_map, List.zipIdx_map_fst]
    rfl
  rw [renderOperands, List.zipIdx_map, hconditions]
  apply SucceedsIff.mapM
  intro e he
  have hoperand : SucceedsIff (g e.1) (f e.1) := h e.1 (List.fst_mem_of_mem_zipIdx he)
  exact hoperand.within _

/-- Without patterns not even the column is written, so that nothing can fail. -/
theorem succeedsIff_renderAll (column : Column S) (operator : LikeOperator) (escaping : Escaping)
    {patterns : List (Pattern S)}
    (hcolumn : ∀ t ∈ column.nested, SucceedsIff (g t) (f t))
    (hpatterns : ∀ p ∈ patterns, ∀ t ∈ p.nested, SucceedsIff (g t) (f t)) :
    SucceedsIff (pattern (column.map g) operator (patterns.map (·.map g)) escaping).Renders
      (Pattern.renderAll d (column.map f) operator escaping (patterns.map (·.map f))) := by
  cases patterns with
  | nil => exact .pure _
  | cons p ps =>
    have htexts : SucceedsIff (∀ p' ∈ (p :: ps).map (·.map g), p'.Renders)
        (((p :: ps).map (·.map f)).mapM (Pattern.render d (d.options.escapeTable escaping))) := by
      apply SucceedsIff.mapM
      intro p' hp'
      exact Pattern.succeedsIff_render _ (hpatterns p' hp')
    -- The column comes first, and is written once.
    apply SucceedsIff.bind (Column.succeedsIff_render hcolumn)
    intro text
    exact htexts.map _

/-- **A node is written** exactly if it renders, whatever the sink. -/
theorem succeedsIff_render (c : Condition S)
    (h : ∀ t ∈ c.nested, SucceedsIff (g t) (f t)) :
    SucceedsIff (c.map g).Renders ((c.map f).render d) := by
  cases c with
  | hash entries =>
    rw [map_hash, map_hash]
    have hentries : SucceedsIff
        (∀ e ∈ entries.map fun e => (e.1, e.2.map g), e.2.Renders e.1)
        ((entries.map fun e => (e.1, e.2.map f)).mapM fun e => e.2.render d e.1) := by
      apply SucceedsIff.mapM
      intro e he
      apply HashTest.succeedsIff_render e.1
      intro t ht
      exact h t (List.mem_flatMap.2 ⟨e, he, ht⟩)
    exact hentries.map _
  | comparison column operator value =>
    obtain ⟨hcolumn, hvalue⟩ := List.forall_mem_append.1 h
    apply SucceedsIff.bind (Column.succeedsIff_render hcolumn)
    intro x
    exact (Scalar.succeedsIff_render hvalue).map _
  | membership columns polarity candidates =>
    exact Membership.succeedsIff_render columns polarity h
  | between column polarity low high =>
    obtain ⟨hcolumn, hbounds⟩ := List.forall_mem_append.1 h
    obtain ⟨hlow, hhigh⟩ := List.forall_mem_append.1 hbounds
    apply SucceedsIff.bind (Column.succeedsIff_render hcolumn)
    intro x
    apply SucceedsIff.bind (Scalar.succeedsIff_render hlow)
    intro y
    exact (Scalar.succeedsIff_render hhigh).map _
  | betweenColumns value polarity low high =>
    obtain ⟨hvalue, hbounds⟩ := List.forall_mem_append.1 h
    obtain ⟨hlow, hhigh⟩ := List.forall_mem_append.1 hbounds
    apply SucceedsIff.bind (Scalar.succeedsIff_render hvalue)
    intro x
    apply SucceedsIff.bind (Column.succeedsIff_render hlow)
    intro y
    exact (Column.succeedsIff_render hhigh).map _
  | pattern column operator patterns escaping =>
    rw [map_pattern, map_pattern]
    obtain ⟨hcolumn, hpatterns⟩ := List.forall_mem_append.1 h
    apply succeedsIff_renderAll column operator escaping hcolumn
    intro p hp t ht
    exact hpatterns t (List.mem_flatMap.2 ⟨p, hp, ht⟩)
  | negation inner =>
    have hinner : SucceedsIff (g inner) (f inner) := h inner (List.mem_singleton.2 rfl)
    exact (hinner.within .negated).map _
  | junction operator operands =>
    rw [map_junction, map_junction]
    exact (succeedsIff_renderOperands operator h).map _
  | existence polarity q => exact (Subquery.succeedsIff_render h).map _

end Condition

/-! ### Specifications -/

/-- **Whether a specification compiles** does not depend on the sink or the dialect. -/
theorem Spec.succeedsIff_compile (c : Compiler) (s : Spec) :
    SucceedsIff (s.Compiles c.registry) (s.compile c) := by
  induction s using Spec.induction_read c.registry with
  | step s ih =>
    rw [compile_eq, compiles_eq]
    cases hr : s.read c.registry with
    | text sql => exact .pure sql
    | failed e => exact .fail e
    | node x =>
      rw [hr] at ih
      exact Condition.succeedsIff_render x ih

end WhereClause
