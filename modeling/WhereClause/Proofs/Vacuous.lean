/-
WhereClause/Proofs/Vacuous.lean

Conditions that place no constraint.  A caller who sees an empty text leaves out
`WHERE`, and so do junctions, negations and selections with what stands in them;
by then everything in it has been written, and what it bound would stay behind
without a placeholder.  Nothing does, as only vacuous conditions are written as
the empty text and these bind nothing.

Main results: what is vacuous is written as the empty text and leaves the sink as
it is (`Spec.Vacuous.compile`), whatever is written as the empty text is vacuous
(`Spec.vacuous_of_compile`), and so junctions may gain and lose vacuous operands
and selections have a filter exactly if it is not vacuous
(`Compiler.compileInto_vacuous`).
-/
import WhereClause.Proofs.Meaning
import WhereClause.Proofs.Spelling

namespace WhereClause

/-! ### Vacuous specifications -/

/-- What places no constraint. -/
inductive Spec.Vacuous (r : Registry) : Spec → Prop
  /-- Null, the empty text, the empty list and the empty mapping. -/
  | empty {s : Spec} (h : s.isEmpty = true) : Vacuous r s
  | raw : Vacuous r (.raw "")
  | hash : Vacuous r (.condition (.hash []))
  | noColumns (candidates : Candidates Spec) :
      Vacuous r (.condition (.membership [] .negative candidates))
  | noMembers (columns : List PlainColumn) :
      Vacuous r (.condition (.membership columns .negative (.members [])))
  | noPatterns (column : Column Spec) {operator : LikeOperator}
      (h : operator.polarity = .negative) (escaping : Escaping) :
      Vacuous r (.condition (.pattern column operator [] escaping))
  | negation {s : Spec} (h : Vacuous r s) : Vacuous r (.condition (.negation s))
  | junction (j : Junction) {operands : List Spec} (h : ∀ s ∈ operands, Vacuous r s) :
      Vacuous r (.condition (.junction j operands))
  /-- An operator with its operands is what it is read as. -/
  | operator {token : String} {operands : List Spec} {c : Condition Spec}
      (hparse : r.parse token operands = .ok c) (h : Vacuous r (.condition c)) :
      Vacuous r (.operator token operands)

/-- Lists that are the same but for items with `P`, wherever these stand. -/
inductive SameBut {α : Type} (P : α → Prop) : List α → List α → Prop
  | nil : SameBut P [] []
  | cons (a : α) {as bs : List α} (h : SameBut P as bs) : SameBut P (a :: as) (a :: bs)
  | left {a : α} {as bs : List α} (ha : P a) (h : SameBut P as bs) : SameBut P (a :: as) bs
  | right {b : α} {as bs : List α} (hb : P b) (h : SameBut P as bs) : SameBut P as (b :: bs)

namespace SameBut

variable {α β : Type} {P : α → Prop} {as bs : List α}

theorem map {Q : β → Prop} {f : α → β} (hf : ∀ a, P a → Q (f a)) (h : SameBut P as bs) :
    SameBut Q (as.map f) (bs.map f) := by
  induction h with
  | nil => exact .nil
  | cons a _ ih => exact .cons (f a) ih
  | left ha _ ih => exact .left (hf _ ha) ih
  | right hb _ ih => exact .right (hf _ hb) ih

theorem of_forall (h : ∀ a ∈ as, P a) : SameBut P [] as := by
  induction as with
  | nil => exact .nil
  | cons a as ih =>
    obtain ⟨ha, has⟩ := List.forall_mem_cons.1 h
    exact .right ha (ih has)

end SameBut

/-! ### Readings -/

namespace Spec

variable {r : Registry} {s : Spec}

theorem read_of_isEmpty (h : s.isEmpty = true) : s.read r = .text "" := by
  cases s with
  | scalar x =>
    cases x with
    | null => rfl
    | value v =>
      cases v with
      | text t => exact if_pos h
      | _ => exact absurd h (by simp [isEmpty])
    | _ => exact absurd h (by simp [isEmpty])
  | list items =>
    obtain rfl := List.isEmpty_iff.1 h
    rfl
  | map entries =>
    obtain rfl := List.isEmpty_iff.1 h
    rfl
  | condition c => exact absurd h (by simp [isEmpty])

theorem read_operator {token : String} {operands : List Spec} {c : Condition Spec}
    (h : r.parse token operands = .ok c) : (operator token operands).read r = .node c :=
  Reading.ofExcept_eq_node.2 h

theorem vacuous_of_read_text (h : s.read r = .text "") : s.Vacuous r := by
  rcases eq_of_read_text h with ⟨h, -⟩ | rfl
  · exact .empty h
  · exact .raw

/-- The hash of a mapping that is not empty has entries. -/
theorem vacuous_of_read_node {c : Condition Spec} (h : s.read r = .node c)
    (hc : (condition c).Vacuous r) : s.Vacuous r := by
  obtain ⟨token, operands, rfl, hparse⟩ | ⟨e, es, rfl, hmap⟩ | rfl := read_eq_node h
  · exact .operator hparse hc
  · obtain ⟨tests, htests, rfl⟩ := Condition.ofMap_eq_ok.1 hmap
    cases hc with
    | empty h => exact absurd h (by simp [isEmpty])
    | hash => exact absurd htests (by simp)
  · exact hc

end Spec

/-! ### What is vacuous -/

open Render

namespace Condition

/-- The numbers of the operands matter to errors only. -/
theorem renderOperands_eq_ok {j : Junction} {rs : List (Render String)} {sqls : List String}
    {sink sink' : Sink} :
    renderOperands j rs sink = (.ok sqls, sink') ↔ rs.mapM id sink = (.ok sqls, sink') := by
  show (rs.zipIdx.mapM fun e : Render String × Nat => within (.operand (e.2 + 1) j) e.1) sink = _ ↔
    _
  generalize 0 = n
  induction rs generalizing n sqls sink sink' with
  | nil => exact Iff.rfl
  | cons r rs ih =>
    simp only [List.zipIdx_cons, List.mapM_cons, bind_eq_ok, within_eq_ok, ih, id]

/-- Operands that write nothing and bind nothing may come and go. -/
theorem mapM_sameBut {rs rs' : List (Render String)} (h : SameBut (· = pure "") rs rs')
    {sqls : List String} {sink sink' : Sink} (hrun : rs.mapM id sink = (.ok sqls, sink')) :
    ∃ sqls', rs'.mapM id sink = (.ok sqls', sink') ∧
      sqls'.filter (!·.isEmpty) = sqls.filter (!·.isEmpty) := by
  -- The induction is on how one list is made from the other; only an operand that stays may
  -- bind.
  induction h generalizing sqls sink with
  | nil => exact ⟨sqls, hrun, rfl⟩
  | cons r _ ih =>
    rw [List.mapM_cons] at hrun
    obtain ⟨sql, s, hr, hrun⟩ := bind_eq_ok.1 hrun
    obtain ⟨rest, t, hrest, hrun⟩ := bind_eq_ok.1 hrun
    obtain ⟨rfl, rfl⟩ := pure_eq_ok.1 hrun
    obtain ⟨rest', hrest', hfilter⟩ := ih hrest
    refine ⟨sql :: rest', ?_, by rw [List.filter_cons, List.filter_cons, hfilter]⟩
    rw [List.mapM_cons]
    exact bind_eq_ok.2 ⟨sql, s, hr, bind_eq_ok.2 ⟨rest', t, hrest', rfl⟩⟩
  | left hr _ ih =>
    rw [List.mapM_cons, id, hr, pure_bind] at hrun
    obtain ⟨rest, t, hrest, hrun⟩ := bind_eq_ok.1 hrun
    obtain ⟨rfl, rfl⟩ := pure_eq_ok.1 hrun
    obtain ⟨rest', hrest', hfilter⟩ := ih hrest
    exact ⟨rest', hrest', hfilter⟩
  | right hr _ ih =>
    obtain ⟨rest', hrest', hfilter⟩ := ih hrun
    -- An operand that comes in writes an empty text, which joining leaves out.
    refine ⟨"" :: rest', ?_, hfilter⟩
    rw [List.mapM_cons, id, hr, pure_bind]
    exact bind_eq_ok.2 ⟨rest', _, hrest', rfl⟩

/-- Junctions with the same operands, but for such that write nothing, are the same. -/
theorem render_junction_sameBut (d : Dialect) (j : Junction) {rs rs' : List (Render String)}
    (h : SameBut (· = pure "") rs rs') {sql : String} {sink sink' : Sink}
    (hrun : (junction j rs).render d sink = (.ok sql, sink')) :
    (junction j rs').render d sink = (.ok sql, sink') := by
  obtain ⟨sqls, t, hoperands, hrun⟩ := bind_eq_ok.1 hrun
  obtain ⟨rfl, rfl⟩ := pure_eq_ok.1 hrun
  obtain ⟨sqls', hoperands', hfilter⟩ := mapM_sameBut h (renderOperands_eq_ok.1 hoperands)
  refine bind_eq_ok.2 ⟨sqls', t, renderOperands_eq_ok.2 hoperands', ?_⟩
  rw [hfilter]
  rfl

end Condition

namespace Spec

variable {c : Compiler} {s : Spec}

/-- **What is vacuous** is written as the empty text, and binds nothing. -/
theorem Vacuous.compile (h : s.Vacuous c.registry) : s.compile c = pure "" := by
  induction h with
  | empty h =>
    rw [compile_eq, read_of_isEmpty h]
    rfl
  | raw => exact compile_eq c _
  | hash => exact compile_condition c _
  | noColumns candidates =>
    rw [compile_condition, Condition.map_membership]
    cases candidates with
    | subquery q => rfl
    | members items =>
      rw [Candidates.map_members]
      cases items <;> rfl
  | noMembers columns => exact compile_condition c _
  | noPatterns column h escaping =>
    rw [compile_condition, Condition.map_pattern]
    show pure (Polarity.overNothing _) = _
    rw [h]
    rfl
  | negation _ ih =>
    rw [compile_condition, Condition.map_negation, ih]
    rfl
  | @junction j operands _ ih =>
    -- All operands are vacuous, so it is the junction of none.
    rw [compile_condition, Condition.map_junction]
    funext sink
    exact Condition.render_junction_sameBut c.dialect j (.of_forall (List.forall_mem_map.2 ih)) rfl
  | operator hparse _ ih =>
    rw [compile_of_read (read_operator hparse), ← compile_condition]
    exact ih

end Spec

/-! ### What is written as nothing -/

theorem intercalate_ne_empty {sep s : String} (ss : List String) (hs : s ≠ "") :
    sep.intercalate (s :: ss) ≠ "" := by
  rw [Formula.intercalate_eq_join]
  simp [hs]

theorem Junction.join_eq_empty_iff (j : Junction) {sqls : List String} (h : ∀ s ∈ sqls, s ≠ "") :
    j.join sqls = "" ↔ sqls = [] := by
  match sqls with
  | [] => exact iff_of_true rfl rfl
  | [s] => exact iff_of_false (h s (List.mem_singleton_self s)) (by simp)
  | s :: t :: ss =>
    refine iff_of_false ?_ (by simp)
    exact intercalate_ne_empty _ (Formula.parenthesized_ne_empty s)

namespace Membership

variable {d : Dialect}

/-- Against members there is always a test, of the members or for null. -/
theorem test_ne_empty_of_ne_nil (column : String) (polarity : Polarity)
    {members : List (Option String)} (h : members ≠ []) : test column polarity members ≠ "" := by
  rw [test]
  -- There is a test of the members unless all are null, and then there is one for null.
  cases ht : listTest column polarity (members.filterMap id) with
  | some t =>
    cases members.any Option.isNone with
    | false => exact listTest_ne_empty ht
    | true => cases polarity <;> exact Formula.parenthesized_ne_empty _
  | none =>
    cases hnull : members.any Option.isNone with
    | true => exact nullTest_ne_empty column polarity
    | false =>
      obtain ⟨m, ms, rfl⟩ := List.exists_cons_of_ne_nil h
      cases m with
      | none => exact absurd hnull (by simp)
      | some member =>
        have hmembers : (some member :: ms).filterMap id = member :: ms.filterMap id := rfl
        rw [hmembers] at ht
        cases hms : ms.filterMap id with
        | nil =>
          rw [hms] at ht
          cases polarity <;> exact absurd ht (by simp [listTest])
        | cons member' rest =>
          rw [hms] at ht
          exact absurd ht (by simp [listTest])

/-- A test of something against something is written out. -/
theorem yields_render_of_ne {columns : List PlainColumn} {candidates : Candidates (Render String)}
    (polarity : Polarity) (hcolumns : columns ≠ []) (hcandidates : candidates ≠ .members []) :
    Yields (· ≠ "") (render d columns polarity candidates) := by
  obtain ⟨column, columns, rfl⟩ := List.exists_cons_of_ne_nil hcolumns
  cases candidates with
  | subquery q => exact .bind fun sql => .pure (by simp)
  | members items =>
    cases items with
    | nil => exact absurd rfl hcandidates
    | cons m ms =>
      cases columns with
      | nil =>
        intro sink sql sink' hrun
        obtain ⟨members, t, hmembers, hrun⟩ := bind_eq_ok.1 hrun
        obtain ⟨rfl, rfl⟩ := pure_eq_ok.1 hrun
        refine test_ne_empty_of_ne_nil _ _ ?_
        -- As many members are written as there are, so there is one.
        cases forall₂_of_mapM hmembers
        simp
      | cons column' columns => exact .bind fun rows => .pure (by simp)

end Membership

namespace Condition

variable {d : Dialect} {sql : String} {sink sink' : Sink}

theorem yields_hash (d : Dialect) {entries : List (String × HashTest (Render String))}
    (h : entries ≠ []) : Yields (· ≠ "") ((hash entries).render d) := by
  intro sink sql sink' hrun
  obtain ⟨tests, t, htests, hrun⟩ := bind_eq_ok.1 hrun
  obtain ⟨rfl, rfl⟩ := pure_eq_ok.1 hrun
  have hforall := forall₂_of_mapM htests
  have hne : ∀ sql ∈ tests, sql ≠ "" := by
    intro sql hsql
    obtain ⟨e, -, s, t, he⟩ := exists_of_mem_right hforall hsql
    exact HashTest.yields_render d e.1 e.2 s sql t he
  rw [ne_eq, Junction.join_eq_empty_iff _ hne]
  rintro rfl
  cases hforall
  exact h rfl

theorem yields_pattern (d : Dialect) (column : Column (Render String)) (operator : LikeOperator)
    {patterns : List (Pattern (Render String))} (escaping : Escaping) (h : patterns ≠ []) :
    Yields (· ≠ "") ((pattern column operator patterns escaping).render d) := by
  obtain ⟨p, ps, rfl⟩ := List.exists_cons_of_ne_nil h
  refine .bind fun text sink sql sink' hrun => ?_
  obtain ⟨texts, t, htexts, hrun⟩ := bind_eq_ok.1 hrun
  obtain ⟨rfl, rfl⟩ := pure_eq_ok.1 hrun
  cases forall₂_of_mapM htexts
  exact intercalate_ne_empty _ (by simp)

theorem negated_eq_empty_iff : negated sql = "" ↔ sql = "" := by
  rw [negated]
  split
  · next h => exact iff_of_true rfl (String.isEmpty_iff.1 h)
  · next h => exact iff_of_false (by simp) fun hsql => h (String.isEmpty_iff.2 hsql)

/-- A junction is written as nothing only if each operand is. -/
theorem forall_of_render_junction {j : Junction} {rs : List (Render String)}
    (hrun : (junction j rs).render d sink = (.ok "", sink')) :
    ∀ r ∈ rs, ∃ s t, r s = (.ok "", t) := by
  obtain ⟨sqls, t, hoperands, hrun⟩ := bind_eq_ok.1 hrun
  have hforall := forall₂_of_mapM (renderOperands_eq_ok.1 hoperands)
  have hjoin : j.join (sqls.filter (!·.isEmpty)) = "" := (pure_eq_ok.1 hrun).1
  rw [Junction.join_eq_empty_iff j fun s hs => by simpa using (List.mem_filter.1 hs).2,
    List.filter_eq_nil_iff] at hjoin
  intro r hr
  obtain ⟨sql, hsql, s, t, hrun⟩ := exists_of_mem_left hforall hr
  obtain rfl : sql = "" := by simpa using hjoin sql hsql
  exact ⟨s, t, hrun⟩

end Condition

/-- What is written as nothing is vacuous, if that is so of what stands in it. -/
theorem Condition.vacuous_of_render {c : Compiler} {x : Condition Spec} {sink sink' : Sink}
    (ih : ∀ t ∈ x.nested, ∀ s s', t.compile c s = (.ok "", s') → t.Vacuous c.registry)
    (hrun : (x.map (Spec.compile c)).render c.dialect sink = (.ok "", sink')) :
    (Spec.condition x).Vacuous c.registry := by
  -- Any node but those that are vacuous writes something.
  have hne : ∀ {y : Render String}, Yields (· ≠ "") y → y sink ≠ (.ok "", sink') :=
    fun h hrun => h _ _ _ hrun rfl
  cases x with
  | hash entries =>
    rw [map_hash] at hrun
    by_cases hentries : entries = []
    · exact hentries ▸ .hash
    · exact absurd hrun (hne (yields_hash _ (by simpa using hentries)))
  | comparison column operator value =>
    refine absurd hrun (hne ?_)
    apply Yields.bind
    intro columnText
    apply Yields.bind
    intro valueText
    exact .pure (by simp)
  | membership columns polarity candidates =>
    rw [map_membership] at hrun
    cases polarity with
    | positive => exact absurd hrun (hne (Membership.yields_render _ _ _))
    | negative =>
      by_cases hcolumns : columns = []
      · exact hcolumns ▸ .noColumns candidates
      by_cases hcandidates : candidates = .members []
      · exact hcandidates ▸ .noMembers columns
      · refine absurd hrun (hne (Membership.yields_render_of_ne _ hcolumns ?_))
        cases candidates with
        | subquery q => simp [Candidates.map, Candidates.pmap]
        | members items => simpa using hcandidates
  | between column polarity low high =>
    refine absurd hrun (hne ?_)
    apply Yields.bind
    intro value
    apply Yields.bind
    intro low
    apply Yields.bind
    intro high
    exact .pure (by simp)
  | betweenColumns value polarity low high =>
    refine absurd hrun (hne ?_)
    apply Yields.bind
    intro value
    apply Yields.bind
    intro low
    apply Yields.bind
    intro high
    exact .pure (by simp)
  | pattern column operator patterns escaping =>
    rw [map_pattern] at hrun
    by_cases hpatterns : patterns = []
    · subst hpatterns
      cases hpolarity : operator.polarity with
      | positive =>
        refine absurd hrun (hne (.pure ?_))
        rw [hpolarity]
        simp [Polarity.overNothing]
      | negative => exact .noPatterns column hpolarity escaping
    · exact absurd hrun (hne (yields_pattern _ _ _ _ (by simpa using hpatterns)))
  | negation inner =>
    obtain ⟨sql, t, hinner, hrun⟩ := bind_eq_ok.1 hrun
    obtain rfl : sql = "" := negated_eq_empty_iff.1 (pure_eq_ok.1 hrun).1
    exact .negation (ih inner (List.mem_singleton_self inner) _ _ (within_eq_ok.1 hinner))
  | junction j operands =>
    rw [map_junction] at hrun
    refine .junction j fun s hs => ?_
    obtain ⟨t, t', ht⟩ := forall_of_render_junction hrun _ (List.mem_map_of_mem hs)
    exact ih s hs t t' ht
  | existence polarity q =>
    exact absurd hrun (hne (.bind fun _ => .pure (by simp)))

/-- **Whatever is written as the empty text** is vacuous. -/
theorem Spec.vacuous_of_compile {c : Compiler} {s : Spec} {sink sink' : Sink}
    (hrun : s.compile c sink = (.ok "", sink')) : s.Vacuous c.registry := by
  -- The induction is on what is read: an empty junction may have vacuous operands.
  induction s using Spec.induction_read c.registry generalizing sink sink' with
  | step s ih =>
    cases hr : s.read c.registry with
    | text sql =>
      rw [compile_eq, hr] at hrun
      obtain rfl : sql = "" := (pure_eq_ok.1 hrun).1
      exact vacuous_of_read_text hr
    | failed e =>
      rw [compile_eq, hr] at hrun
      exact absurd hrun (by simp [Reading.map, Reading.pmap, Reading.render, Render.fail])
    | node x =>
      rw [hr] at ih
      rw [compile_of_read hr] at hrun
      exact vacuous_of_read_node hr
        (Condition.vacuous_of_render (fun t ht _ _ h => ih t ht h) hrun)

/-! ### Selections -/

namespace Subquery

/-- A selection up to its filter. -/
def head (d : Dialect) (table : String) (columns : List String) : String :=
  "SELECT " ++ columnList d columns ++ " FROM " ++ d.tableName table

/-- The condition of a selection is that of a filter which is not vacuous; with any
other filter, or none, the selection is its head and binds nothing. -/
theorem render_select_cases {c : Compiler} {table : String} {columns : List String}
    {filter : Option Spec} {sql : String} {sink sink' : Sink}
    (hrun : ((select table columns filter).map (Spec.compile c)).render c.dialect sink =
      (.ok sql, sink')) :
    (∃ s condition, filter = some s ∧ ¬ s.Vacuous c.registry ∧
      s.compile c sink = (.ok condition, sink') ∧
      sql = head c.dialect table columns ++ " WHERE " ++ condition) ∨
    ((∀ s, filter = some s → s.Vacuous c.registry) ∧ sql = head c.dialect table columns ∧
      sink' = sink) := by
  cases filter with
  | none =>
    obtain ⟨rfl, rfl⟩ := pure_eq_ok.1 hrun
    exact .inr ⟨by simp, rfl, rfl⟩
  | some s =>
    rw [map_select] at hrun
    obtain ⟨condition, t, hcondition, hrun⟩ := bind_eq_ok.1 hrun
    obtain ⟨rfl, rfl⟩ := pure_eq_ok.1 hrun
    -- The renderer looks at the text of the filter, and the statement at its meaning.
    by_cases hempty : condition = ""
    · subst hempty
      have hvacuous : s.Vacuous c.registry := Spec.vacuous_of_compile hcondition
      rw [hvacuous.compile] at hcondition
      refine .inr ⟨?_, String.append_empty, (pure_eq_ok.1 hcondition).2.symm⟩
      rintro s' hs'
      exact Option.some.inj hs' ▸ hvacuous
    · have hnot : ¬ s.Vacuous c.registry := by
        intro hvacuous
        rw [hvacuous.compile] at hcondition
        exact hempty (pure_eq_ok.1 hcondition).1.symm
      refine .inl ⟨s, condition, rfl, hnot, hcondition, ?_⟩
      have hwhere : whereClause condition = " WHERE " ++ condition :=
        if_neg fun h => hempty (String.isEmpty_iff.1 h)
      rw [hwhere, head, ← String.append_assoc]

theorem append_where_ne (s condition : String) : s ++ " WHERE " ++ condition ≠ s := by
  intro h
  -- The texts differ in length.
  have hlength := congrArg String.length h
  simp only [String.length_append] at hlength
  have : (" WHERE ").length = 7 := rfl
  omega

end Subquery

namespace Compiler

/-- **A text is empty exactly for a vacuous condition**, and then nothing is bound.
So a junction that compiles may gain and lose vacuous operands anywhere, and a
selection has a condition exactly if its filter is there and not vacuous. -/
theorem compileInto_vacuous (c : Compiler) :
    (∀ s sink sql sink', c.compileInto s sink = (.ok sql, sink') →
      (sql = "" ↔ s.Vacuous c.registry) ∧ (s.Vacuous c.registry → sink' = sink)) ∧
    (∀ j operands operands', SameBut (Spec.Vacuous c.registry) operands operands' →
      ∀ s s' : Spec, s.read c.registry = .node (.junction j operands) →
        s'.read c.registry = .node (.junction j operands') →
      ∀ sink sql sink', c.compileInto s sink = (.ok sql, sink') →
        c.compileInto s' sink = (.ok sql, sink')) ∧
    ∀ table columns filter sink sql sink',
      ((Subquery.select table columns filter).map (Spec.compile c)).render c.dialect sink =
        (.ok sql, sink') →
      ((∃ condition, sql = Subquery.head c.dialect table columns ++ " WHERE " ++ condition) ↔
        ∃ s, filter = some s ∧ ¬ s.Vacuous c.registry) ∧
      (¬ (∃ s, filter = some s ∧ ¬ s.Vacuous c.registry) →
        sql = Subquery.head c.dialect table columns ∧ sink' = sink) := by
  -- The texts that are empty, the operands of junctions, and the filters of selections.
  refine ⟨fun s sink sql sink' hrun => ?_, fun j operands operands' hsame s s' hs hs' sink sql
    sink' hrun => ?_, fun table columns filter sink sql sink' hrun => ?_⟩
  · have hvacuous : s.Vacuous c.registry → sql = "" ∧ sink' = sink := by
      intro h
      rw [compileInto, h.compile] at hrun
      obtain ⟨hsql, hsink⟩ := pure_eq_ok.1 hrun
      exact ⟨hsql.symm, hsink.symm⟩
    refine ⟨⟨?_, fun h => (hvacuous h).1⟩, fun h => (hvacuous h).2⟩
    rintro rfl
    exact Spec.vacuous_of_compile hrun
  · rw [compileInto, Spec.compile_of_read hs, Condition.map_junction] at hrun
    rw [compileInto, Spec.compile_of_read hs', Condition.map_junction]
    exact Condition.render_junction_sameBut c.dialect j (hsame.map fun _ h => h.compile) hrun
  · rcases Subquery.render_select_cases hrun with
      ⟨s, condition, rfl, hnot, -, hsql⟩ | ⟨hfilter, rfl, rfl⟩
    · have hpresent : ∃ s', some s = some s' ∧ ¬ s'.Vacuous c.registry := ⟨s, rfl, hnot⟩
      exact ⟨iff_of_true ⟨condition, hsql⟩ hpresent, fun h => absurd hpresent h⟩
    · refine ⟨iff_of_false ?_ ?_, fun _ => ⟨rfl, rfl⟩⟩
      · rintro ⟨condition, hsql⟩
        exact Subquery.append_where_ne _ condition hsql.symm
      · rintro ⟨s, hs, hnot⟩
        exact hnot (hfilter s hs)

/-- The negation of a vacuous test is vacuous; beside a test that binds it comes and
goes, and it is no filter. -/
theorem compileInto_vacuous_negated :
    let c : Compiler := ⟨⟨.standard, QuoteStyle.bare.quoter⟩, .standard⟩
    let vacuous : Spec := .condition (.negation
      (.condition (.membership [.name "a"] .negative (.members []))))
    let test : Spec := .condition (.comparison (.name "a") ⟨"=", by decide⟩ (.value (.int 1)))
    vacuous.Vacuous c.registry ∧ c.compileInto vacuous .empty = (.ok "", .empty) ∧
      c.compileInto (.condition (.junction .or [test])) .empty =
        (.ok "a = :p0", ⟨[("p0", .int 1)]⟩) ∧
      c.compileInto (.condition (.junction .or [vacuous, test, vacuous])) .empty =
        (.ok "a = :p0", ⟨[("p0", .int 1)]⟩) ∧
      ((Subquery.select "t" [] (some vacuous)).map (Spec.compile c)).render c.dialect .empty =
        (.ok "SELECT * FROM t", .empty) := by
  intro c vacuous test
  have hvacuous : vacuous.Vacuous c.registry := .negation (.noMembers _)
  have htest : test.compile c = Condition.render c.dialect
      (.comparison (.name "a") ⟨"=", by decide⟩ (.value (.int 1))) := Spec.compile_condition c _
  have hrun : c.compileInto (.condition (.junction .or [test])) .empty =
      (.ok "a = :p0", ⟨[("p0", .int 1)]⟩) := by
    rw [compileInto, Spec.compile_condition, Condition.map_junction, List.map_singleton, htest]
    subst c
    rfl
  obtain ⟨hempty, hjunction, hselect⟩ := compileInto_vacuous c
  obtain ⟨sql, sink, hsome⟩ : ∃ sql sink, c.compileInto vacuous .empty = (.ok sql, sink) :=
    ⟨_, _, congrFun hvacuous.compile .empty⟩
  obtain ⟨hsql, hsink⟩ := hempty vacuous .empty sql sink hsome
  obtain rfl : sql = "" := hsql.2 hvacuous
  obtain rfl : sink = .empty := hsink hvacuous
  refine ⟨hvacuous, hsome, hrun, ?_, ?_⟩
  · exact hjunction .or [test] [vacuous, test, vacuous]
      (.right hvacuous (.cons test (.right hvacuous .nil))) _ _ rfl rfl _ _ _ hrun
  · obtain ⟨sql, sink, hselection⟩ : ∃ sql sink,
        ((Subquery.select "t" [] (some vacuous)).map (Spec.compile c)).render c.dialect .empty =
          (.ok sql, sink) := by
      rw [Subquery.map_select, Option.map_some, hvacuous.compile]
      exact ⟨_, _, rfl⟩
    obtain ⟨rfl, rfl⟩ := (hselect "t" [] (some vacuous) .empty sql sink hselection).2 (by
      rintro ⟨s, hs, hnot⟩
      exact hnot (Option.some.inj hs ▸ hvacuous))
    exact hselection

end Compiler

end WhereClause
