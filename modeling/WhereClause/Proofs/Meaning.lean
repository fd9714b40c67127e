/-
WhereClause/Proofs/Meaning.lean

The text of a condition keeps its Boolean structure.  A specification has a
formula of its own, over the tests that it makes: a hash is the conjunction of
its entries, a junction joins those operands that place a constraint, and so on.
Its text, read back with the usual precedence, is that formula.

The invariant is that the text of any condition reads as its formula when it
stands alone; parentheses are put around it wherever it stands beside something
else, and only there are they needed.

Main results: each node reads as its formula if what stands in it does
(`Condition.mirrors_formula`), and so the text of a specification has the truth
value of its formula, whatever that of its tests (`Spec.value?_compile`).
-/
import WhereClause.Compiler
import WhereClause.Proofs.Agreement
import WhereClause.Proofs.Formula
import WhereClause.Proofs.Render.Runs

namespace WhereClause

/-! ### Texts that read as a formula -/

namespace Formula

/-- A text whose tests may be labelled at will, and which then reads as the
formula of the labels when it stands alone. -/
def Spells (f : Formula String) (sql : String) : Prop :=
  ∀ (A : Type) (text : A → String) (g : Formula A), g.map text = f →
    ∃ ts, Token.spellAll text ts = sql ∧ Token.Stands ts g

/-- A text that does so wherever an operand may stand. -/
def SpellsOperand (f : Formula String) (sql : String) : Prop :=
  ∀ (A : Type) (text : A → String) (g : Formula A), g.map text = f →
    ∃ ts, Token.spellAll text ts = sql ∧ Token.IsOperand ts g

/-- What can be an operand can stand alone. -/
theorem SpellsOperand.spells {f : Formula String} {sql : String} (h : f.SpellsOperand sql) :
    f.Spells sql := by
  intro A text g hg
  obtain ⟨ts, hts, hop⟩ := h A text g hg
  exact ⟨ts, hts, hop.stands⟩

/-- A test is spelled by its own text, as one token. -/
theorem SpellsOperand.of_test (sql : String) : (test sql).SpellsOperand sql := by
  intro A text g hg
  cases g with
  | test a =>
    refine ⟨[.test a], ?_, .of_test a⟩
    simpa [Token.spellAll, Token.spell, map] using hg
  | negation g => exact absurd hg (by simp [map])
  | junction j g g' => exact absurd hg (by simp [map])

/-- What is negated is an operand, so that `NOT` reaches as far as it is meant to and no
farther. -/
theorem SpellsOperand.negation {f : Formula String} {sql : String} (h : f.SpellsOperand sql) :
    (Formula.negation f).SpellsOperand ("NOT " ++ sql) := by
  intro A text g hg
  cases g with
  | test a => exact absurd hg (by simp [map])
  | negation g =>
    obtain ⟨ts, rfl, hop⟩ := h A text g (by simpa [map] using hg)
    refine ⟨.negation :: ts, ?_, hop.negation⟩
    simp [Token.spellAll, Token.spell]
  | junction j g g' => exact absurd hg (by simp [map])

/-- Parentheses make an operand of whatever is spelled. -/
theorem Spells.parenthesized {f : Formula String} {sql : String} (h : f.Spells sql) :
    f.SpellsOperand (parenthesized sql) := by
  intro A text g hg
  obtain ⟨ts, rfl, hstands⟩ := h A text g hg
  refine ⟨.opening :: ts ++ [.closing], ?_, hstands.parenthesized⟩
  simp [Token.spellAll, Token.spell, WhereClause.parenthesized, String.append_assoc]

/-! ### Junctions of texts -/

/-- To intercalate is to put the separator before all but the first. -/
theorem intercalate_eq_join (sep s : String) (ss : List String) :
    sep.intercalate (s :: ss) = s ++ String.join (ss.map (sep ++ ·)) := by
  induction ss generalizing s with
  | nil => simp
  | cons t ss ih =>
    rw [String.intercalate_cons_cons, ih, List.map_cons, String.join_cons, String.append_assoc,
      String.append_assoc]

/-- The tokens of several clauses, one after the other, with the word of the junction between
them. -/
theorem exists_tokens_of_forall₂ (j : Junction) {fs : List (Formula String)} {ss : List String}
    (h : List.Forall₂ SpellsOperand fs ss) {A : Type} (text : A → String) (gs : List (Formula A))
    (hgs : gs.map (map text) = fs) :
    ∃ tss, Token.spellAll text (Token.joinedTail j tss) =
        String.join (ss.map ((" " ++ j.text ++ " ") ++ ·)) ∧
      List.Forall₂ Token.IsOperand tss gs := by
  induction h generalizing gs with
  | nil =>
    obtain rfl := List.map_eq_nil_iff.1 hgs
    exact ⟨[], rfl, .nil⟩
  | cons hf _ ih =>
    obtain ⟨g, gs, rfl, hg, hgs⟩ := List.map_eq_cons_iff.1 hgs
    obtain ⟨ts, rfl, hop⟩ := hf A text g hg
    obtain ⟨tss, htss, hops⟩ := ih gs hgs
    refine ⟨ts :: tss, ?_, .cons hop hops⟩
    rw [List.map_cons, String.join_cons, ← htss]
    simp [Token.spellAll, Token.joinedTail, Token.spell, String.append_assoc]

/-- **Texts of operands that are joined read as the junction.** -/
theorem Spells.joined (j : Junction) {f : Formula String} {s : String}
    {fs : List (Formula String)} {ss : List String} (h : f.SpellsOperand s)
    (hs : List.Forall₂ SpellsOperand fs ss) :
    (Formula.joined j f fs).Spells ((" " ++ j.text ++ " ").intercalate (s :: ss)) := by
  intro A text g hg
  obtain ⟨g₀, gs, rfl, hg₀, hgs⟩ := exists_of_map_eq_joined hg
  obtain ⟨ts, rfl, hop⟩ := h A text g₀ hg₀
  obtain ⟨tss, htss, hops⟩ := exists_tokens_of_forall₂ j hs text gs hgs
  refine ⟨ts ++ Token.joinedTail j tss, ?_, .joined j hop hops⟩
  rw [intercalate_eq_join, ← htss]
  simp [Token.spellAll]

end Formula

/-! ### The formula of a specification -/

/-- A text that is a single test, or places no constraint. -/
def Formula.ofText (sql : String) : Option (Formula String) :=
  if sql.isEmpty then none else some (.test sql)

namespace Membership

/-- How the test for null is joined to the rest. -/
def nullJunction : Polarity → Junction
  | .positive => .or
  | .negative => .and

/-- The formula of a test against members as they are written. -/
def formula (column : String) (polarity : Polarity) (members : List (Option String)) :
    Option (Formula String) :=
  match listTest column polarity (members.filterMap id), members.any Option.isNone with
  | none, false => Formula.ofText polarity.overNothing
  | none, true => some (.test (nullTest column polarity))
  | some t, false => some (.test t)
  | some t, true =>
    some (.junction (nullJunction polarity) (.test t) (.test (nullTest column polarity)))

/-- Only members of one column can be null. -/
def renderFormula (d : Dialect) (columns : List PlainColumn) (polarity : Polarity)
    (candidates : Candidates (Render String)) : Render (Option (Formula String)) :=
  match columns, candidates with
  | [column], .members (m :: ms) => do
    let members ← (m :: ms).mapM fun m =>
      renderMember d (polarity.apply "IN") (entryUnder column m)
    return formula (column.text d) polarity members
  | columns, candidates => do return Formula.ofText (← render d columns polarity candidates)

end Membership

/-- A list asks a test of membership of its column, and all else is one test. -/
def HashTest.formula (d : Dialect) (column : String) :
    HashTest (Render String) → Render (Option (Formula String))
  | .list items => Membership.renderFormula d [.name column] .positive (.members items)
  | test => do return Formula.ofText (← test.render d column)

/-- The formula of a node, given those of the conditions that stand in it. -/
def Condition.formula (d : Dialect) :
    Condition (Render String) → List (Render (Option (Formula String))) →
    Render (Option (Formula String))
  | .hash entries, _ => do
    let tests ← entries.mapM fun e => e.2.formula d e.1
    return Formula.joined? .and (tests.filterMap id)
  | .membership columns polarity candidates, _ =>
    Membership.renderFormula d columns polarity candidates
  | .pattern column operator (p :: ps) escaping, _ => do
    let column ← column.render d
    let patterns ← (p :: ps).mapM (Pattern.render d (d.options.escapeTable escaping))
    return Formula.joined? operator.junction
      ((Pattern.clauses d operator column patterns).map .test)
  | .negation _, inner :: _ => do return (← Render.within .negated inner).map .negation
  | .junction j _, operands => do
    let operands ← operands.zipIdx.mapM fun (r, i) => Render.within (.operand (i + 1) j) r
    return Formula.joined? j (operands.filterMap id)
  | .existence polarity q, _ => do
    let test := Formula.test ("EXISTS " ++ parenthesized (← q.render d))
    return some (match polarity with
      | .positive => test
      | .negative => .negation test)
  | c, _ => do return Formula.ofText (← c.render d)

/-- What a level means, given what is meant by all that stands in it. -/
def Reading.formula (d : Dialect) : Reading (Render String) →
    List (Render (Option (Formula String))) → Render (Option (Formula String))
  | .text sql, _ => pure (Formula.ofText sql)
  | .failed e, _ => Render.fail e
  | .node c, inner => c.formula d inner

/-- The formula of a specification over the texts of its tests, if it places any
constraint.  It is found as the text is written, since tests hold placeholders. -/
def Spec.formula (c : Compiler) (s : Spec) : Render (Option (Formula String)) :=
  ((s.read c.registry).map (compile c)).formula c.dialect
    ((s.read c.registry).nested.attach.map fun t => t.1.formula c)
termination_by sizeOf s
decreasing_by
  exact sizeOf_lt_of_mem_read t.2

/-- What a specification means is decided level by level. -/
theorem Spec.formula_eq (c : Compiler) (s : Spec) :
    s.formula c = ((s.read c.registry).map (compile c)).formula c.dialect
      ((s.read c.registry).nested.map (formula c)) := by
  rw [formula, List.attach_map_val (f := formula c)]

/-! ### Texts with a formula -/

namespace Formula

/-- A text reads as a formula, or is empty if there is none. -/
def Means (sql : String) : Option (Formula String) → Prop
  | none => sql = ""
  | some f => sql ≠ "" ∧ f.Spells sql

/-- A text means the test that it is, and the empty text means nothing. -/
theorem means_ofText (sql : String) : Means sql (ofText sql) := by
  rw [ofText]
  split
  · next h => exact String.isEmpty_iff.1 h
  · next h =>
    have hne : sql ≠ "" := fun hempty => h (String.isEmpty_iff.2 hempty)
    exact ⟨hne, (SpellsOperand.of_test sql).spells⟩

/-- A text that is not empty means a test. -/
theorem means_test {sql : String} (h : sql ≠ "") : Means sql (some (test sql)) :=
  ⟨h, (SpellsOperand.of_test sql).spells⟩

/-- Parentheses alone are something. -/
theorem parenthesized_ne_empty (sql : String) : WhereClause.parenthesized sql ≠ "" := by
  simp [WhereClause.parenthesized]

/-- A single clause passes through; several get parentheses each. -/
theorem means_join (j : Junction) {sqls : List String} {fs : List (Formula String)}
    (h : List.Forall₂ (fun sql f => sql ≠ "" ∧ f.Spells sql) sqls fs) :
    Means (j.join sqls) (joined? j fs) := by
  cases h with
  | nil => rfl
  | @cons s f ss gs hf hs =>
    cases ss with
    | nil =>
      cases hs
      exact hf
    | cons t ss =>
      -- In its parentheses each part is an operand, whatever it is made of.
      show Means ((" " ++ j.text ++ " ").intercalate
        ((s :: t :: ss).map WhereClause.parenthesized)) (some (joined j f gs))
      rw [List.map_cons]
      refine ⟨?_, .joined j hf.2.parenthesized ?_⟩
      · rw [List.map_cons, String.intercalate_cons_cons]
        simp [parenthesized_ne_empty]
      · rw [List.forall₂_map_right_iff]
        exact hs.flip.imp fun _ _ h => h.2.parenthesized

/-- Operands without a constraint are left out, of the text and of the formula. -/
theorem forall₂_filter_of_means {sqls : List String} {os : List (Option (Formula String))}
    (h : List.Forall₂ Means sqls os) :
    List.Forall₂ (fun sql f => sql ≠ "" ∧ f.Spells sql) (sqls.filter (!·.isEmpty))
      (os.filterMap id) := by
  induction h with
  | nil => exact .nil
  | @cons sql o _ _ ho _ ih =>
    cases o with
    | none =>
      obtain rfl : sql = "" := ho
      exact ih
    | some f =>
      have hne : (!sql.isEmpty) = true := by simpa using ho.1
      rw [List.filter_cons_of_pos (p := fun s : String => !s.isEmpty) hne]
      exact .cons ho ih

/-- Where no clause is empty, none is left out. -/
theorem filter_eq_self_of_ne_empty {sqls : List String} (h : ∀ sql ∈ sqls, sql ≠ "") :
    sqls.filter (!·.isEmpty) = sqls :=
  List.filter_eq_self.2 fun sql hsql => by simpa using h sql hsql

end Formula

/-! ### Membership tests -/

namespace Membership

open Formula

/-- A test for null is never empty. -/
theorem nullTest_ne_empty (column : String) (polarity : Polarity) :
    nullTest column polarity ≠ "" := by
  cases polarity <;> simp [nullTest]

/-- A test against members is never empty. -/
theorem listTest_ne_empty {column : String} {polarity : Polarity} {members : List String}
    {t : String} (h : listTest column polarity members = some t) : t ≠ "" := by
  unfold listTest at h
  split at h
  · exact absurd h (by simp)
  · cases polarity <;> obtain rfl := Option.some.inj h <;> simp
  · obtain rfl := Option.some.inj h
    simp

/-- A test for null beside others is joined to them in parentheses. -/
theorem means_withNullTest (t nulls : String) (polarity : Polarity) :
    Means (withNullTest t nulls polarity)
      (some (.junction (nullJunction polarity) (.test t) (.test nulls))) := by
  have hjoined := Spells.joined (nullJunction polarity) (SpellsOperand.of_test t)
    (.cons (SpellsOperand.of_test nulls) .nil)
  rw [String.intercalate_cons_cons, String.intercalate_singleton] at hjoined
  have htext : withNullTest t nulls polarity =
      parenthesized (t ++ (" " ++ (nullJunction polarity).text ++ " ") ++ nulls) := by
    cases polarity <;> rfl
  rw [htext]
  exact ⟨parenthesized_ne_empty _, hjoined.parenthesized.spells⟩

/-- **What is written for members means what was asked of them**, null among them or not. -/
theorem means_formula (column : String) (polarity : Polarity) (members : List (Option String)) :
    Means (test column polarity members) (formula column polarity members) := by
  rw [test, formula]
  cases ht : listTest column polarity (members.filterMap id) with
  | none =>
    cases members.any Option.isNone with
    | false => exact means_ofText _
    | true => exact means_test (nullTest_ne_empty column polarity)
  | some t =>
    cases members.any Option.isNone with
    | false => exact means_test (listTest_ne_empty ht)
    | true => exact means_withNullTest t _ polarity

/-- The text and the meaning of a test of membership come from the same steps, so they succeed
together and bind the same. -/
theorem mirrors_renderFormula (d : Dialect) (columns : List PlainColumn) (polarity : Polarity)
    (candidates : Candidates (Render String)) :
    Render.Mirrors Means (render d columns polarity candidates)
      (renderFormula d columns polarity candidates) := by
  unfold renderFormula
  split
  · next column m ms =>
    exact .bind_same _ fun members => .pure (means_formula (column.text d) polarity members)
  · -- Elsewhere the formula is that of the text itself.
    have hsame := Render.Mirrors.bind (N := Means)
      (Render.Mirrors.refl (render d columns polarity candidates))
      (f := pure) (g := fun sql => pure (ofText sql)) fun sql _ h => h ▸ .pure (means_ofText sql)
    rwa [bind_pure] at hsame

/-- Without members a positive test is false, and is written. -/
theorem test_ne_empty (column : String) (members : List (Option String)) :
    test column .positive members ≠ "" := by
  rw [test]
  cases ht : listTest column .positive (members.filterMap id) with
  | none =>
    cases members.any Option.isNone with
    | false => simp [Polarity.overNothing]
    | true => exact nullTest_ne_empty column .positive
  | some t =>
    cases members.any Option.isNone with
    | false => exact listTest_ne_empty ht
    | true => exact parenthesized_ne_empty _

/-- A positive test of membership is never empty, so that no clause of a hash is. -/
theorem yields_render (d : Dialect) (columns : List PlainColumn)
    (candidates : Candidates (Render String)) :
    Render.Yields (· ≠ "") (render d columns .positive candidates) := by
  unfold render
  split
  · split
    · exact .pure (by simp [Polarity.overNothing])
    · exact .bind fun sql => .pure (by simp)
  · exact .pure (by simp [Polarity.overNothing])
  · split
    · exact .pure (by simp [Polarity.overNothing])
    · exact .bind fun members => .pure (test_ne_empty _ members)
    · exact .bind fun rows => .pure (by simp)

end Membership

/-! ### Nodes -/

open Formula Render

/-- A step that writes a text, and its formula if that is a single test. -/
theorem mirrors_ofText (x : Render String) :
    Mirrors Means x (do return Formula.ofText (← x)) := by
  intro sink sql sink' hrun
  exact ⟨ofText sql, bind_eq_ok.2 ⟨sql, sink', hrun, rfl⟩, means_ofText sql⟩

/-- The test of an entry and what it means. -/
theorem HashTest.mirrors_formula (d : Dialect) (column : String)
    (test : HashTest (Render String)) :
    Mirrors Means (test.render d column) (test.formula d column) := by
  cases test with
  | list items => exact Membership.mirrors_renderFormula d [.name column] .positive (.members items)
  | scalar s => exact mirrors_ofText _

/-- The test of a hash always asks for something. -/
theorem HashTest.yields_render (d : Dialect) (column : String) (test : HashTest (Render String)) :
    Yields (· ≠ "") (test.render d column) := by
  cases test with
  | list items => exact Membership.yields_render d [.name column] (.members items)
  | scalar s =>
    cases s with
    | null => exact .pure (by simp)
    | value v => exact .bind fun placeholder => .pure (by simp)
    | raw sql => exact .pure (by simp)
    | subquery q => exact Membership.yields_render d [.name column] (.subquery q)

namespace Condition

/-- A hash means the conjunction of its tests, none of which is vacuous. -/
theorem mirrors_hash (d : Dialect) (entries : List (String × HashTest (Render String)))
    (inner : List (Render (Option (Formula String)))) :
    Mirrors Means ((hash entries).render d) ((hash entries).formula d inner) := by
  -- Each entry is written and has a formula; that none is empty is kept beside it.
  have htests : Mirrors (List.Forall₂ fun sql o => sql ≠ "" ∧ Means sql o)
      (entries.mapM fun e => e.2.render d e.1) (entries.mapM fun e => e.2.formula d e.1) := by
    apply Mirrors.mapM (P := (· = ·)) (List.forall₂_same.2 fun _ _ => rfl)
    rintro e _ rfl
    have hyields := HashTest.yields_render d e.1 e.2
    exact (HashTest.mirrors_formula d e.1 e.2).and_yields hyields
  apply htests.bind
  intro sqls os h
  obtain ⟨hne, hmeans⟩ := (List.forall₂_and_left sqls os).1 h
  apply Mirrors.pure
  -- No entry is dropped from the text, and none would be.
  rw [← filter_eq_self_of_ne_empty hne]
  exact means_join .and (forall₂_filter_of_means hmeans)

/-- A clause has the column and the operator in it, whatever the pattern. -/
theorem clauses_ne_empty {d : Dialect} {operator : LikeOperator} {column : String}
    {patterns : List String} {clause : String}
    (h : clause ∈ Pattern.clauses d operator column patterns) : clause ≠ "" := by
  obtain ⟨p, -, rfl⟩ := List.mem_map.1 h
  simp

/-- The clauses of a pattern test stand beside each other without parentheses. -/
theorem means_clauses (j : Junction) {clauses : List String} (h : ∀ s ∈ clauses, s ≠ "") :
    Means ((" " ++ j.text ++ " ").intercalate clauses) (joined? j (clauses.map .test)) := by
  cases clauses with
  | nil => exact String.intercalate_nil
  | cons s ss =>
    -- A clause is a single test, and so an operand without parentheses.
    refine ⟨?_, .joined j (.of_test s) ?_⟩
    · have hs : s ≠ "" := h s (by simp)
      rw [intercalate_eq_join]
      simp [hs]
    · rw [List.forall₂_map_left_iff]
      exact List.forall₂_same.2 fun t _ => .of_test t

/-- A pattern test means its clauses, joined as its operator says. -/
theorem mirrors_pattern (d : Dialect) (column : Column (Render String)) (operator : LikeOperator)
    (patterns : List (Pattern (Render String))) (escaping : Escaping)
    (inner : List (Render (Option (Formula String)))) :
    Mirrors Means ((pattern column operator patterns escaping).render d)
      ((pattern column operator patterns escaping).formula d inner) := by
  cases patterns with
  | nil => exact mirrors_ofText _
  | cons p ps =>
    apply Mirrors.bind_same
    intro column
    apply Mirrors.bind_same
    intro patterns
    exact .pure (means_clauses operator.junction fun clause h => clauses_ne_empty h)

/-- Negation means what it says, unless what it negates means nothing. -/
theorem means_negated {sql : String} {o : Option (Formula String)} (h : Means sql o) :
    Means (negated sql) (o.map .negation) := by
  cases o with
  | none =>
    obtain rfl : sql = "" := h
    rfl
  | some f =>
    have htext : negated sql = "NOT " ++ parenthesized sql := if_neg (by simpa using h.1)
    rw [htext]
    refine ⟨by simp, ?_⟩
    exact h.2.parenthesized.negation.spells

/-- An existence test is one token in either polarity. -/
theorem means_existence (polarity : Polarity) (q : String) :
    Means (polarity.apply "EXISTS" ++ " " ++ parenthesized q)
      (some (match polarity with
        | .positive => Formula.test ("EXISTS " ++ parenthesized q)
        | .negative => .negation (.test ("EXISTS " ++ parenthesized q)))) := by
  cases polarity with
  | positive => exact means_test (by simp)
  | negative =>
    refine ⟨by simp, ?_⟩
    exact (SpellsOperand.of_test ("EXISTS " ++ parenthesized q)).negation.spells

/-- The operands of a junction mean what they are, in their order. -/
theorem mirrors_operands (j : Junction) {rs : List (Render String)}
    {fs : List (Render (Option (Formula String)))} (h : List.Forall₂ (Mirrors Means) rs fs) :
    Mirrors (List.Forall₂ Means) (renderOperands j rs)
      (fs.zipIdx.mapM fun (r, i) => within (.operand (i + 1) j) r) := by
  refine .mapM (forall₂_zipIdx h 0) ?_
  rintro ⟨r, i⟩ ⟨f, -⟩ ⟨hrf, rfl⟩
  exact hrf.within _

/-- **Each node reads as its formula** if what stands in it does. -/
theorem mirrors_formula (d : Dialect) (c : Condition (Render String))
    {inner : List (Render (Option (Formula String)))}
    (h : List.Forall₂ (Mirrors Means) c.nested inner) :
    Mirrors Means (c.render d) (c.formula d inner) := by
  cases c with
  | hash entries => exact mirrors_hash d entries inner
  | comparison column operator value => exact mirrors_ofText _
  | membership columns polarity candidates =>
    exact Membership.mirrors_renderFormula d columns polarity candidates
  | between column polarity low high => exact mirrors_ofText _
  | betweenColumns value polarity low high => exact mirrors_ofText _
  | pattern column operator patterns escaping =>
    exact mirrors_pattern d column operator patterns escaping inner
  | negation r =>
    cases h with
    | cons hr hrs =>
      cases hrs
      apply (hr.within .negated).bind
      intro sql o ho
      exact .pure (means_negated ho)
  | junction j rs =>
    apply (mirrors_operands j h).bind
    intro sqls os hos
    -- What is empty in the text has no formula, and both are left out.
    exact .pure (means_join j (forall₂_filter_of_means hos))
  | existence polarity q =>
    apply Mirrors.bind_same
    intro sql
    exact .pure (means_existence polarity sql)

end Condition

/-- The induction is on the levels of the specification: what stands in a node is written and
meant alike, so the node is. -/
theorem Spec.mirrors_formula (c : Compiler) (s : Spec) :
    Mirrors Means (s.compile c) (s.formula c) := by
  induction s using Spec.induction_read c.registry with
  | step s ih =>
    rw [compile_eq, formula_eq]
    cases hr : s.read c.registry with
    | text sql => exact .pure (means_ofText sql)
    | failed e => exact .fail e _
    | node x =>
      rw [hr] at ih
      refine Condition.mirrors_formula c.dialect (x.map (compile c)) ?_
      rw [Condition.nested_map, List.forall₂_map_left_iff, List.forall₂_map_right_iff]
      exact List.forall₂_same.2 ih

/-- **The Boolean structure of a specification survives in its text.**  A text that
is not empty belongs to a formula; however its tests are labelled, the text can be
divided into tests and connectives that read as that formula, and so have its truth
value, whatever the truth of each test. -/
theorem Spec.value?_compile (c : Compiler) (s : Spec) (sink sink' : Sink) (sql : String)
    (hrun : c.compileInto s sink = (.ok sql, sink')) (hne : sql ≠ "") :
    ∃ f : Formula String, s.formula c sink = (.ok (some f), sink') ∧
      ∀ (A : Type) (text : A → String) (g : Formula A), g.map text = f →
        ∃ ts : List (Token A), Token.spellAll text ts = sql ∧ Token.read? ts = some g ∧
          ∀ v : A → Truth, Token.value? v ts = some (g.value v) := by
  obtain ⟨o, hformula, hmeans⟩ := s.mirrors_formula c sink sql sink' hrun
  cases o with
  | none => exact absurd hmeans hne
  | some f =>
    refine ⟨f, hformula, fun A text g hg => ?_⟩
    obtain ⟨ts, hts, hstands⟩ := hmeans.2 A text g hg
    have hread : Token.read? ts = some g := Token.read?_of_stands hstands
    refine ⟨ts, hts, hread, fun v => ?_⟩
    rw [Token.value?, hread]
    rfl

/-- A disjunction with a negation in it. -/
theorem Spec.value?_compile_nested :
    let c : Compiler := ⟨⟨.standard, QuoteStyle.bare.quoter⟩, .empty⟩
    let s : Spec := .condition (.junction .or [.raw "a", .condition (.negation (.raw "b"))])
    c.compileInto s .empty = (.ok "(a) OR (NOT (b))", .empty) ∧
      ∃ f : Formula String, s.formula c .empty = (.ok (some f), .empty) ∧
        ∀ (A : Type) (text : A → String) (g : Formula A), g.map text = f →
          ∃ ts : List (Token A), Token.spellAll text ts = "(a) OR (NOT (b))" ∧
            Token.read? ts = some g ∧
              ∀ v : A → Truth, Token.value? v ts = some (g.value v) := by
  intro c s
  have hraw : ∀ sql, (Spec.raw sql).compile c = pure sql := fun sql => Spec.compile_eq c _
  have hnot : (Spec.condition (.negation (.raw "b"))).compile c = pure "NOT (b)" := by
    rw [Spec.compile_eq]
    show Condition.render c.dialect (.negation ((Spec.raw "b").compile c)) = _
    rw [hraw]
    rfl
  have hrun : c.compileInto s .empty = (.ok "(a) OR (NOT (b))", .empty) := by
    rw [Compiler.compileInto, Spec.compile_eq]
    show Condition.render c.dialect (.junction .or
      [(Spec.raw "a").compile c, (Spec.condition (.negation (.raw "b"))).compile c]) .empty = _
    rw [hraw, hnot]
    rfl
  exact ⟨hrun, Spec.value?_compile c s .empty .empty _ hrun (by decide)⟩

end WhereClause
