/-
WhereClause/Proofs/Search.lean

Pattern tests as searches.  A test of texts and integers is a clause for each of
them; a clause is true of a text that is like the pattern behind its placeholder,
with the escape character that the clause declares.

Main results: the fragment for texts is made of clauses that find their patterns in
the sink (`Compiler.build_texts`), and unless a percent sign is the escape character
it searches its column for the texts themselves
(`Compiler.likeEscape_ne_percent_iff_isSearch`).
-/
import WhereClause.Proofs.Delimited
import WhereClause.Proofs.Meaning
import WhereClause.Proofs.Render.Found
import WhereClause.Proofs.Wildcard

namespace WhereClause

open Render

/-! ### What an operator asks of texts -/

/-- Of all, of some, of none, or not of all. -/
def LikeOperator.Asks {α : Type} (o : LikeOperator) (P : α → Prop) (as : List α) : Prop :=
  match o.junction, o.polarity with
  | .and, .positive => ∀ a ∈ as, P a
  | .or, .positive => ∃ a ∈ as, P a
  | .and, .negative => ∀ a ∈ as, ¬ P a
  | .or, .negative => ¬ ∀ a ∈ as, P a

def Polarity.Asks (p : Polarity) (P : Prop) : Prop :=
  match p with
  | .positive => P
  | .negative => ¬ P

def Junction.Asks {α : Type} (j : Junction) (P : α → Prop) (as : List α) : Prop :=
  match j with
  | .and => ∀ a ∈ as, P a
  | .or => ∃ a ∈ as, P a

/-- What an operator asks of several patterns: its junction of what it asks of each. -/
theorem LikeOperator.asks_iff {α : Type} (o : LikeOperator) (P : α → Prop) (as : List α) :
    o.Asks P as ↔ o.junction.Asks (fun a => o.polarity.Asks (P a)) as := by
  obtain ⟨j, p, ignoresCase⟩ := o
  cases j with
  | and => cases p <;> exact Iff.rfl
  | or =>
    cases p with
    | positive => exact Iff.rfl
    | negative =>
      show (¬ ∀ a ∈ as, P a) ↔ ∃ a ∈ as, ¬ P a
      simp only [not_forall, exists_prop]

/-- What is asked of items may as well be asked of others that correspond to them. -/
theorem Junction.asks_congr {α β : Type} (j : Junction) {P : α → Prop} {Q : β → Prop} {as : List α}
    {bs : List β} (h : List.Forall₂ (fun a b => P a ↔ Q b) as bs) : j.Asks P as ↔ j.Asks Q bs := by
  induction h with
  | nil => cases j <;> simp [Asks]
  | cons hab _ ih =>
    cases j with
    | and =>
      simp only [Asks, List.forall_mem_cons] at ih ⊢
      exact and_congr hab ih
    | or =>
      simp only [Asks, List.exists_mem_cons_iff] at ih ⊢
      exact or_congr hab ih

/-! ### Tests that are joined -/

theorem Truth.and_eq_true_iff {a b : Truth} : a.and b = .true ↔ a = .true ∧ b = .true := by
  cases a <;> cases b <;> decide

theorem Truth.or_eq_true_iff {a b : Truth} : a.or b = .true ↔ a = .true ∨ b = .true := by
  cases a <;> cases b <;> decide

/-- A junction of formulas is true as the junction says, of all or of some. -/
theorem Formula.value_joined_eq_true_iff {A : Type} (v : A → Truth) (j : Junction) (f : Formula A)
    (fs : List (Formula A)) :
    (joined j f fs).value v = .true ↔ j.Asks (fun g => g.value v = .true) (f :: fs) := by
  induction fs generalizing f with
  | nil => cases j <;> simp [joined, Junction.Asks]
  | cons g gs ih =>
    rw [joined, List.foldl_cons, ← joined, ih]
    cases j with
    | and =>
      simp only [Junction.Asks, List.forall_mem_cons, value, Junction.truth,
        Truth.and_eq_true_iff, and_assoc]
    | or =>
      simp only [Junction.Asks, List.exists_mem_cons_iff, value, Junction.truth,
        Truth.or_eq_true_iff, or_assoc]

namespace Token

variable {A : Type}

/-- Tests with a junction between them. -/
def joinedTests (j : Junction) : List A → List (Token A)
  | [] => []
  | a :: as => .test a :: joinedTail j (as.map ([.test ·]))

/-- The tokens of several tests, with the word of the junction between them. -/
theorem spellAll_joinedTests (text : A → String) (j : Junction) (as : List A) :
    spellAll text (joinedTests j as) = (" " ++ j.text ++ " ").intercalate (as.map text) := by
  cases as with
  | nil => rfl
  | cons a as =>
    have htail : spellAll text (joinedTail j (as.map ([.test ·]))) =
        String.join ((as.map text).map ((" " ++ j.text ++ " ") ++ ·)) := by
      induction as with
      | nil => rfl
      | cons a as ih =>
        simp only [spellAll, joinedTail] at ih
        simp [spellAll, joinedTail, spell, ih, String.append_assoc]
    rw [List.map_cons, Formula.intercalate_eq_join, ← htail]
    simp [spellAll, joinedTests, spell]

/-- Tests that are joined are true as the junction says. -/
theorem value?_joinedTests (v : A → Truth) (j : Junction) {as : List A} (h : as ≠ []) :
    value? v (joinedTests j as) = some .true ↔ j.Asks (fun a => v a = .true) as := by
  obtain ⟨a, as, rfl⟩ := List.exists_cons_of_ne_nil h
  have htail : List.Forall₂ IsOperand (as.map ([Token.test ·])) (as.map Formula.test) := by
    rw [List.forall₂_map_left_iff, List.forall₂_map_right_iff]
    exact List.forall₂_same.2 fun a _ => .of_test a
  have hread : read? (joinedTests j (a :: as)) = some (.joined j (.test a) (as.map .test)) :=
    read?_of_stands (.joined j (.of_test a) htail)
  rw [value?, hread, Option.map_some, Option.some_inj, Formula.value_joined_eq_true_iff,
    ← List.map_cons]
  refine j.asks_congr ?_
  rw [List.forall₂_map_left_iff]
  exact List.forall₂_same.2 fun a _ => Iff.rfl

end Token

/-! ### Clauses -/

/-- The truth of a test that holds or not, negated or as it is. -/
def Polarity.truth : Polarity → Bool → Truth
  | .positive, true | .negative, false => .true
  | .positive, false | .negative, true => .false

/-- A negative pattern test is true where the pattern does not match. -/
theorem Polarity.truth_eq_true_iff {p : Polarity} {holds : Bool} :
    p.truth holds = .true ↔ p.Asks (holds = true) := by
  cases p <;> cases holds <;> simp [truth, Asks]

/-- A clause of a pattern test, in its parts. -/
structure LikeClause where
  column : String
  polarity : Polarity
  placeholder : String
  /-- The literal behind `ESCAPE`. -/
  escape : Option String

namespace LikeClause

def text (x : LikeClause) : String :=
  x.column ++ " " ++ x.polarity.apply "LIKE" ++ " " ++ x.placeholder ++
    match x.escape with
    | none => ""
    | some literal => " ESCAPE " ++ literal

/-- The escape character: a literal has to have one character, and without one it is
the backslash. -/
def escape? (x : LikeClause) : Option Char :=
  match x.escape with
  | none => some '\\'
  | some literal =>
    match Delimited.read? '\'' literal.toList with
    | some [c] => some c
    | _ => none

/-- The text that is bound to the placeholder, whose name stands behind its sigil. -/
def pattern? (x : LikeClause) (sink : Sink) : Option String :=
  match sink.get? (String.ofList x.placeholder.toList.tail) with
  | some (.text pattern) => some pattern
  | _ => none

/-- The pattern of a clause is looked up by the name in its placeholder. -/
theorem pattern?_eq_some {x : LikeClause} {sink : Sink} {pattern : String}
    (h : sink.get? (String.ofList x.placeholder.toList.tail) = some (.text pattern)) :
    x.pattern? sink = some pattern := by
  rw [pattern?, h]

/-- The truth of a clause where the column has the value `s`. -/
def truth (sink : Sink) (s : String) (x : LikeClause) : Truth :=
  match x.escape?, x.pattern? sink with
  | some escape, some pattern => x.polarity.truth (Wildcard.like escape pattern.toList s.toList)
  | _, _ => .unknown

/-- A clause is true as its pattern matches, with the character that the clause declares. -/
theorem truth_eq_true_iff {x : LikeClause} {sink : Sink} {escape : Char} {pattern : String}
    (hescape : x.escape? = some escape) (hpattern : x.pattern? sink = some pattern) (s : String) :
    x.truth sink s = .true ↔
      x.polarity.Asks (Wildcard.like escape pattern.toList s.toList = true) := by
  rw [truth, hescape, hpattern]
  exact Polarity.truth_eq_true_iff

end LikeClause

namespace Pattern

/-- A character as an SQL literal. -/
def escapeLiteral (c : Char) : String :=
  String.ofList ('\'' :: Identifier.doubled '\'' [c] ++ ['\''])

theorem escapeClause_some (c : Char) : escapeClause (some c) = " ESCAPE " ++ escapeLiteral c := by
  by_cases hc : c = '\''
  · subst hc
    rfl
  · rw [escapeClause, if_neg hc, escapeLiteral, Delimited.doubled_cons_of_ne hc]
    apply String.toList_inj.1
    simp [Identifier.doubled]

/-- The literal reads back as the one character, also if that is a quote. -/
theorem read?_escapeLiteral (c : Char) :
    Delimited.read? '\'' (escapeLiteral c).toList = some [c] := by
  rw [escapeLiteral, String.toList_ofList]
  exact Delimited.read?_eq_some_iff.2 rfl

end Pattern

/-! ### The fragment -/

namespace Pattern

/-- The clauses for placeholders. -/
def clausesFor (d : Dialect) (column : String) (polarity : Polarity)
    (placeholders : List String) : List LikeClause :=
  placeholders.map fun p => ⟨column, polarity, p, d.options.likeEscape.map escapeLiteral⟩

theorem escape?_clausesFor (d : Dialect) (column : String) (polarity : Polarity)
    (placeholder : String) :
    LikeClause.escape? ⟨column, polarity, placeholder, d.options.likeEscape.map escapeLiteral⟩ =
      some (d.options.likeEscape.getD '\\') := by
  rw [LikeClause.escape?]
  cases d.options.likeEscape with
  | none => rfl
  | some c =>
    rw [Option.map_some]
    simp only [read?_escapeLiteral]
    rfl

/-- The clauses that are written are those that are judged. -/
theorem clauses_eq (d : Dialect) {operator : LikeOperator} (hcase : operator.ignoresCase = false)
    (column : String) (placeholders : List String) :
    clauses d operator column placeholders =
      (clausesFor d column operator.polarity placeholders).map LikeClause.text := by
  have hcore : operator.core = operator.polarity.apply "LIKE" := by
    rw [LikeOperator.core, LikeOperator.base, hcase]
    rfl
  rw [clauses, clausesFor, List.map_map, hcore]
  refine List.map_congr_left fun p _ => ?_
  cases hescape : d.options.likeEscape with
  | none => rfl
  | some c =>
    rw [escapeClause_some]
    rfl

/-- Texts and integers stand for texts, and make the patterns of these. -/
theorem mapM_ofOperand_values (token : String) {values : List Value}
    (h : ∀ v ∈ values, v.type = .text ∨ v.type = .int) :
    ∃ texts : List String, values.map Value.patternText? = texts.map some ∧
      (values.map fun v => Operand.scalar (.value v)).mapM (ofOperand (S := Spec) token) =
        .ok (texts.map .text) := by
  induction values with
  | nil => exact ⟨[], rfl, rfl⟩
  | cons v vs ih =>
    obtain ⟨hv, hvs⟩ := List.forall_mem_cons.1 h
    obtain ⟨texts, htexts, hmapM⟩ := ih hvs
    obtain ⟨t, ht⟩ : ∃ t, v.patternText? = some t := by
      cases v with
      | text s => exact ⟨s, rfl⟩
      | int n => exact ⟨toString n.toInt, rfl⟩
      | _ => simp [Value.type] at hv
    have hoperand : ofOperand (S := Spec) token (.scalar (.value v)) = .ok (.text t) := by
      rw [ofOperand, ht]
    refine ⟨t :: texts, by rw [List.map_cons, ht, htexts, List.map_cons], ?_⟩
    rw [List.map_cons, List.mapM_cons, hoperand, hmapM]
    rfl

end Pattern

/-- The pattern tests of texts and integers are made as those of the texts that these
stand for. -/
theorem Condition.ofPatterns_values (column : Column Spec) {token : String}
    {operator : LikeOperator}
    (hoperator : LikeOperator.ofToken? (Operator.normalize token) = some operator)
    {values : List Value} (h : ∀ v ∈ values, v.type = .text ∨ v.type = .int) :
    ∃ texts : List String, values.map Value.patternText? = texts.map some ∧
      ofPatterns column token (.list (values.map fun v => .scalar (.value v))) .standard =
        .ok (.pattern column operator (texts.map .text) .standard) := by
  obtain ⟨texts, htexts, hmapM⟩ := Pattern.mapM_ofOperand_values token h
  have hknown : Operator.known (Operator.normalize token)
      (LikeOperator.ofToken? (Operator.normalize token)) = .ok operator := by
    rw [hoperator]
    rfl
  exact ⟨texts, htexts, Attempt.bind_eq_ok.2 ⟨operator, hknown,
    Attempt.bind_eq_ok.2 ⟨_, hmapM, rfl⟩⟩⟩

namespace Compiler

/-- **A test of texts is made of clauses that find their patterns in the sink.** -/
theorem build_texts (c : Compiler) {column : Column Spec} {text : String} {sink sink₁ : Sink}
    (hcolumn : (column.map (Spec.compile c)).render c.dialect sink = (.ok text, sink₁))
    (operator : LikeOperator) {texts : List String} (hne : texts ≠ []) :
    ∃ placeholders sink',
      c.build (.pattern column operator (texts.map .text) .standard) sink =
        (.ok ((" " ++ operator.junction.text ++ " ").intercalate
          (Pattern.clauses c.dialect operator text placeholders)), sink') ∧
      List.Forall₂ (fun p t => sink'.get? (String.ofList p.toList.tail) =
        some (.text (Pattern.ofText (c.dialect.options.escapeTable .standard) t)))
        placeholders texts := by
  let table := c.dialect.options.escapeTable .standard
  obtain ⟨placeholders, sink', hrun, -, hfound⟩ :=
    c.dialect.mapM_bind (texts.map fun t => .text (Pattern.ofText table t)) sink₁
  rw [List.forall₂_map_right_iff] at hfound
  refine ⟨placeholders, sink', ?_, hfound⟩
  rw [List.mapM_map] at hrun
  rw [build, Condition.map_pattern, List.map_map]
  obtain ⟨t, ts, rfl⟩ := List.exists_cons_of_ne_nil hne
  refine bind_eq_ok.2 ⟨text, sink₁, hcolumn, bind_eq_ok.2 ⟨placeholders, sink', ?_, rfl⟩⟩
  rw [List.mapM_map]
  exact hrun

/-- Built for the values, the fragment is true of exactly the texts in which all, some,
none or not all of them occur, as the operator says. -/
def IsSearch (c : Compiler) (column : Column Spec) (text : String) (sink : Sink)
    (values : List Value) (token : String) (operator : LikeOperator) : Prop :=
  ∃ node sql sink' placeholders texts,
    Condition.ofPatterns column token (.list (values.map fun v => .scalar (.value v))) .standard =
      .ok node ∧
    c.build node sink = (.ok sql, sink') ∧
    values.map Value.patternText? = texts.map some ∧
    placeholders.length = texts.length ∧
    let tokens := Token.joinedTests operator.junction
      (Pattern.clausesFor c.dialect text operator.polarity placeholders)
    Token.spellAll LikeClause.text tokens = sql ∧
      ∀ s : String, Token.value? (LikeClause.truth sink' s) tokens = some .true ↔
        operator.Asks (fun t : String => t.toList <:+: s.toList) texts

section

variable {c : Compiler} {column : Column Spec} {text : String} {sink sink₁ : Sink}

theorem escapeTable_standard {o : Options} (hunset : o.likeEscaping = none)
    (hescapes : o.escapesLikeValues = true) :
    o.escapeTable .standard = some (Options.wildcardEscaping (o.likeEscape.getD '\\')) := by
  rw [Options.escapeTable, if_pos hescapes, Options.effectiveEscaping, hunset]

/-- If no escape character is a wildcard then the patterns search for the values. -/
theorem isSearch_of_ne_percent (hunset : c.dialect.options.likeEscaping = none)
    (hescapes : c.dialect.options.escapesLikeValues = true)
    (hcolumn : (column.map (Spec.compile c)).render c.dialect sink = (.ok text, sink₁))
    (hpercent : c.dialect.options.likeEscape.getD '\\' ≠ '%') {values : List Value}
    (hne : values ≠ []) (hvalues : ∀ v ∈ values, v.type = .text ∨ v.type = .int)
    {token : String} {operator : LikeOperator}
    (hoperator : LikeOperator.ofToken? (Operator.normalize token) = some operator)
    (hcase : operator.ignoresCase = false) :
    c.IsSearch column text sink values token operator := by
  obtain ⟨texts, htexts, hnode⟩ := Condition.ofPatterns_values column hoperator hvalues
  have hne' : texts ≠ [] := by
    rintro rfl
    exact hne (List.map_eq_nil_iff.1 htexts)
  obtain ⟨placeholders, sink', hbuild, hfound⟩ := c.build_texts hcolumn operator hne'
  have hplaceholders : placeholders ≠ [] := by
    rintro rfl
    cases hfound
    exact hne' rfl
  refine ⟨_, _, sink', placeholders, texts, hnode, hbuild, htexts, hfound.length_eq, ?_,
    fun s => ?_⟩
  · rw [Token.spellAll_joinedTests, Pattern.clauses_eq _ hcase]
  · rw [Token.value?_joinedTests _ _ (by simpa [Pattern.clausesFor] using hplaceholders),
      operator.asks_iff]
    -- Each clause asks of the column what the operator asks of its text.
    refine Junction.asks_congr _ ?_
    rw [Pattern.clausesFor, List.forall₂_map_left_iff]
    refine hfound.imp fun p t hp => ?_
    rw [escapeTable_standard hunset hescapes] at hp
    rw [LikeClause.truth_eq_true_iff (Pattern.escape?_clausesFor _ _ _ _)
      (LikeClause.pattern?_eq_some hp), Wildcard.like_ofText hpercent]

/-- Where percent signs escape, the text `a` is not found in itself. -/
theorem ne_percent_of_isSearch (hunset : c.dialect.options.likeEscaping = none)
    (hescapes : c.dialect.options.escapesLikeValues = true)
    (hcolumn : (column.map (Spec.compile c)).render c.dialect sink = (.ok text, sink₁))
    (h : c.IsSearch column text sink [.text "a"] "LIKE" ⟨.and, .positive, false⟩) :
    c.dialect.options.likeEscape.getD '\\' ≠ '%' := by
  intro hpercent
  obtain ⟨node, sql, sink', placeholders, texts, hnode, hbuild, htexts, hlength, hspell,
    htruth⟩ := h
  have hoperator : LikeOperator.ofToken? (Operator.normalize "LIKE") =
      some ⟨.and, .positive, false⟩ := by decide +kernel
  have htext : ∀ v ∈ [Value.text "a"], v.type = .text ∨ v.type = .int := by simp [Value.type]
  have hsingle : ∀ ts : List String, [Value.text "a"].map Value.patternText? = ts.map some →
      ts = ["a"] := fun ts hts =>
    List.map_injective_iff.2 (fun _ _ => Option.some.inj)
      (show ts.map some = ["a"].map some from hts.symm)
  obtain ⟨texts', htexts', hnode'⟩ := Condition.ofPatterns_values column hoperator htext
  obtain rfl := hsingle texts htexts
  obtain rfl := hsingle texts' htexts'
  obtain rfl := Except.ok.inj (hnode.symm.trans hnode')
  obtain ⟨placeholders', sink'', hbuild', hfound⟩ :=
    c.build_texts hcolumn ⟨.and, .positive, false⟩ (List.cons_ne_nil "a" [])
  obtain ⟨rfl, rfl⟩ : _ ∧ sink'' = sink' := by
    rw [hbuild'] at hbuild
    obtain ⟨hsql, hsink⟩ := Prod.mk.inj hbuild
    exact ⟨Except.ok.inj hsql, hsink⟩
  -- The fragment is a single clause, so its text says which placeholder it has.
  obtain ⟨p, rfl⟩ := List.length_eq_one_iff.1 hlength
  cases hfound with
  | @cons p' _ _ _ hp' hnil =>
    cases hnil
    rw [Token.spellAll_joinedTests, Pattern.clauses_eq _ rfl] at hspell
    obtain rfl : p = p' := by
      simpa [Pattern.clausesFor, LikeClause.text, String.append_left_inj,
        String.append_right_inj] using hspell
    -- The text occurs in itself, but the pattern for it matches nothing.
    have htrue := (htruth "a").2 fun t ht => List.mem_singleton.1 ht ▸ List.infix_refl _
    have hclauses : ∀ x ∈ Pattern.clausesFor c.dialect text .positive [p],
        x.truth sink'' "a" = .true :=
      (Token.value?_joinedTests _ .and (by simp [Pattern.clausesFor])).1 htrue
    have hclause := hclauses _ List.mem_cons_self
    rw [escapeTable_standard hunset hescapes] at hp'
    rw [LikeClause.truth_eq_true_iff (Pattern.escape?_clausesFor _ _ _ _)
      (LikeClause.pattern?_eq_some hp'), hpercent] at hclause
    have hnowhere := Wildcard.like_ofText_percent (c := 'a') (by decide) (by decide) [] ['a']
    exact absurd (hnowhere.symm.trans hclause) (by decide)

end

/-- **Unless a percent sign is the escape character, pattern tests search for texts.**
The escape character is declared as a literal that denotes it.  It is no percent sign
exactly if, whatever the texts and integers and under each operator, the fragment is
true of the texts in which all, some, none or not all of them occur. -/
theorem likeEscape_ne_percent_iff_isSearch (c : Compiler) (column : Column Spec) (text : String)
    (sink sink₁ : Sink) (hunset : c.dialect.options.likeEscaping = none)
    (hescapes : c.dialect.options.escapesLikeValues = true)
    (hcolumn : (column.map (Spec.compile c)).render c.dialect sink = (.ok text, sink₁)) :
    let escape := c.dialect.options.likeEscape.getD '\\'
    (∀ declared, c.dialect.options.likeEscape = some declared →
      ∃ literal, Pattern.escapeClause (some declared) = " ESCAPE " ++ literal ∧
        Delimited.read? '\'' literal.toList = some [escape]) ∧
    (escape ≠ '%' ↔
      ∀ values : List Value, values ≠ [] → (∀ v ∈ values, v.type = .text ∨ v.type = .int) →
        ∀ token operator, LikeOperator.ofToken? (Operator.normalize token) = some operator →
          operator.ignoresCase = false → c.IsSearch column text sink values token operator) := by
  intro escape
  refine ⟨fun declared hdeclared => ⟨Pattern.escapeLiteral declared,
    Pattern.escapeClause_some declared, ?_⟩, fun hpercent values hne hvalues token operator
    hoperator hcase => isSearch_of_ne_percent hunset hescapes hcolumn hpercent hne hvalues
      hoperator hcase, fun h => ne_percent_of_isSearch hunset hescapes hcolumn ?_⟩
  · rw [Pattern.read?_escapeLiteral]
    subst escape
    rw [hdeclared]
    rfl
  · exact h [.text "a"] (by simp) (by simp [Value.type]) "LIKE" _ (by decide +kernel) rfl

/-- With an exclamation mark both a text that has one and a number are searched for;
with a percent sign some search goes wrong. -/
theorem likeEscape_ne_percent_iff_isSearch_declared :
    let c (escape : Char) : Compiler :=
      ⟨⟨{ Options.standard with likeEscape := some escape }, QuoteStyle.bare.quoter⟩, .standard⟩
    (c '!').IsSearch (.name "code") "code" .empty [.text "100%!", .int 5] "or not  like"
        ⟨.or, .negative, false⟩ ∧
      ¬ ∀ values : List Value, values ≠ [] → (∀ v ∈ values, v.type = .text ∨ v.type = .int) →
        ∀ token operator, LikeOperator.ofToken? (Operator.normalize token) = some operator →
          operator.ignoresCase = false →
            (c '%').IsSearch (.name "code") "code" .empty values token operator := by
  intro c
  have hsearch := fun escape =>
    (likeEscape_ne_percent_iff_isSearch (c escape) (.name "code") "code" .empty .empty rfl rfl
      rfl).2
  refine ⟨(hsearch '!').1 (by decide) _ (by simp) (by simp [Value.type]) _ _ (by decide +kernel)
    rfl, fun h => (hsearch '%').2 h rfl⟩

end Compiler

end WhereClause
