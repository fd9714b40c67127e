/-
WhereClause/Proofs/Vocabulary.lean

What the SQL of a specification is made of.  The token at the head of a list says how
its operands are read, and is not written, unless it is the operator of a comparison;
so whatever stands in such places, there is nothing in a text but the vocabulary of the
library and what stands in other places.

Main results: reading adds no words (`Spec.mentions_of_read`), and the SQL of a
specification is put together from words that may be written
(`Compiler.compileInto_words`).
-/
import WhereClause.Proofs.Grammar
import WhereClause.Proofs.Render.Mentions

namespace WhereClause

open Operator

/-! ### Words of specifications -/

/-- The words of a specification in some role.  A text is a word only where it names a
column; a list in the place of a condition is an operator with its operands, and the
operator is the only word that its head can be.  What a sub-query or a node mentions is
said in terms of some `G` that bounds the words of the conditions in it. -/
inductive Spec.Mentions : Role → Spec → Word → Prop
  | column {n : String} : Mentions .fixed (.text n) (.column n)
  | raw {role : Role} {sql : RawSql} : Mentions role (.scalar (.raw sql)) (.raw sql.text)
  | subquery {role : Role} {q : Subquery Spec} {w : Word} {G : Spec → Word → Prop}
      (hG : ∀ t w, G t w → Mentions .condition t w) (h : q.Mentions G w) :
      Mentions role (.subquery q) w
  | item {role : Role} {items : List Spec} {s : Spec} {w : Word} (hrole : role ≠ .condition)
      (hs : s ∈ items) (h : Mentions role s w) : Mentions role (.list items) w
  | entry {entries : List (String × Spec)} {e : String × Spec} {w : Word} (he : e ∈ entries)
      (h : Mentions .value e.2 w) : Mentions .value (.map entries) w
  | operator {token : String} {operands : List Spec} :
      Mentions .condition (.operator token operands) (.operator (normalize token))
  | operand {token : String} {operands : List Spec} {i : Nat} {s : Spec} {w : Word}
      (hs : operands[i]? = some s)
      (h : Mentions (Registry.roles Registry.standardTable token i) s w) :
      Mentions .condition (.operator token operands) w
  | key {entries : List (String × Spec)} {e : String × Spec} (he : e ∈ entries) :
      Mentions .condition (.map entries) (.column e.1)
  | value {entries : List (String × Spec)} {e : String × Spec} {w : Word} (he : e ∈ entries)
      (h : Mentions .value e.2 w) : Mentions .condition (.map entries) w
  | node {c : Condition Spec} {w : Word} {G : Spec → Word → Prop}
      (hG : ∀ t w, G t w → Mentions .condition t w) (h : c.Mentions G w) :
      Mentions .condition (.condition c) w

/-! ### Reading adds no words -/

section

variable {role : Role} {w : Word}

theorem Scalar.mentions_spec {x : Scalar Spec} (h : x.Mentions (Spec.Mentions .condition) w) :
    (Spec.scalar x).Mentions role w := by
  cases x with
  | null | value => exact h.elim
  | raw sql => exact h ▸ .raw
  | subquery q => exact .subquery (fun _ _ h => h) h

theorem Column.mentions_spelling {c : Column Spec}
    (h : c.Mentions (Spec.Mentions .condition) w) : c.spelling.Mentions .fixed w := by
  cases c with
  | name n => exact h ▸ .column
  | raw sql => exact h ▸ .raw
  | subquery q => exact .subquery (fun _ _ h => h) h

theorem PlainColumn.mentions_spelling (c : PlainColumn) :
    (c.column : Column Spec).spelling.Mentions .fixed c.word := by
  cases c with
  | name n => exact .column
  | raw sql => exact .raw

theorem Operand.mentions_spelling {o : Operand Spec}
    (h : o.Mentions (Spec.Mentions .condition) w) : o.spelling.Mentions .value w := by
  induction h with
  | scalar h =>
    rw [spelling]
    exact Scalar.mentions_spec h
  | item ho _ ih =>
    rw [spelling, spellings_eq_map]
    exact .item (by simp) (List.mem_map_of_mem ho) ih
  | entry he _ ih =>
    rw [spelling, entrySpellings_eq_map]
    exact .entry (List.mem_map_of_mem he) ih

/-- The members of an operand mention what it does. -/
theorem Operand.mentions_of_members {S : Type} {G : S → Word → Prop} {o m : Operand S}
    (hm : m ∈ o.members) (h : m.Mentions G w) : o.Mentions G w := by
  cases o with
  | list items => exact .item hm h
  | scalar | row =>
    obtain rfl := List.mem_singleton.1 hm
    exact h

theorem Candidates.mentions_ofOperand {S : Type} {G : S → Word → Prop} {o : Operand S}
    (h : (Candidates.ofOperand o).Mentions G w) : o.Mentions G w := by
  unfold ofOperand at h
  split at h
  · exact .scalar h
  · obtain ⟨m, hm, hw⟩ := h
    exact Operand.mentions_of_members hm hw

theorem HashTest.mentions_operand {S : Type} {G : S → Word → Prop} {e : HashTest S}
    (h : e.Mentions G w) : e.operand.Mentions G w := by
  cases e with
  | scalar s => exact .scalar h
  | list items =>
    obtain ⟨o, ho, hw⟩ := h
    exact .item ho hw

theorem Pattern.mentions_ofOperand {S : Type} {G : S → Word → Prop} {operator : String}
    {o : Operand S} {p : Pattern S} (h : Pattern.ofOperand operator o = .ok p)
    (hw : p.Mentions G w) : o.Mentions G w := by
  unfold ofOperand at h
  split at h
  · split at h
    · cases h
      exact hw.elim
    · simp at h
  · cases h
    exact .scalar hw
  · cases h
    exact .scalar hw
  · simp at h

theorem Condition.mentions_readPatternWith {operator : String} {column values escaping : Spec}
    {c : Condition Spec} (h : readPatternWith operator column values escaping = .ok c)
    (hw : c.Mentions (Spec.Mentions .condition) w) :
    column.Mentions .fixed w ∨ values.Mentions .value w := by
  obtain ⟨column', o, escaping', like, patterns, rfl, rfl, -, -, -, hpatterns, rfl⟩ :=
    readPatternWith_eq_ok.1 h
  refine hw.imp Column.mentions_spelling ?_
  rintro ⟨p, hp, hw⟩
  obtain ⟨m, hm, hmp⟩ := Attempt.exists_of_mem_mapM hpatterns p hp
  exact Operand.mentions_spelling
    (Operand.mentions_of_members hm (Pattern.mentions_ofOperand hmp hw))

/-- The words of a node that a form makes stand in the operands, each in the role of
its place; only the operator of a comparison comes from the token. -/
theorem Builtin.mentions_of_form (b : Builtin) {operator : String} {operands : List Spec}
    {c : Condition Spec} (h : b.form.read operator operands = .ok c)
    (hw : c.Mentions (Spec.Mentions .condition) w) :
    (∃ (i : Nat) (s : Spec), operands[i]? = some s ∧ s.Mentions (b.role i) w) ∨
      b = .comparison ∧ w = .operator (normalize operator) := by
  -- Each form is inverted into the operands that it read, and a word is followed to its own.
  cases b with
  | comparison =>
    obtain ⟨column, x, comparison, rfl, -, hknown, rfl⟩ := Condition.readComparison_eq_ok.1 h
    rcases hw with hw | rfl | hw
    · exact .inl ⟨0, _, rfl, Column.mentions_spelling hw⟩
    · -- The only word that comes from the token: the operator that was parsed from it.
      refine .inr ⟨rfl, ?_⟩
      unfold ComparisonOperator.ofToken? at hknown
      split at hknown
      · obtain rfl := Option.some.inj hknown
        rfl
      · simp at hknown
    · exact .inl ⟨1, _, rfl, Scalar.mentions_spec hw⟩
  | membership =>
    obtain ⟨s, o, columns, polarity, rfl, hcolumns, -, rfl⟩ := Condition.readMembership_eq_ok.1 h
    left
    rcases hw with ⟨c, hc, rfl⟩ | hw
    · refine ⟨0, s, rfl, ?_⟩
      have hmem := List.mem_map_of_mem (f := PlainColumn.column (S := Spec)) hc
      -- A list of columns, where the word stands in an item, or one column, which is the
      -- operand.
      rcases (Condition.readColumns_eq_ok.1 hcolumns).1 with rfl | ⟨column, hcolumn, rfl⟩
      · exact .item (by simp [role]) (List.mem_map_of_mem hmem) c.mentions_spelling
      · rw [hcolumn, List.mem_singleton] at hmem
        exact hmem ▸ c.mentions_spelling
    · exact ⟨1, _, rfl, Operand.mentions_spelling (Candidates.mentions_ofOperand hw)⟩
  | between =>
    obtain ⟨column, low, high, polarity, rfl, -, -, rfl⟩ := Condition.readBetween_eq_ok.1 h
    left
    rcases hw with hw | hw | hw
    · exact ⟨0, _, rfl, Column.mentions_spelling hw⟩
    · exact ⟨1, _, rfl, Scalar.mentions_spec hw⟩
    · exact ⟨2, _, rfl, Scalar.mentions_spec hw⟩
  | betweenColumns =>
    obtain ⟨x, low, high, polarity, rfl, -, -, -, rfl⟩ := Condition.readBetweenColumns_eq_ok.1 h
    left
    rcases hw with hw | hw | hw
    · exact ⟨0, _, rfl, Scalar.mentions_spec hw⟩
    · exact ⟨1, _, rfl, Column.mentions_spelling hw⟩
    · exact ⟨2, _, rfl, Column.mentions_spelling hw⟩
  | pattern =>
    left
    -- With an escaping or without: it changes what is bound, and adds no word.
    obtain ⟨column, values, escaping, rfl | ⟨rfl, rfl⟩, h⟩ := Condition.readPattern_eq_ok.1 h
    · rcases Condition.mentions_readPatternWith h hw with hw | hw
      · exact ⟨0, _, rfl, hw⟩
      · exact ⟨1, _, rfl, hw⟩
    · rcases Condition.mentions_readPatternWith h hw with hw | hw
      · exact ⟨0, _, rfl, hw⟩
      · exact ⟨1, _, rfl, hw⟩
  | negation =>
    obtain ⟨inner, rfl, rfl⟩ := Condition.readNegation_eq_ok.1 h
    exact .inl ⟨0, inner, rfl, hw⟩
  | junction =>
    obtain ⟨j, -, rfl⟩ := Condition.readJunction_eq_ok.1 h
    obtain ⟨t, ht, hw⟩ := hw
    -- An operand of a junction has the same role in every place.
    obtain ⟨i, hi⟩ := List.mem_iff_getElem?.1 ht
    exact .inl ⟨i, t, hi, hw⟩
  | existence =>
    obtain ⟨q, polarity, rfl, -, rfl⟩ := Condition.readExistence_eq_ok.1 h
    exact .inl ⟨0, _, rfl, .subquery (fun _ _ h => h) hw⟩

end

namespace Spec

/-- **Reading adds no words.**  The words of a node stand in the specification that it
was read from, outside of the heads of lists but for the operators of comparisons. -/
theorem mentions_of_read {s : Spec} {c : Condition Spec} (h : s.read .standard = .node c)
    {w : Word} (hw : c.Mentions (Mentions .condition) w) : s.Mentions .condition w := by
  -- A node comes from an operator, a mapping or a typed condition.
  obtain ⟨token, operands, rfl, hparse⟩ | ⟨e, es, rfl, hmap⟩ | rfl := read_eq_node h
  · rw [Registry.standard_eq_ofBuiltins, Registry.parse_eq] at hparse
    cases hb : Registry.builtin? Registry.standardTable (normalize token) with
    | none =>
      rw [hb] at hparse
      exact absurd hparse (by simp)
    | some b =>
      rw [hb] at hparse
      have hrole : Registry.roles Registry.standardTable token = b.role := by
        rw [Registry.roles, Registry.builtin_eq, hb, Option.getD_some]
      rcases b.mentions_of_form hparse hw with ⟨i, s, hs, hw⟩ | ⟨rfl, rfl⟩
      · exact .operand hs (hrole ▸ hw)
      · -- The normal form of a comparison is its own.
        have hcomparison := (Registry.builtin?_standard.1 hb).2
        rw [normalize_of_isComparison hcomparison]
        exact .operator
  · obtain ⟨tests, htests, rfl⟩ := Condition.ofMap_eq_ok.1 hmap
    rw [htests]
    obtain ⟨e, he, rfl | hw⟩ := hw
    · exact .key (List.mem_map_of_mem he)
    · exact .value (List.mem_map_of_mem he)
        (Operand.mentions_spelling (HashTest.mentions_operand hw))
  · exact .node (fun _ _ h => h) hw

theorem isPhrase_of_read {d : Dialect} {s : Spec} {sql : String}
    (h : s.read .standard = .text sql) (sink sink' : Sink) :
    IsPhrase d (s.Mentions .condition) sink sink' sql := by
  rcases eq_of_read_text h with ⟨-, rfl⟩ | rfl
  · exact .empty
  · exact .word (.raw sql) .raw

theorem says_compile (d : Dialect) (s : Spec) :
    Render.Says d (s.Mentions .condition) .text (s.compile ⟨d, .standard⟩) := by
  induction s using Spec.induction_read .standard with
  | step s ih =>
    -- Reading goes down; the words of what is read are those of a smaller specification.
    rw [compile_eq]
    cases hr : s.read .standard with
    | text sql => exact .const fun _ _ => isPhrase_of_read hr _ _
    | failed e => exact .fail e
    | node x =>
      rw [hr] at ih
      exact (Condition.says_render ih).mono fun w hw => mentions_of_read hr hw

end Spec

namespace Compiler

/-- **The SQL of a specification is made of words that may be written.**  These are the
vocabulary of the library, the literal of `ESCAPE`, the placeholders of the values that
were bound meanwhile, the names and the raw SQL of the specification, and operators of
comparisons, which are keywords or runs of symbols; nothing else comes from the head of
a list. -/
theorem compileInto_words (d : Dialect) (s : Spec) (sink sink' : Sink) (sql : String)
    (h : (Compiler.mk d .standard).compileInto s sink = (.ok sql, sink')) :
    ∃ ws : List Word, sql = String.join (ws.map (·.text d)) ∧
      ∀ w ∈ ws, w.Allowed d (s.Mentions .condition) sink sink' :=
  (s.says_compile d sink sink (List.Subset.refl _) sql sink' h).2

/-- A comparison in the filter of a sub-query. -/
theorem compileInto_words_subquery :
    let d : Dialect := ⟨.standard, QuoteStyle.bare.quoter⟩
    let filter : Spec := .operator "@>" [.text "tags", .value (.int 1)]
    let s : Spec := .operator "not  exists" [.subquery (.select "t" ["n"] (some filter))]
    let sql := "NOT EXISTS (SELECT n FROM t WHERE tags @> :p0)"
    (Compiler.mk d .standard).compileInto s .empty = (.ok sql, ⟨[("p0", .int 1)]⟩) ∧
      ∃ ws : List Word, sql = String.join (ws.map (·.text d)) ∧
        ∀ w ∈ ws, w.Allowed d (s.Mentions .condition) .empty ⟨[("p0", .int 1)]⟩ := by
  intro d filter s sql
  have hfilter : filter.read .standard =
      .node (.comparison (.name "tags") ⟨"@>", by decide⟩ (.value (.int 1))) := by
    have hparse : Registry.standard.parse "@>" [.text "tags", .value (.int 1)] =
        .ok (.comparison (.name "tags") ⟨"@>", by decide⟩ (.value (.int 1))) := by
      have hnormal : normalize "@>" = "@>" := normalize_of_isComparison (by decide)
      simp only [Registry.parse, Registry.parseBy, hnormal]
      rfl
    exact congrArg Reading.ofExcept hparse
  have hread : s.read .standard =
      .node (.existence .negative (.select "t" ["n"] (some filter))) := by
    have hparse : Registry.standard.parse "not  exists"
        [.subquery (.select "t" ["n"] (some filter))] =
          .ok (.existence .negative (.select "t" ["n"] (some filter))) := by
      have hnormal : normalize "not  exists" = "NOT EXISTS" := by decide +kernel
      simp only [Registry.parse, Registry.parseBy, hnormal]
      rfl
    exact congrArg Reading.ofExcept hparse
  have hrun : (Compiler.mk d .standard).compileInto s .empty =
      (.ok sql, ⟨[("p0", .int 1)]⟩) := by
    rw [compileInto, Spec.compile_of_read hread, Condition.map_existence, Subquery.map_select,
      Option.map_some, Spec.compile_of_read hfilter]
    subst d sql
    rfl
  exact ⟨hrun, compileInto_words d s .empty _ sql hrun⟩

end Compiler

end WhereClause
