/-
WhereClause/Proofs/Language.lean

The language of conditions.  What each operator takes are the operands of its rules
(`Condition.readMembership_iff` and its like).

Main result: a plain specification compiles, on any sink and in any dialect, exactly
if it is valid (`Compiler.compileInto_iff_valid`).
-/
import WhereClause.Proofs.Grammar

namespace WhereClause

open Attempt
open Operator (normalize)

/-! ### The operands of each form -/

namespace Condition

variable {g : Spec → Prop} {t : String} {operands : List Spec}

/-- The rule for comparisons is what the reader takes and the renderer writes. From left to
right it is taken from the operands that spell the node; back, the node is made of the parts in
the rule. -/
theorem readComparison_iff (hsafe : isComparison t = true)
    (hplain : ∀ s ∈ operands, s.IsPlain) :
    (∃ c, readComparison t operands = .ok c ∧ (c.map g).Renders) ↔
      ∃ (column : PlainColumn) (value : Spec), operands = [column.spelling, value] ∧
        column.IsNamed ∧ value.IsScalar := by
  constructor
  · rintro ⟨c, hread, -⟩
    obtain ⟨column, x, comparison, rfl, hnamed, -, -⟩ := readComparison_eq_ok.1 hread
    obtain ⟨column, rfl⟩ := (hplain column.spelling (by simp)).exists_column
    exact ⟨column, .scalar x, by rw [column.spelling_column], PlainColumn.isNamed_column.1 hnamed,
      (hplain _ (by simp)).isScalar⟩
  · -- A safe token is its own normal form, so that the operator is known.
    rintro ⟨column, value, rfl, hc, hv⟩
    obtain ⟨x, rfl⟩ := hv.exists_scalar
    have hknown : ComparisonOperator.ofToken? (normalize t) = some ⟨t, hsafe⟩ := by
      rw [Operator.normalize_of_isComparison hsafe]
      exact dif_pos hsafe
    exact ⟨_, readComparison_eq_ok.2 ⟨column.column, x, _, by rw [column.spelling_column],
      PlainColumn.isNamed_column.2 hc, hknown, rfl⟩, column.renders_map, Scalar.renders_map hv⟩

/-- The rule for ranges, in either polarity. -/
theorem readBetween_iff (ht : t = "BETWEEN" ∨ t = "NOT BETWEEN")
    (hplain : ∀ s ∈ operands, s.IsPlain) :
    (∃ c, readBetween t operands = .ok c ∧ (c.map g).Renders) ↔
      ∃ (column : PlainColumn) (low high : Spec), operands = [column.spelling, low, high] ∧
        column.IsNamed ∧ low.IsScalar ∧ high.IsScalar := by
  constructor
  · rintro ⟨c, hread, -⟩
    obtain ⟨column, low, high, polarity, rfl, hnamed, -, -⟩ := readBetween_eq_ok.1 hread
    obtain ⟨column, rfl⟩ := (hplain column.spelling (by simp)).exists_column
    exact ⟨column, .scalar low, .scalar high, by rw [column.spelling_column],
      PlainColumn.isNamed_column.1 hnamed, (hplain (.scalar low) (by simp)).isScalar,
      (hplain (.scalar high) (by simp)).isScalar⟩
  · rintro ⟨column, low, high, rfl, hc, hl, hh⟩
    obtain ⟨x, rfl⟩ := hl.exists_scalar
    obtain ⟨y, rfl⟩ := hh.exists_scalar
    obtain ⟨polarity, hknown⟩ :=
      Polarity.exists_ofToken? "BETWEEN" (by decide +kernel) (by decide +kernel) ht
    exact ⟨_, readBetween_eq_ok.2 ⟨column.column, x, y, polarity, by rw [column.spelling_column],
      PlainColumn.isNamed_column.2 hc, hknown, rfl⟩, column.renders_map, Scalar.renders_map hl,
      Scalar.renders_map hh⟩

/-- The rule for memberships, with one column or a list of them. -/
theorem readMembership_iff (ht : t = "IN" ∨ t = "NOT IN")
    (hplain : ∀ s ∈ operands, s.IsPlain) :
    (∃ c, readMembership t operands = .ok c ∧ (c.map g).Renders) ↔
      ∃ (columns : List PlainColumn) (s values : Spec), operands = [s, values] ∧
        PlainColumn.AreSpelled columns s ∧ values.IsCandidates columns := by
  constructor
  · rintro ⟨c, hread, hrenders⟩
    obtain ⟨s, o, columns, polarity, rfl, hcolumns, -, rfl⟩ := readMembership_eq_ok.1 hread
    exact ⟨columns, s, o.spelling, rfl, PlainColumn.areSpelled_iff.2 hcolumns,
      (Membership.isCandidates_iff columns (hplain _ (by simp))).2 hrenders⟩
  · rintro ⟨columns, s, values, rfl, hcolumns, hvalues⟩
    have hvaluesPlain : values.IsPlain := hplain _ (by simp)
    obtain ⟨o, rfl⟩ := hvaluesPlain.exists_operand
    obtain ⟨polarity, hknown⟩ :=
      Polarity.exists_ofToken? "IN" (by decide +kernel) (by decide +kernel) ht
    exact ⟨_, readMembership_eq_ok.2 ⟨s, o, columns, polarity, rfl,
      PlainColumn.areSpelled_iff.1 hcolumns, hknown, rfl⟩,
      (Membership.isCandidates_iff columns hvaluesPlain).1 hvalues⟩

/-- The rule for patterns, with an escaping or without. -/
theorem readPattern_iff (ht : t ∈ LikeOperator.tokens) (hplain : ∀ s ∈ operands, s.IsPlain) :
    (∃ c, readPattern t operands = .ok c ∧ (c.map g).Renders) ↔
      ∃ (column : PlainColumn) (values : Spec) (escaping : List Spec),
        operands = column.spelling :: values :: escaping ∧ column.IsNamed ∧
        (∀ m ∈ values.members, m.IsPattern) ∧ escaping.length ≤ 1 ∧
        ∀ e ∈ escaping, e.IsEscaping := by
  constructor
  · rintro ⟨c, hread, -⟩
    obtain ⟨column, values, escaping, hoperands, hread⟩ := readPattern_eq_ok.1 hread
    obtain ⟨column, o, escaping, like, patterns, rfl, rfl, rfl, hnamed, -, hpatterns, -⟩ :=
      readPatternWith_eq_ok.1 hread
    have hcolumn : column.spelling.IsPlain := by
      rcases hoperands with rfl | ⟨rfl, -⟩ <;> exact hplain _ (by simp)
    have hvalues : o.spelling.IsPlain := by
      rcases hoperands with rfl | ⟨rfl, -⟩ <;> exact hplain _ (by simp)
    obtain ⟨column, rfl⟩ := hcolumn.exists_column
    have hmembers : ∀ m ∈ o.spelling.members, m.IsPattern := by
      rw [o.members_spelling, List.forall_mem_map]
      intro m hm
      exact (Pattern.isPattern_iff t (hvalues.of_members m hm)).2
        (exists_mapM_eq_ok.1 ⟨patterns, hpatterns⟩ m hm)
    rw [column.spelling_column] at hoperands
    have hnamed := PlainColumn.isNamed_column.1 hnamed
    rcases hoperands with rfl | ⟨rfl, -⟩
    · exact ⟨column, o.spelling, [escaping.spelling], rfl, hnamed, hmembers, by simp,
        fun e he => Escaping.isEscaping_iff.2 ⟨escaping, List.mem_singleton.1 he⟩⟩
    · exact ⟨column, o.spelling, [], rfl, hnamed, hmembers, by simp,
        fun e he => absurd he List.not_mem_nil⟩
  · rintro ⟨column, values, escaping, rfl, hc, hv, hlength, he⟩
    have hvalues : values.IsPlain := hplain _ (by simp)
    obtain ⟨o, rfl⟩ := hvalues.exists_operand
    rw [o.members_spelling, List.forall_mem_map] at hv
    obtain ⟨patterns, hpatterns⟩ := exists_mapM_eq_ok.2 fun m hm =>
      (Pattern.isPattern_iff t (hvalues.of_members m hm)).1 (hv m hm)
    have htokens : ∀ t ∈ LikeOperator.tokens,
        (LikeOperator.ofToken? (normalize t)).isSome = true := by
      decide +kernel
    obtain ⟨like, hknown⟩ := Option.isSome_iff_exists.1 (htokens t ht)
    -- The escaping that is left out is the standard one.
    obtain ⟨e, heq⟩ : ∃ e : Escaping, column.spelling :: o.spelling :: escaping =
          [column.spelling, o.spelling, e.spelling] ∨
        column.spelling :: o.spelling :: escaping = [column.spelling, o.spelling] ∧
          e.spelling = .null := by
      match escaping, hlength, he with
      | [], _, _ => exact ⟨.standard, .inr ⟨rfl, rfl⟩⟩
      | [s], _, he =>
        obtain ⟨e, rfl⟩ := Escaping.isEscaping_iff.1 (he s (List.mem_singleton_self s))
        exact ⟨e, .inl rfl⟩
    refine ⟨.pattern column.column like patterns e, readPattern_eq_ok.2 ⟨_, _, _, heq,
      readPatternWith_eq_ok.2 ⟨column.column, o, e, like, patterns, column.spelling_column.symm,
        rfl, rfl, PlainColumn.isNamed_column.2 hc, hknown, hpatterns, rfl⟩⟩, ?_⟩
    rw [map_pattern]
    cases patterns with
    | nil => trivial
    | cons p ps =>
      refine ⟨column.renders_map, List.forall_mem_map.2 fun p' hp' => ?_⟩
      obtain ⟨m, hm, hmp⟩ := exists_of_mem_mapM hpatterns p' hp'
      exact Pattern.renders_map (hvalues.of_members m hm) hmp

/-- The rule for negations; the operand is asked to be written. -/
theorem readNegation_iff : (∃ c, readNegation t operands = .ok c ∧ (c.map g).Renders) ↔
    ∃ s, operands = [s] ∧ g s := by
  constructor
  · rintro ⟨c, hread, hrenders⟩
    obtain ⟨s, rfl, rfl⟩ := readNegation_eq_ok.1 hread
    exact ⟨s, rfl, hrenders⟩
  · rintro ⟨s, rfl, hs⟩
    exact ⟨_, rfl, hs⟩

/-- The rule for junctions; every operand is asked to be written. -/
theorem readJunction_iff (ht : t = "AND" ∨ t = "OR") :
    (∃ c, readJunction t operands = .ok c ∧ (c.map g).Renders) ↔ ∀ s ∈ operands, g s := by
  have hrenders : ∀ j, ((junction j operands).map g).Renders ↔ ∀ s ∈ operands, g s := fun j => by
    rw [map_junction, Renders]
    exact List.forall_mem_map
  constructor
  · rintro ⟨c, hread, hc⟩
    obtain ⟨j, -, rfl⟩ := readJunction_eq_ok.1 hread
    exact (hrenders j).1 hc
  · intro h
    obtain ⟨j, hknown⟩ : ∃ j, Junction.ofToken? (normalize t) = some j := by
      rcases ht with rfl | rfl
      · exact ⟨.and, by decide +kernel⟩
      · exact ⟨.or, by decide +kernel⟩
    exact ⟨_, readJunction_eq_ok.2 ⟨j, hknown, rfl⟩, (hrenders j).2 h⟩

/-- There is no sub-query to test. -/
theorem readExistence_ne_ok (hplain : ∀ s ∈ operands, s.IsPlain) (c : Condition Spec) :
    readExistence t operands ≠ .ok c := by
  intro hread
  obtain ⟨q, polarity, rfl, -, -⟩ := readExistence_eq_ok.1 hread
  exact (hplain (.subquery q) (by simp)).isScalar

/-- The rule for mappings; each value is asked to be a test of its column. -/
theorem ofMap_iff {entries : List (String × Spec)} (hplain : ∀ e ∈ entries, e.2.IsPlain) :
    (∃ c, ofMap entries = .ok c ∧ (c.map g).Renders) ↔ ∀ e ∈ entries, e.2.IsTest e.1 := by
  have hrenders : ∀ tests : List (String × HashTest Spec),
      ((hash tests).map g).Renders ↔ ∀ e ∈ tests, (e.2.map g).Renders e.1 := fun tests => by
    rw [map_hash, Renders]
    exact List.forall_mem_map
  constructor
  · rintro ⟨c, hread, hc⟩
    obtain ⟨tests, rfl, rfl⟩ := ofMap_eq_ok.1 hread
    refine List.forall_mem_map.2 fun e he => ?_
    exact (HashTest.isTest_iff e.1 (hplain _ (List.mem_map_of_mem he))).2
      ((hrenders tests).1 hc e he)
  · intro h
    -- Each value spells a test by the rule; the tests are chosen for all entries at once.
    have htests : entries ∈ Set.range (List.map fun e : String × HashTest Spec =>
        (e.1, e.2.operand.spelling)) := by
      rw [Set.range_list_map]
      rintro ⟨k, s⟩ he
      obtain ⟨test, htest⟩ := (hplain _ he).exists_test (h _ he)
      exact ⟨(k, test), Prod.ext rfl htest.symm⟩
    obtain ⟨tests, rfl⟩ := htests
    refine ⟨_, ofMap_eq_ok.2 ⟨tests, rfl, rfl⟩, (hrenders tests).2 fun e he => ?_⟩
    exact (HashTest.isTest_iff e.1 (hplain _ (List.mem_map_of_mem he))).1
      (h _ (List.mem_map_of_mem he))

end Condition

/-! ### Valid specifications compile, and no others -/

/-- What failed to be read is not written. -/
theorem Reading.renders_ofExcept {x : Except Error (Condition Spec)} {g : Spec → Prop} :
    ((Reading.ofExcept x).map g).Renders ↔ ∃ c, x = .ok c ∧ (c.map g).Renders := by
  cases x with
  | error e =>
    refine iff_of_false id ?_
    rintro ⟨c, hc, -⟩
    exact absurd hc (by simp)
  | ok c =>
    constructor
    · exact fun h => ⟨c, rfl, h⟩
    · rintro ⟨c', hc', h⟩
      cases hc'
      exact h

namespace Spec

/-- A mapping compiles if it is read as a hash that is written. -/
theorem compiles_map (r : Registry) (e : String × Spec) (es : List (String × Spec)) :
    (map (e :: es)).Compiles r ↔
      ∃ c, Condition.ofMap (e :: es) = .ok c ∧ (c.map (Compiles r)).Renders := by
  rw [compiles_eq]
  exact Reading.renders_ofExcept

/-- A list compiles if its operands are read as a node that is written. -/
theorem compiles_operator (r : Registry) (token : String) (operands : List Spec) :
    (operator token operands).Compiles r ↔
      ∃ c, r.parse token operands = .ok c ∧ (c.map (Compiles r)).Renders := by
  rw [compiles_eq]
  exact Reading.renders_ofExcept

/-- Under a token of the standard registry, it is known which reader that is. -/
theorem compiles_operator_of_hasToken {token : String} {operands : List Spec} {b : Builtin}
    (h : b.HasToken (normalize token)) : (operator token operands).Compiles .standard ↔
      ∃ c, b.form.read (normalize token) operands = .ok c ∧
        (c.map (Compiles .standard)).Renders := by
  rw [compiles_operator, Registry.standard_eq_ofBuiltins, Registry.parse_eq,
    Registry.builtin?_standard.2 h]

/-- The operands of a plain list are plain. -/
theorem IsPlain.of_operator {token : String} {operands : List Spec}
    (h : (operator token operands).IsPlain) : ∀ s ∈ operands, s.IsPlain := by
  cases h with
  | list h => exact fun s hs => h s (List.mem_cons_of_mem _ hs)

/-- **What follows the rules compiles.** The induction is on the derivation. -/
theorem Valid.compiles {s : Spec} (h : s.Valid) (hplain : s.IsPlain) :
    s.Compiles .standard := by
  induction h with
  | null => exact (compiles_eq _ _).symm ▸ trivial
  | emptyText => exact (compiles_eq _ _).symm ▸ trivial
  | emptyList => exact (compiles_eq _ _).symm ▸ trivial
  | raw sql => exact (compiles_eq _ _).symm ▸ trivial
  | @map entries h =>
    cases entries with
    | nil => exact (compiles_eq _ _).symm ▸ trivial
    | cons e es =>
      cases hplain with
      | map hplain => exact (compiles_map _ e es).2 ((Condition.ofMap_iff hplain).2 h)
  | junction ht _ ih =>
    refine (compiles_operator_of_hasToken (b := .junction) ht).2
      ((Condition.readJunction_iff ht).2 fun s hs => ih s hs ?_)
    exact hplain.of_operator s hs
  | @negation token s ht _ ih =>
    refine (compiles_operator_of_hasToken (b := .negation) ht).2
      ((Condition.readNegation_iff (t := normalize token)).2 ⟨s, rfl, ih ?_⟩)
    exact hplain.of_operator s (List.mem_singleton_self s)
  | between ht hc hl hh =>
    exact (compiles_operator_of_hasToken (b := .between) ht).2
      ((Condition.readBetween_iff ht hplain.of_operator).2 ⟨_, _, _, rfl, hc, hl, hh⟩)
  | pattern ht hc hv hlength he =>
    exact (compiles_operator_of_hasToken (b := .pattern) ht).2
      ((Condition.readPattern_iff ht hplain.of_operator).2 ⟨_, _, _, rfl, hc, hv, hlength, he⟩)
  | membership ht hc hv =>
    exact (compiles_operator_of_hasToken (b := .membership) ht).2
      ((Condition.readMembership_iff ht hplain.of_operator).2 ⟨_, _, _, rfl, hc, hv⟩)
  | comparison ht hsafe hc hv =>
    exact (compiles_operator_of_hasToken (b := .comparison)
      ⟨Registry.get?_standard_eq_none.1 ht, hsafe⟩).2
      ((Condition.readComparison_iff hsafe hplain.of_operator).2 ⟨_, _, rfl, hc, hv⟩)

/-- What compiles under some token follows the rule for that token. -/
theorem IsPlain.valid_operator {token : String} {operands : List Spec}
    (hplain : ∀ s ∈ operands, s.IsPlain)
    (ih : ∀ s ∈ operands, s.Compiles .standard → s.Valid)
    (h : (operator token operands).Compiles .standard) : (operator token operands).Valid := by
  -- The rules follow the forms, so one case is one reader and its rule.
  cases hb : Registry.builtin? Registry.standardTable (normalize token) with
  | none =>
    rw [compiles_operator, Registry.standard_eq_ofBuiltins, Registry.parse_eq, hb] at h
    obtain ⟨c, hread, -⟩ := h
    exact absurd hread (by simp)
  | some b =>
    have ht := Registry.builtin?_standard.1 hb
    rw [compiles_operator_of_hasToken ht] at h
    cases b with
    | comparison =>
      obtain ⟨column, value, rfl, hc, hv⟩ := (Condition.readComparison_iff ht.2 hplain).1 h
      exact .comparison (Registry.get?_standard_eq_none.2 ht.1) ht.2 hc hv
    | membership =>
      obtain ⟨columns, s, values, rfl, hc, hv⟩ := (Condition.readMembership_iff ht hplain).1 h
      exact .membership ht hc hv
    | between =>
      obtain ⟨column, low, high, rfl, hc, hl, hh⟩ := (Condition.readBetween_iff ht hplain).1 h
      exact .between ht hc hl hh
    -- The table has no token for this form.
    | betweenColumns => exact absurd ht id
    | pattern =>
      obtain ⟨column, values, escaping, rfl, hc, hv, hlength, he⟩ :=
        (Condition.readPattern_iff ht hplain).1 h
      exact .pattern ht hc hv hlength he
    | negation =>
      obtain ⟨s, rfl, hs⟩ := Condition.readNegation_iff.1 h
      exact .negation ht (ih s (List.mem_singleton_self s) hs)
    | junction =>
      have hoperands := (Condition.readJunction_iff ht).1 h
      exact .junction ht fun s hs => ih s hs (hoperands s hs)
    | existence =>
      obtain ⟨c, hread, -⟩ := h
      -- Existence asks for a sub-query, which a plain operand cannot be.
      exact absurd hread (Condition.readExistence_ne_ok hplain c)

/-- A list that compiles begins with an operator. -/
theorem exists_token {r : Registry} {first : Spec} {operands : List Spec}
    (h : (list (first :: operands)).Compiles r) : ∃ token, first = .text token := by
  rw [compiles_eq] at h
  cases first with
  | scalar x =>
    cases x with
    | value v =>
      cases v with
      | text token => exact ⟨token, rfl⟩
      | _ => exact absurd h id
    | _ => exact absurd h id
  | _ => exact absurd h id

/-- Of the values only the empty text is a condition. -/
theorem eq_empty_of_compiles {r : Registry} {v : Value} (h : (value v).Compiles r) :
    v = .text "" := by
  rw [compiles_eq] at h
  cases v with
  | text s =>
    by_cases hs : s.isEmpty = true
    · rw [String.isEmpty_iff.1 hs]
    · have hread : (value (.text s)).read r =
          .failed (.unsupportedShape (.notCondition (.value .text))) :=
        if_neg hs
      rw [hread] at h
      exact absurd h id
  | _ => exact absurd h id

/-- **What compiles follows the rules.** The induction is on the levels of the specification. -/
theorem IsPlain.valid {s : Spec} (hplain : s.IsPlain) (h : s.Compiles .standard) : s.Valid := by
  induction hplain with
  | null => exact .null
  | value v =>
    obtain rfl := eq_empty_of_compiles h
    exact .emptyText
  | raw sql => exact .raw sql
  | @list ss hss ih =>
    cases ss with
    | nil => exact .emptyList
    | cons first operands =>
      obtain ⟨token, rfl⟩ := exists_token h
      -- The token is an item as well, but only what stands behind it is an operand.
      exact valid_operator (fun s hs => hss s (List.mem_cons_of_mem _ hs))
        (fun s hs => ih s (List.mem_cons_of_mem _ hs)) h
  | @map es hes _ =>
    cases es with
    | nil => exact .map fun e he => absurd he List.not_mem_nil
    | cons e es => exact .map ((Condition.ofMap_iff hes).1 ((compiles_map _ e es).1 h))

end Spec

/-- **The compiler accepts exactly the language.**  With the standard operators a plain
specification compiles, on any sink and in any dialect, if and only if it is valid. -/
theorem Compiler.compileInto_iff_valid (d : Dialect) (s : Spec) (hs : s.IsPlain) (sink : Sink) :
    (∃ sql sink', compileInto ⟨d, .standard⟩ s sink = (.ok sql, sink')) ↔ s.Valid :=
  (Spec.succeedsIff_compile ⟨d, .standard⟩ s sink).trans
    ⟨hs.valid, fun h => h.compiles hs⟩

/-- Under two columns a row is looked at by name or by position, and what else it has
does not matter; a value alone is no condition. -/
theorem Compiler.compileInto_iff_valid_rows :
    let c : Compiler := ⟨⟨.standard, QuoteStyle.bare.quoter⟩, .standard⟩
    let columns : Spec := .list [.text "a", .text "b"]
    let rows : Spec := .list [.map [("b", .value (.int 1)), ("x", .list [])],
      .list [.null, .raw "now()"]]
    let test : Spec := .operator "not in" [columns, rows]
    test.IsPlain ∧ (∃ sql sink, c.compileInto test .empty = (.ok sql, sink)) ∧
      ¬ ∃ sql sink, c.compileInto (.value (.bool true)) .empty = (.ok sql, sink) := by
  intro c columns rows test
  have hcolumns : columns.IsPlain := .list (by
    simp only [List.forall_mem_cons]
    exact ⟨.value _, .value _, by simp⟩)
  have hrows : rows.IsPlain := .list (by
    simp only [List.forall_mem_cons]
    refine ⟨.map ?_, .list ?_, by simp⟩
    · simp only [List.forall_mem_cons]
      exact ⟨.value _, .list (by simp), by simp⟩
    · simp only [List.forall_mem_cons]
      exact ⟨.null, .raw _, by simp⟩)
  have hplain : test.IsPlain := .list (by
    simp only [List.forall_mem_cons]
    exact ⟨.value _, hcolumns, hrows, by simp⟩)
  have hspelled : PlainColumn.AreSpelled [.name "a", .name "b"] columns :=
    ⟨.inl rfl, by simp [PlainColumn.IsNamed]⟩
  have hcandidates : rows.IsCandidates [.name "a", .name "b"] := by
    simp [rows, Spec.IsCandidates, Spec.members, Spec.IsRow, PlainColumn.key, Spec.IsScalar,
      Spec.value, Spec.raw, Spec.null, List.lookup_cons]
  have hvalid : test.Valid := .membership (.inr (by decide +kernel)) hspelled hcandidates
  refine ⟨hplain, (compileInto_iff_valid c.dialect test hplain .empty).2 hvalid, fun h => ?_⟩
  have hvalue := (compileInto_iff_valid c.dialect (.value (.bool true)) (.value _) .empty).1 h
  cases hvalue

end WhereClause
