/-
WhereClause/Proofs/Spelling.lean

How the parts of a condition are spelled.  A reader takes exactly the
specifications that spell its parts: where it succeeds the operands can be had
back from what was read, and nothing else would have been read as the same.

Main results: columns, operands and escapings are read from their spellings alone
(`Column.ofSpec_eq_ok`, `Operand.ofSpec_eq_ok`, `Escaping.ofSpec_eq_ok`), and so is
the node of each form (`Condition.readComparison_eq_ok` and its like).
-/
import Mathlib.Data.Set.List
import WhereClause.Condition.Operands

namespace WhereClause

open Attempt

/-! ### Spellings -/

/-- How a column is given to an operator. -/
def Column.spelling : Column Spec → Spec
  | .name n => .text n
  | .raw sql => .scalar (.raw sql)
  | .subquery q => .subquery q

/-- The empty text is no column. -/
def Column.IsNamed {S : Type} : Column S → Prop
  | .name n => n ≠ ""
  | _ => True

/-- A plain column as one of the columns. -/
def PlainColumn.column {S : Type} : PlainColumn → Column S
  | .name n => .name n
  | .raw sql => .raw sql

namespace Operand

mutual

/-- An operand is spelled by what it was read from. -/
def spelling : Operand Spec → Spec
  | .scalar s => .scalar s
  | .list items => .list (spellings items)
  | .row entries => .map (entrySpellings entries)

/-- Members are spelled one by one. -/
def spellings : List (Operand Spec) → List Spec
  | [] => []
  | o :: os => o.spelling :: spellings os

/-- Entries are spelled under their keys. -/
def entrySpellings : List (String × Operand Spec) → List (String × Spec)
  | [] => []
  | (k, o) :: es => (k, o.spelling) :: entrySpellings es

end

/-- The recursion over members is that of the library. -/
theorem spellings_eq_map (os : List (Operand Spec)) : spellings os = os.map spelling := by
  induction os with
  | nil => rfl
  | cons o os ih => rw [spellings, ih, List.map_cons]

theorem entrySpellings_eq_map (es : List (String × Operand Spec)) :
    entrySpellings es = es.map fun e => (e.1, e.2.spelling) := by
  induction es with
  | nil => rfl
  | cons e es ih => rw [entrySpellings, ih, List.map_cons]

end Operand

/-- No condition stands as a value in it; what stands in sub-queries does not matter. -/
inductive Spec.IsOperand : Spec → Prop
  | scalar (x : Scalar Spec) : IsOperand (.scalar x)
  | list {ss : List Spec} (h : ∀ s ∈ ss, IsOperand s) : IsOperand (.list ss)
  | map {es : List (String × Spec)} (h : ∀ e ∈ es, IsOperand e.2) : IsOperand (.map es)

/-- What has no condition in a value slot is the spelling of some operand. The induction finds
an operand for each item, and these make up the list or the row. -/
theorem Spec.IsOperand.exists_operand {s : Spec} (h : s.IsOperand) :
    ∃ o : Operand Spec, s = o.spelling := by
  induction h with
  | scalar x => exact ⟨.scalar x, rfl⟩
  | @list ss _ ih =>
    -- The operands are chosen for all items at once, in their order.
    have hitems : ss ∈ Set.range (List.map Operand.spelling) := by
      rw [Set.range_list_map]
      exact fun s hs => (ih s hs).imp fun o ho => ho.symm
    obtain ⟨os, rfl⟩ := hitems
    exact ⟨.list os, by rw [Operand.spelling, Operand.spellings_eq_map]⟩
  | @map es _ ih =>
    have hentries : es ∈ Set.range (List.map fun e : String × Operand Spec =>
        (e.1, e.2.spelling)) := by
      rw [Set.range_list_map]
      rintro ⟨k, s⟩ he
      obtain ⟨o, ho⟩ := ih _ he
      exact ⟨(k, o), Prod.ext rfl ho.symm⟩
    obtain ⟨os, rfl⟩ := hentries
    exact ⟨.row os, by rw [Operand.spelling, Operand.entrySpellings_eq_map]⟩

/-- A table is a mapping of single characters to texts. -/
def Escaping.spelling : Escaping → Spec
  | .standard => .null
  | .disabled => .value (.bool false)
  | .custom table => .map (table.map fun e => (String.singleton e.1, .text e.2))

/-- What a test was made of. -/
def HashTest.operand {S : Type} : HashTest S → Operand S
  | .scalar s => .scalar s
  | .list items => .list items

/-! ### Reading parts -/

/-- **A column is read from its spelling alone**, and only if it has a name. -/
theorem Column.ofSpec_eq_ok {operator : String} {s : Spec} {c : Column Spec} :
    Column.ofSpec operator s = .ok c ↔ s = c.spelling ∧ c.IsNamed := by
  constructor
  · intro h
    -- Backwards the cases are those of the function, forwards those of the column.
    unfold ofSpec at h
    split at h
    · next n =>
      split at h
      · simp at h
      · next hn =>
        cases h
        exact ⟨rfl, fun hempty => hn (by simp [hempty])⟩
    · cases h
      exact ⟨rfl, trivial⟩
    · cases h
      exact ⟨rfl, trivial⟩
    · simp at h
  · rintro ⟨rfl, hnamed⟩
    cases c with
    | name n => exact if_neg fun hempty => hnamed (String.isEmpty_iff.1 hempty)
    | raw sql => rfl
    | subquery q => rfl

namespace Operand

mutual

/-- **An operand is read from its spelling alone.** The induction is on the specification,
together with its items and entries. -/
theorem ofSpec_eq_ok {operator : String} : ∀ {s : Spec} {o : Operand Spec},
    ofSpec operator s = .ok o ↔ s = o.spelling
  | .scalar x, o => by
    rw [ofSpec]
    cases o with
    | scalar y => simp [spelling]
    | list items => simp [spelling]
    | row entries => simp [spelling]
  | .list ss, o => by
    rw [ofSpec]
    simp only [bind_eq_ok, ofItems_eq_ok]
    cases o with
    | scalar y => simp [spelling, pure, Except.pure]
    | list items => simp [spelling, pure, Except.pure]
    | row entries => simp [spelling, pure, Except.pure]
  | .map es, o => by
    rw [ofSpec]
    simp only [bind_eq_ok, ofEntries_eq_ok]
    cases o with
    | scalar y => simp [spelling, pure, Except.pure]
    | list items => simp [spelling, pure, Except.pure]
    | row entries => simp [spelling, pure, Except.pure]
  | .condition c, o => by
    rw [ofSpec]
    cases o <;> simp [spelling]

/-- Items are read from the spellings of the members, each from its own. -/
theorem ofItems_eq_ok {operator : String} : ∀ {ss : List Spec} {os : List (Operand Spec)},
    ofItems operator ss = .ok os ↔ ss = spellings os
  | [], os => by cases os <;> simp [ofItems, spellings]
  | s :: ss, os => by
    rw [ofItems]
    simp only [bind_eq_ok, ofSpec_eq_ok, ofItems_eq_ok]
    cases os with
    | nil => simp [spellings, pure, Except.pure]
    | cons o os => simp [spellings, pure, Except.pure]

/-- Entries are read under their keys. -/
theorem ofEntries_eq_ok {operator : String} :
    ∀ {ss : List (String × Spec)} {es : List (String × Operand Spec)},
    ofEntries operator ss = .ok es ↔ ss = entrySpellings es
  | [], es => by cases es <;> simp [ofEntries, entrySpellings]
  | (k, s) :: ss, es => by
    rw [ofEntries]
    simp only [bind_eq_ok, ofSpec_eq_ok, ofEntries_eq_ok]
    cases es with
    | nil => simp [entrySpellings, pure, Except.pure]
    | cons e es =>
      obtain ⟨k', o⟩ := e
      simp only [entrySpellings, pure, Except.pure, Except.ok.injEq, List.cons.injEq,
        Prod.mk.injEq]
      constructor
      · rintro ⟨o', rfl, es', rfl, ⟨rfl, rfl⟩, rfl⟩
        exact ⟨⟨rfl, rfl⟩, rfl⟩
      · rintro ⟨⟨rfl, rfl⟩, rfl⟩
        exact ⟨o, rfl, es, rfl, ⟨rfl, rfl⟩, rfl⟩

end

/-- Only a scalar passes as one. -/
theorem toScalar_eq_ok {S : Type} {operator : String} {o : Operand S} {x : Scalar S} :
    o.toScalar operator = .ok x ↔ o = .scalar x := by
  cases o <;> simp [toScalar]

end Operand

/-- A scalar slot takes scalars alone. -/
theorem Scalar.ofSpec_eq_ok {operator : String} {s : Spec} {x : Scalar Spec} :
    Scalar.ofSpec operator s = .ok x ↔ s = .scalar x := by
  simp only [ofSpec, bind_eq_ok, Operand.ofSpec_eq_ok, Operand.toScalar_eq_ok, exists_eq_right,
    Operand.spelling]

/-- An operator that is known is passed on. -/
theorem Operator.known_eq_ok {α : Type} {token : String} {x : Option α} {a : α} :
    Operator.known token x = .ok a ↔ x = some a := by
  cases x <;> simp [known]

/-- A column passes for a test of membership if it is plain. -/
theorem PlainColumn.ofColumn_eq_ok {S : Type} {operator : String} {c : Column S}
    {p : PlainColumn} : PlainColumn.ofColumn operator c = .ok p ↔ c = p.column := by
  cases c <;> cases p <;> simp [ofColumn, column]

/-- All but rows pass as tests. -/
theorem HashTest.ofOperand_eq_ok {S : Type} {column : String} {o : Operand S} {e : HashTest S} :
    HashTest.ofOperand column o = .ok e ↔ o = e.operand := by
  cases o <;> cases e <;> simp [ofOperand, operand]

/-- A replacement is a text under a key of one character. -/
theorem Escaping.replacement_eq_ok {operator : String} {e : String × Spec} {r : Char × String} :
    Escaping.replacement operator e = .ok r ↔ e = (String.singleton r.1, .text r.2) := by
  obtain ⟨k, s⟩ := e
  obtain ⟨c, t⟩ := r
  have hkey : k.toList = [c] ↔ k = String.singleton c := by
    rw [← String.toList_inj, String.toList_singleton]
  constructor
  · intro h
    -- First the key is asked to be one character, then what stands under it to be a text.
    unfold replacement at h
    split at h
    · next c' hc =>
      split at h
      · cases h
        exact Prod.ext (hkey.1 hc) (by assumption)
      · simp at h
    · simp at h
  · intro h
    cases h
    simp [replacement, Spec.text, Spec.value]

/-- **An escaping is read from its spelling alone.** -/
theorem Escaping.ofSpec_eq_ok {operator : String} {s : Spec} {e : Escaping} :
    Escaping.ofSpec operator s = .ok e ↔ s = e.spelling := by
  constructor
  · intro h
    unfold ofSpec at h
    split at h
    · cases h
      rfl
    · cases h
      rfl
    · obtain ⟨table, htable, h⟩ := bind_eq_ok.1 h
      cases h
      -- No condition is on the replacements besides their form.
      have hinv := (mapM_eq_ok (p := fun _ => True) fun a b => by
        rw [replacement_eq_ok, and_true]).1 htable
      rw [hinv.1]
      rfl
    · simp at h
  · rintro rfl
    cases e with
    | standard => rfl
    | disabled => rfl
    | custom table =>
      refine bind_eq_ok.2 ⟨table, ?_, rfl⟩
      exact (mapM_eq_ok (p := fun _ => True) fun a b => by
        rw [replacement_eq_ok, and_true]).2 ⟨rfl, fun _ _ => trivial⟩

/-- A column is spelled by a text, raw SQL or a sub-query. -/
theorem Column.exists_spelling (column : Column Spec) :
    ∃ x, column.spelling = .scalar x := by
  cases column <;> exact ⟨_, rfl⟩

namespace Condition

/-! ### Reading nodes -/

variable {operator : String} {operands : List Spec} {c : Condition Spec}

/-- Where a comparison is read, the operands spell its sides, and its operator is a comparison.
-/
theorem readComparison_eq_ok : readComparison operator operands = .ok c ↔
    ∃ column x comparison, operands = [column.spelling, .scalar x] ∧ column.IsNamed ∧
      ComparisonOperator.ofToken? (Operator.normalize operator) = some comparison ∧
      c = .comparison column comparison x := by
  constructor
  · intro h
    unfold readComparison at h
    split at h
    · simp only [ofComparison, bind_eq_ok, Column.ofSpec_eq_ok, Scalar.ofSpec_eq_ok,
        Operator.known_eq_ok, Operand.toScalar_eq_ok] at h
      -- The operand is taken for a scalar twice, as it is read and as the node is made.
      obtain ⟨column, ⟨rfl, hnamed⟩, x, rfl, comparison, hknown, y, hy, h⟩ := h
      cases hy
      cases h
      exact ⟨column, x, comparison, rfl, hnamed, hknown, rfl⟩
    · simp at h
  · rintro ⟨column, x, comparison, rfl, hnamed, hknown, rfl⟩
    simp only [readComparison, ofComparison, bind_eq_ok, Column.ofSpec_eq_ok,
      Scalar.ofSpec_eq_ok, Operator.known_eq_ok, Operand.toScalar_eq_ok]
    exact ⟨column, ⟨rfl, hnamed⟩, x, rfl, comparison, hknown, x, rfl, rfl⟩

/-- The columns stand in a list, or there is one that stands for itself. -/
theorem readColumns_eq_ok {s : Spec} {columns : List (Column Spec)} :
    readColumns operator s = .ok columns ↔
      (s = .list (columns.map Column.spelling) ∨
        ∃ column, columns = [column] ∧ s = column.spelling) ∧
      ∀ column ∈ columns, column.IsNamed := by
  unfold readColumns
  split
  · next ss =>
    have hlist : ss.mapM (Column.ofSpec operator) = .ok columns ↔
        ss = columns.map Column.spelling ∧ ∀ column ∈ columns, column.IsNamed :=
      mapM_eq_ok fun a b => Column.ofSpec_eq_ok
    rw [hlist, Spec.list.injEq]
    refine and_congr_left fun _ => (or_iff_left ?_).symm
    -- A list of columns is no spelling of one, since columns are spelled by scalars.
    rintro ⟨column, -, hcolumn⟩
    obtain ⟨x, hx⟩ := column.exists_spelling
    rw [hx] at hcolumn
    exact Spec.noConfusion hcolumn
  · next hother =>
    simp only [bind_eq_ok, Column.ofSpec_eq_ok]
    constructor
    · rintro ⟨column, ⟨rfl, hnamed⟩, h⟩
      cases h
      exact ⟨.inr ⟨column, rfl, rfl⟩, fun column' h => List.mem_singleton.1 h ▸ hnamed⟩
    · rintro ⟨hs | ⟨column, rfl, rfl⟩, hnamed⟩
      · exact absurd hs (hother _)
      · exact ⟨column, ⟨rfl, hnamed column (List.mem_singleton_self column)⟩, rfl⟩

/-- The columns are left as they were given, since one of them may stand with or without a list.
-/
theorem readMembership_eq_ok : readMembership operator operands = .ok c ↔
    ∃ (s : Spec) (o : Operand Spec) (columns : List PlainColumn) (polarity : Polarity),
      operands = [s, o.spelling] ∧
      readColumns operator s = .ok (columns.map PlainColumn.column) ∧
      Polarity.ofToken? "IN" (Operator.normalize operator) = some polarity ∧
      c = .membership columns polarity (.ofOperand o) := by
  -- That the columns are plain is asked after all of them have been read.
  have hplain : ∀ (token : String) (cs : List (Column Spec)) (columns : List PlainColumn),
      cs.mapM (PlainColumn.ofColumn token) = .ok columns ↔
        cs = columns.map PlainColumn.column := fun token cs columns => by
    rw [mapM_eq_ok (p := fun _ => True) fun a b => by rw [PlainColumn.ofColumn_eq_ok, and_true]]
    simp
  constructor
  · intro h
    unfold readMembership at h
    split at h
    · next s values =>
      simp only [ofMembership, bind_eq_ok, Operand.ofSpec_eq_ok, Operator.known_eq_ok,
        hplain] at h
      obtain ⟨cs, hcs, o, rfl, polarity, hknown, columns, rfl, h⟩ := h
      cases h
      exact ⟨s, o, columns, polarity, rfl, hcs, hknown, rfl⟩
    · simp at h
  · rintro ⟨s, o, columns, polarity, rfl, hcolumns, hknown, rfl⟩
    simp only [readMembership, ofMembership, bind_eq_ok, Operand.ofSpec_eq_ok,
      Operator.known_eq_ok, hplain]
    exact ⟨_, hcolumns, o, rfl, polarity, hknown, columns, rfl, rfl⟩

/-- Where a range is read, the operands spell the column and the bounds. -/
theorem readBetween_eq_ok : readBetween operator operands = .ok c ↔
    ∃ column low high polarity, operands = [column.spelling, .scalar low, .scalar high] ∧
      column.IsNamed ∧
      Polarity.ofToken? "BETWEEN" (Operator.normalize operator) = some polarity ∧
      c = .between column polarity low high := by
  constructor
  · intro h
    unfold readBetween at h
    split at h
    · simp only [ofBetween, bind_eq_ok, Column.ofSpec_eq_ok, Scalar.ofSpec_eq_ok,
        Operator.known_eq_ok, Operand.toScalar_eq_ok] at h
      obtain ⟨column, ⟨rfl, hnamed⟩, low, rfl, high, rfl, polarity, hknown, x, hx, y, hy, h⟩ := h
      cases hx
      cases hy
      cases h
      exact ⟨column, low, high, polarity, rfl, hnamed, hknown, rfl⟩
    · simp at h
  · rintro ⟨column, low, high, polarity, rfl, hnamed, hknown, rfl⟩
    simp only [readBetween, ofBetween, bind_eq_ok, Column.ofSpec_eq_ok, Scalar.ofSpec_eq_ok,
      Operator.known_eq_ok, Operand.toScalar_eq_ok]
    exact ⟨column, ⟨rfl, hnamed⟩, low, rfl, high, rfl, polarity, hknown, low, rfl, high, rfl, rfl⟩

/-- The bounds are columns here, so each of them has a name. -/
theorem readBetweenColumns_eq_ok : readBetweenColumns operator operands = .ok c ↔
    ∃ x low high polarity, operands = [.scalar x, low.spelling, high.spelling] ∧
      low.IsNamed ∧ high.IsNamed ∧
      Polarity.ofToken? "BETWEEN" (Operator.normalize operator) = some polarity ∧
      c = .betweenColumns x polarity low high := by
  constructor
  · intro h
    unfold readBetweenColumns at h
    split at h
    · simp only [ofBetweenColumns, bind_eq_ok, Column.ofSpec_eq_ok, Scalar.ofSpec_eq_ok,
        Operator.known_eq_ok, Operand.toScalar_eq_ok] at h
      obtain ⟨x, rfl, low, ⟨rfl, hlow⟩, high, ⟨rfl, hhigh⟩, polarity, hknown, y, hy, h⟩ := h
      cases hy
      cases h
      exact ⟨x, low, high, polarity, rfl, hlow, hhigh, hknown, rfl⟩
    · simp at h
  · rintro ⟨x, low, high, polarity, rfl, hlow, hhigh, hknown, rfl⟩
    simp only [readBetweenColumns, ofBetweenColumns, bind_eq_ok, Column.ofSpec_eq_ok,
      Scalar.ofSpec_eq_ok, Operator.known_eq_ok, Operand.toScalar_eq_ok]
    exact ⟨x, rfl, low, ⟨rfl, hlow⟩, high, ⟨rfl, hhigh⟩, polarity, hknown, x, rfl, rfl⟩

/-- The patterns are what the members were read as, one by one. -/
theorem readPatternWith_eq_ok {column values escaping : Spec} :
    readPatternWith operator column values escaping = .ok c ↔
    ∃ (column' : Column Spec) (o : Operand Spec) (escaping' : Escaping) (like : LikeOperator)
      (patterns : List (Pattern Spec)), column = column'.spelling ∧ values = o.spelling ∧
      escaping = escaping'.spelling ∧ column'.IsNamed ∧
      LikeOperator.ofToken? (Operator.normalize operator) = some like ∧
      o.members.mapM (Pattern.ofOperand operator) = .ok patterns ∧
      c = .pattern column' like patterns escaping' := by
  -- Each step of the reader is replaced by what it asks for; the witnesses come in that order.
  simp only [readPatternWith, ofPatterns, bind_eq_ok, Column.ofSpec_eq_ok, Operand.ofSpec_eq_ok,
    Escaping.ofSpec_eq_ok, Operator.known_eq_ok]
  constructor
  · rintro ⟨column', ⟨rfl, hnamed⟩, o, rfl, escaping', rfl, like, hknown, patterns, hpatterns, h⟩
    cases h
    exact ⟨column', o, escaping', like, patterns, rfl, rfl, rfl, hnamed, hknown, hpatterns, rfl⟩
  · rintro ⟨column', o, escaping', like, patterns, rfl, rfl, rfl, hnamed, hknown, hpatterns, rfl⟩
    exact ⟨column', ⟨rfl, hnamed⟩, o, rfl, escaping', rfl, like, hknown, patterns, hpatterns, rfl⟩

/-- The escaping may be left out, which is to leave it to the options. -/
theorem readPattern_eq_ok : readPattern operator operands = .ok c ↔
    ∃ column values escaping, (operands = [column, values, escaping] ∨
        operands = [column, values] ∧ escaping = .null) ∧
      readPatternWith operator column values escaping = .ok c := by
  constructor
  · intro h
    unfold readPattern at h
    split at h
    · exact ⟨_, _, .null, .inr ⟨rfl, rfl⟩, h⟩
    · exact ⟨_, _, _, .inl rfl, h⟩
    · simp at h
  · rintro ⟨column, values, escaping, rfl | ⟨rfl, rfl⟩, h⟩
    · exact h
    · exact h

/-- A negation takes whatever it is given, once. -/
theorem readNegation_eq_ok : readNegation operator operands = .ok c ↔
    ∃ inner, operands = [inner] ∧ c = .negation inner := by
  constructor
  · intro h
    unfold readNegation at h
    split at h
    · cases h
      exact ⟨_, rfl, rfl⟩
    · simp at h
  · rintro ⟨inner, rfl, rfl⟩
    rfl

/-- A junction takes whatever it is given, as often as it is given. -/
theorem readJunction_eq_ok : readJunction operator operands = .ok c ↔
    ∃ j, Junction.ofToken? (Operator.normalize operator) = some j ∧ c = .junction j operands := by
  simp only [readJunction, ofJunction, bind_eq_ok, Operator.known_eq_ok, pure, Except.pure,
    Except.ok.injEq, eq_comm (b := c)]

/-- An existence test takes a sub-query, and no more than one. -/
theorem readExistence_eq_ok : readExistence operator operands = .ok c ↔
    ∃ q polarity, operands = [.subquery q] ∧
      Polarity.ofToken? "EXISTS" (Operator.normalize operator) = some polarity ∧
      c = .existence polarity q := by
  constructor
  · intro h
    unfold readExistence at h
    split at h
    · simp only [ofExistence, bind_eq_ok, Operator.known_eq_ok] at h
      obtain ⟨polarity, hknown, h⟩ := h
      cases h
      exact ⟨_, polarity, rfl, hknown, rfl⟩
    · simp at h
    · simp at h
  · rintro ⟨q, polarity, rfl, hknown, rfl⟩
    simp only [readExistence, ofExistence, Spec.subquery, bind_eq_ok, Operator.known_eq_ok]
    exact ⟨polarity, hknown, rfl⟩

/-- Reading the values of entries, each under its key. -/
theorem mapM_entries_eq_ok {α β : Type} (f : String → α → Except Error β) {g : β → α}
    (h : ∀ k a b, f k a = .ok b ↔ a = g b) {as : List (String × α)} {bs : List (String × β)} :
    (as.mapM fun e => do return (e.1, ← f e.1 e.2)) = .ok bs ↔
      as = bs.map fun e => (e.1, g e.2) := by
  rw [mapM_eq_ok (p := fun _ => True) (g := fun e => (e.1, g e.2))]
  · simp
  · rintro ⟨k, a⟩ ⟨k', b⟩
    simp only [bind_eq_ok, h, pure, Except.pure, Except.ok.injEq, Prod.mk.injEq, and_true]
    constructor
    · rintro ⟨b', rfl, rfl, rfl⟩
      exact ⟨rfl, rfl⟩
    · rintro ⟨rfl, rfl⟩
      exact ⟨b, rfl, rfl, rfl⟩

/-- Entries make a hash if their values are tests. -/
theorem ofTests_eq_ok {S : Type} {os : List (String × Operand S)} {c : Condition S} :
    ofTests os = .ok c ↔ ∃ tests : List (String × HashTest S),
      os = (tests.map fun e => (e.1, e.2.operand)) ∧ c = .hash tests := by
  have htests (tests : List (String × HashTest S)) :
      (os.mapM fun e => do return (e.1, ← HashTest.ofOperand e.1 e.2)) = .ok tests ↔
        os = tests.map fun e => (e.1, e.2.operand) :=
    mapM_entries_eq_ok HashTest.ofOperand fun _ _ _ => HashTest.ofOperand_eq_ok
  simp only [ofTests, bind_eq_ok, htests]
  constructor
  · rintro ⟨tests, hos, h⟩
    cases h
    exact ⟨tests, hos, rfl⟩
  · rintro ⟨tests, hos, rfl⟩
    exact ⟨tests, hos, rfl⟩

/-- A mapping is read as a hash if its values spell tests. -/
theorem ofMap_eq_ok {entries : List (String × Spec)} : ofMap entries = .ok c ↔
    ∃ tests : List (String × HashTest Spec),
      entries = (tests.map fun e => (e.1, e.2.operand.spelling)) ∧ c = .hash tests := by
  have hoperands (os : List (String × Operand Spec)) :
      (entries.mapM fun e => do return (e.1, ← Operand.ofSpec e.1 e.2)) = .ok os ↔
        entries = os.map fun e => (e.1, e.2.spelling) :=
    mapM_entries_eq_ok Operand.ofSpec fun _ _ _ => Operand.ofSpec_eq_ok
  simp only [ofMap, bind_eq_ok, hoperands, ofTests_eq_ok]
  constructor
  · rintro ⟨-, rfl, tests, rfl, rfl⟩
    exact ⟨tests, List.map_map, rfl⟩
  · rintro ⟨tests, rfl, rfl⟩
    exact ⟨tests.map fun e => (e.1, e.2.operand), by rw [List.map_map]; rfl, tests, rfl, rfl⟩

end Condition

end WhereClause
