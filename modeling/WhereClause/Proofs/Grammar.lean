/-
WhereClause/Proofs/Grammar.lean

The grammar of conditions: `Spec.Valid` has a rule for each way to write one with the
standard operators, made of null, values, raw SQL, lists and mappings.

Main results: the tokens of the rules are those under which the operators are found
(`Registry.builtin?_standard`), and the parts of the rules are what can be written
(`Membership.isCandidates_iff` and its like).
-/
import Mathlib.Data.Set.List
import WhereClause.Proofs.Render.Success
import WhereClause.Proofs.Subqueries

namespace WhereClause

open Operator (normalize)

/-! ### The grammar -/

namespace Spec

/-- Made of null, values, raw SQL, lists and mappings. -/
inductive IsPlain : Spec → Prop
  | null : IsPlain .null
  | value (v : Value) : IsPlain (.value v)
  | raw (sql : String) : IsPlain (.raw sql)
  | list {ss : List Spec} (h : ∀ s ∈ ss, IsPlain s) : IsPlain (.list ss)
  | map {es : List (String × Spec)} (h : ∀ e ∈ es, IsPlain e.2) : IsPlain (.map es)

/-- Null, a value or raw SQL. -/
def IsScalar : Spec → Prop
  | .scalar (.subquery _) => False
  | .scalar _ => True
  | _ => False

/-- The items of a list; anything else is a list of one. -/
def members : Spec → List Spec
  | .list items => items
  | other => [other]

/-- What may be a member under a column: a scalar, or a row whose entry is one, if it
has an entry. -/
def IsMember (key : String) : Spec → Prop
  | .map entries => ∀ s ∈ entries.lookup key, s.IsScalar
  | other => other.IsScalar

/-- What may be a row for several columns: its entries under the columns, by name or by
position, are scalars if they are there. -/
def IsRow (columns : List PlainColumn) : Spec → Prop
  | .map entries => ∀ c ∈ columns, ∀ s ∈ entries.lookup c.key, s.IsScalar
  | .list items => ∀ s ∈ items.take columns.length, s.IsScalar
  | _ => False

/-- What columns may be among; if there are none it does not matter. -/
def IsCandidates : List PlainColumn → Spec → Prop
  | [], _ => True
  | [column], s => ∀ m ∈ s.members, m.IsMember column.key
  | columns, s => ∀ m ∈ s.members, m.IsRow columns

/-- What a mapping may ask of a column. -/
def IsTest (key : String) : Spec → Prop
  | .list items => ∀ m ∈ items, m.IsMember key
  | other => other.IsScalar

/-- A text, a number or raw SQL. -/
def IsPattern : Spec → Prop
  | .scalar (.value v) => v.type = .text ∨ v.type = .int ∨ v.type = .float
  | .scalar (.raw _) => True
  | _ => False

/-- Null, `false` or a mapping of single characters to texts. -/
def IsEscaping : Spec → Prop
  | .scalar .null => True
  | .scalar (.value (.bool b)) => b = false
  | .map entries => ∀ e ∈ entries, (∃ c, e.1 = String.singleton c) ∧ ∃ s, e.2 = .text s
  | _ => False

end Spec

namespace PlainColumn

/-- A column as it is given to an operator. -/
def spelling : PlainColumn → Spec
  | .name n => .text n
  | .raw sql => .scalar (.raw sql)

/-- The empty text names no column. -/
def IsNamed : PlainColumn → Prop
  | .name n => n ≠ ""
  | .raw _ => True

/-- The columns in a list, or one that stands for itself. -/
def AreSpelled (columns : List PlainColumn) (s : Spec) : Prop :=
  (s = .list (columns.map spelling) ∨ ∃ c, columns = [c] ∧ s = c.spelling) ∧
    ∀ c ∈ columns, c.IsNamed

end PlainColumn

/-- The pattern operators that have a reader. Those that begin with `AND` can be parsed as well,
but no list leads to them. -/
def LikeOperator.tokens : List String :=
  ["LIKE", "NOT LIKE", "OR LIKE", "OR NOT LIKE",
   "ILIKE", "NOT ILIKE", "OR ILIKE", "OR NOT ILIKE"]

/-- The conditions that can be written with the standard operators. -/
inductive Spec.Valid : Spec → Prop
  | null : Valid .null
  | emptyText : Valid (.text "")
  | emptyList : Valid (.list [])
  | raw (sql : String) : Valid (.raw sql)
  | map {entries : List (String × Spec)} (h : ∀ e ∈ entries, e.2.IsTest e.1) :
      Valid (.map entries)
  | junction {token : String} {operands : List Spec}
      (ht : normalize token = "AND" ∨ normalize token = "OR") (h : ∀ s ∈ operands, Valid s) :
      Valid (.operator token operands)
  | negation {token : String} {s : Spec} (ht : normalize token = "NOT") (h : Valid s) :
      Valid (.operator token [s])
  | between {token : String} {column : PlainColumn} {low high : Spec}
      (ht : normalize token = "BETWEEN" ∨ normalize token = "NOT BETWEEN")
      (hc : column.IsNamed) (hl : low.IsScalar) (hh : high.IsScalar) :
      Valid (.operator token [column.spelling, low, high])
  | pattern {token : String} {column : PlainColumn} {values : Spec} {escaping : List Spec}
      (ht : normalize token ∈ LikeOperator.tokens) (hc : column.IsNamed)
      (hv : ∀ m ∈ values.members, m.IsPattern) (hlength : escaping.length ≤ 1)
      (he : ∀ e ∈ escaping, e.IsEscaping) :
      Valid (.operator token (column.spelling :: values :: escaping))
  | membership {token : String} {columns : List PlainColumn} {s values : Spec}
      (ht : normalize token = "IN" ∨ normalize token = "NOT IN")
      (hc : PlainColumn.AreSpelled columns s) (hv : values.IsCandidates columns) :
      Valid (.operator token [s, values])
  | comparison {token : String} {column : PlainColumn} {value : Spec}
      (ht : Registry.standard.get? token = none) (hsafe : isComparison (normalize token) = true)
      (hc : column.IsNamed) (hv : value.IsScalar) :
      Valid (.operator token [column.spelling, value])

/-! ### Tokens -/

namespace Operator

/-- Comparisons are in normal form: their symbols are neither blank nor letters. -/
theorem normalize_of_isComparison {token : String} (h : isComparison token = true) :
    normalize token = token := by
  have hkeywords : ∀ k ∈ comparisonKeywords, normalize k = k := by decide +kernel
  -- Decided on the list; as it stands it may be decided for every character there is.
  have hsymbols : ∀ c ∈ comparisonSymbols, Text.isBlank c = false ∧ Text.uppercaseChar c = [c] :=
    List.forall_iff_forall_mem.1 (by decide +kernel)
  rw [isComparison, Bool.or_eq_true, isSymbolic, Bool.and_eq_true, Bool.and_eq_true] at h
  rcases h with ⟨⟨hne, hall⟩, -⟩ | hkeyword
  · have hmem : ∀ c ∈ token.toList, c ∈ comparisonSymbols := fun c hc =>
      List.contains_iff_mem.1 (List.all_eq_true.1 hall c hc)
    have hwords : Text.words token.toList = [token.toList] := by
      rw [Text.words, List.splitOnP_eq_singleton fun c hc => (hsymbols c (hmem c hc)).1]
      exact List.filter_cons_of_pos hne
    have huppercase : Text.uppercase token.toList = token.toList := by
      rw [Text.uppercase, List.flatMap_congr fun c hc => (hsymbols c (hmem c hc)).2]
      exact List.flatMap_singleton' _
    rw [normalize, hwords, List.intercalate_singleton, huppercase, String.ofList_toList]
  · exact hkeywords token (List.contains_iff_mem.1 hkeyword)

end Operator

/-- A token in either form has a polarity, once it is known that both forms are normal. -/
theorem Polarity.exists_ofToken? (base : String) {t : String} (hbase : normalize base = base)
    (hnot : normalize ("NOT " ++ base) = "NOT " ++ base)
    (ht : t = base ∨ t = "NOT " ++ base) : ∃ p, ofToken? base (normalize t) = some p := by
  rcases ht with rfl | rfl
  · exact ⟨.positive, by rw [hbase, ofToken?, if_pos rfl]⟩
  · rw [hnot, ofToken?]
    split
    · exact ⟨.positive, rfl⟩
    · exact ⟨.negative, if_pos rfl⟩

/-- The normalized tokens under which the standard operators are found. -/
def Builtin.HasToken (t : String) : Builtin → Prop
  | .junction => t = "AND" ∨ t = "OR"
  | .negation => t = "NOT"
  | .membership => t = "IN" ∨ t = "NOT IN"
  | .between => t = "BETWEEN" ∨ t = "NOT BETWEEN"
  | .pattern => t ∈ LikeOperator.tokens
  | .existence => t = "EXISTS" ∨ t = "NOT EXISTS"
  | .comparison => Registry.standardTable.lookup t = none ∧ isComparison t = true
  | .betweenColumns => False

namespace Registry

/-- **The tokens of the rules are the tokens of the table**, and with the same forms. -/
theorem builtin?_standard {t : String} {b : Builtin} :
    builtin? standardTable t = some b ↔ b.HasToken t := by
  constructor
  · intro h
    rw [builtin?] at h
    split at h
    · next b' hlookup =>
      obtain rfl : b' = b := Option.some.inj h
      -- Forward by a look at every entry of the table, back by a look at every token of the
      -- rule.
      have hall : ∀ e ∈ standardTable, e.2.HasToken e.1 := by
        simp [standardTable, Builtin.HasToken, LikeOperator.tokens]
      exact hall _ (Keyed.mem_of_lookup hlookup)
    · next hlookup =>
      split at h
      · next hsafe =>
        obtain rfl := Option.some.inj h
        exact ⟨hlookup, hsafe⟩
      · simp at h
  · intro h
    cases b with
    | junction => rcases h with rfl | rfl <;> rfl
    | negation => exact h ▸ rfl
    | membership => rcases h with rfl | rfl <;> rfl
    | between => rcases h with rfl | rfl <;> rfl
    | pattern =>
      have hall : ∀ t ∈ LikeOperator.tokens, builtin? standardTable t = some .pattern := by
        decide +kernel
      exact hall t h
    | existence => rcases h with rfl | rfl <;> rfl
    | comparison =>
      rw [builtin?, h.1]
      exact if_pos h.2
    | betweenColumns => exact absurd h id

/-- What no rule has a token for is in no table entry. -/
theorem get?_standard_eq_none {token : String} :
    standard.get? token = none ↔ standardTable.lookup (normalize token) = none := by
  have hforms : standard.get? token = (standardTable.map fun e => (e.1, e.2.form)).lookup
      (normalize token) := rfl
  rw [hforms, Keyed.lookup_map, Option.map_eq_none_iff]

end Registry

/-! ### The parts of plain specifications -/

variable {g : Spec → Prop}

/-- A scalar without a sub-query is written. -/
theorem Scalar.renders_map {x : Scalar Spec} (h : (Spec.scalar x).IsScalar) :
    (x.map g).Renders := by
  cases x with
  | subquery q => exact absurd h id
  | _ => exact fun p hp => absurd hp List.not_mem_nil

/-- What is a scalar by the grammar is one by its constructor. -/
theorem Spec.IsScalar.exists_scalar {s : Spec} (h : s.IsScalar) : ∃ x, s = .scalar x := by
  cases s with
  | scalar x => exact ⟨x, rfl⟩
  | _ => exact absurd h id

namespace PlainColumn

/-- A plain column is written, since it holds nothing that could fail. -/
theorem renders_map (c : PlainColumn) : ((c.column : Column Spec).map g).Renders := by
  cases c <;> exact fun p hp => absurd hp List.not_mem_nil

/-- The spelling of a plain column is that of the column that it is. -/
theorem spelling_column (c : PlainColumn) : (c.column : Column Spec).spelling = c.spelling := by
  cases c <;> rfl

/-- The same columns are refused. -/
theorem isNamed_column {c : PlainColumn} : (c.column : Column Spec).IsNamed ↔ c.IsNamed := by
  cases c <;> exact Iff.rfl

/-- Columns are read from their spellings alone, in a list or as one. -/
theorem areSpelled_iff {operator : String} {columns : List PlainColumn} {s : Spec} :
    AreSpelled columns s ↔
      Condition.readColumns operator s = .ok (columns.map PlainColumn.column) := by
  have hspelling : (columns.map column).map Column.spelling = columns.map spelling := by
    rw [List.map_map]
    exact List.map_congr_left fun c _ => c.spelling_column
  rw [Condition.readColumns_eq_ok, hspelling, List.forall_mem_map]
  refine and_congr (or_congr_right ⟨?_, ?_⟩) (forall₂_congr fun c _ => isNamed_column.symm)
  · rintro ⟨c, rfl, rfl⟩
    exact ⟨c.column, rfl, c.spelling_column.symm⟩
  · rintro ⟨c', hc', rfl⟩
    match columns, hc' with
    | [c], hc' =>
      cases hc'
      exact ⟨c, rfl, c.spelling_column⟩

end PlainColumn

namespace Spec.IsPlain

/-- Plain specifications have no sub-queries, so each of their scalars is one of the grammar. -/
theorem isScalar {x : Scalar Spec} (h : (Spec.scalar x).IsPlain) : (Spec.scalar x).IsScalar := by
  cases h <;> trivial

/-- A plain column cannot be a sub-query. -/
theorem exists_column {column : Column Spec} (h : column.spelling.IsPlain) :
    ∃ c : PlainColumn, column = c.column := by
  cases column with
  | name n => exact ⟨.name n, rfl⟩
  | raw sql => exact ⟨.raw sql, rfl⟩
  | subquery q => cases h

/-- A plain specification is an operand. -/
theorem exists_operand {s : Spec} (h : s.IsPlain) : ∃ o : Operand Spec, s = o.spelling := by
  refine IsOperand.exists_operand ?_
  induction h with
  | list _ ih => exact .list ih
  | map _ ih => exact .map ih
  | _ => exact .scalar _

/-- There is no sub-query in it. -/
theorem onSubqueries {s : Spec} (h : s.IsPlain) : s.OnSubqueries fun _ => False := by
  induction h with
  | list _ ih => exact .list ih
  | map _ ih => exact .map ih
  | _ =>
    exact .scalar (fun q hq => absurd hq List.not_mem_nil)
      fun q hq => absurd hq List.not_mem_nil

/-- No operand of a plain specification has a sub-query. -/
theorem subqueries_eq_nil {o : Operand Spec} (h : o.spelling.IsPlain) : o.subqueries = [] :=
  List.eq_nil_iff_forall_not_mem.2 fun q hq => (Operand.satisfies h.onSubqueries q hq).1

/-- What may be asked of a column is a scalar or a list, so it is a test. -/
theorem exists_test {s : Spec} {key : String} (h : s.IsPlain) (htest : s.IsTest key) :
    ∃ e : HashTest Spec, s = e.operand.spelling := by
  obtain ⟨o, rfl⟩ := h.exists_operand
  cases o with
  | scalar x => exact ⟨.scalar x, rfl⟩
  | list items => exact ⟨.list items, rfl⟩
  | row entries => exact absurd htest id

/-- The members of a plain list are plain. -/
theorem of_items {os : List (Operand Spec)} (h : (Operand.list os).spelling.IsPlain) :
    ∀ o ∈ os, o.spelling.IsPlain := by
  rw [Operand.spelling, Operand.spellings_eq_map] at h
  cases h with
  | list h => exact List.forall_mem_map.1 h

/-- The entries of a plain mapping are plain. -/
theorem of_entries {es : List (String × Operand Spec)} (h : (Operand.row es).spelling.IsPlain) :
    ∀ e ∈ es, e.2.spelling.IsPlain := by
  rw [Operand.spelling, Operand.entrySpellings_eq_map] at h
  cases h with
  | map h => exact fun e he => h _ (List.mem_map_of_mem he)

/-- A single operand is its own member. -/
theorem of_members {o : Operand Spec} (h : o.spelling.IsPlain) :
    ∀ m ∈ o.members, m.spelling.IsPlain := by
  cases o with
  | list items => exact h.of_items
  | scalar x => exact fun m hm => List.mem_singleton.1 hm ▸ h
  | row entries => exact fun m hm => List.mem_singleton.1 hm ▸ h

end Spec.IsPlain

/-- To take the members of a spelling is to spell the members. -/
theorem Operand.members_spelling (o : Operand Spec) :
    o.spelling.members = o.members.map spelling := by
  cases o with
  | list items => rw [spelling, spellings_eq_map, Spec.members, members]
  | scalar x => rfl
  | row entries => rfl

/-- A key finds the spelling of what it finds. -/
theorem Operand.lookup_entries (entries : List (String × Operand Spec)) (key : String) :
    (entrySpellings entries).lookup key = (entries.lookup key).map spelling := by
  rw [entrySpellings_eq_map, Keyed.lookup_map]

namespace Membership

/-- A statement about what is there, when something is. -/
theorem forall_mem_some {α : Type} {a : α} {P : α → Prop} : (∀ b ∈ some a, P b) ↔ P a := by
  simp

/-- A member is written if it is a scalar; a member that is absent counts as null. -/
theorem memberRenders_iff (m : Option (Operand Spec)) :
    MemberRenders (m.map (Operand.map g)) ↔ ∀ o ∈ m, o.spelling.IsScalar := by
  cases m with
  | none => exact iff_of_true trivial fun o ho => absurd ho (by simp)
  | some o =>
    rw [Option.map_some, forall_mem_some]
    cases o with
    | scalar s =>
      rw [Operand.map_scalar]
      -- A sub-query as well as a nested list is no member, on either side.
      cases s <;> exact Iff.rfl
    | list items =>
      rw [Operand.map_list]
      exact Iff.rfl
    | row entries =>
      rw [Operand.map_row]
      exact Iff.rfl

/-- An entry that is plain is written if it is a scalar. -/
theorem entryRenders_iff {m : Option (Operand Spec)} (h : ∀ o ∈ m, o.spelling.IsPlain) :
    EntryRenders (m.map (Operand.map g)) ↔ ∀ o ∈ m, o.spelling.IsScalar := by
  cases m with
  | none => exact iff_of_true trivial fun o ho => absurd ho (by simp)
  | some o =>
    rw [forall_mem_some] at h
    rw [Option.map_some, forall_mem_some]
    cases o with
    | scalar s =>
      -- A sub-query may be an entry, but not one that is plain.
      have hs : (Spec.scalar s).IsScalar := Spec.IsPlain.isScalar h
      rw [Operand.map_scalar]
      exact iff_of_true (Scalar.renders_map hs) hs
    | list items =>
      rw [Operand.map_list]
      exact Iff.rfl
    | row entries =>
      rw [Operand.map_row]
      exact Iff.rfl

/-- Under a key the grammar and the renderer look at the same entry. -/
theorem forall_lookup_iff {P : Spec → Prop} (entries : List (String × Operand Spec))
    (key : String) : (∀ s ∈ (Operand.entrySpellings entries).lookup key, P s) ↔
      ∀ o ∈ entries.lookup key, P o.spelling := by
  rw [Operand.lookup_entries]
  cases entries.lookup key <;> simp

/-- What the grammar takes as a member is what can be written as one. -/
theorem isMember_iff (column : PlainColumn) (o : Operand Spec) :
    o.spelling.IsMember column.key ↔ MemberRenders (entryUnder column (o.map g)) := by
  rw [entryUnder_map, memberRenders_iff]
  cases o with
  | scalar s => cases s <;> simp [entryUnder, Operand.spelling, Spec.IsMember]
  | list items => simp [entryUnder, Operand.spelling, Spec.IsMember]
  | row entries =>
    rw [Operand.spelling, Spec.IsMember, entryUnder]
    exact forall_lookup_iff entries column.key

/-- What the grammar takes as a row is what can be written as one; neither looks at an entry
beyond the columns. -/
theorem isRow_iff {columns : List PlainColumn} {o : Operand Spec} (h : o.spelling.IsPlain) :
    o.spelling.IsRow columns ↔ RowRenders columns (o.map g) := by
  cases o with
  | scalar s =>
    rw [Operand.map_scalar]
    exact Iff.rfl
  | list items =>
    -- By position: both sides look at as many items as there are columns.
    rw [Operand.map_list, RowRenders, ← List.map_take, List.forall_mem_map, Operand.spelling,
      Operand.spellings_eq_map, Spec.IsRow, ← List.map_take, List.forall_mem_map]
    refine forall₂_congr fun o ho => ?_
    have hplain := entryRenders_iff (g := g) (m := some o)
      (by simpa using h.of_items o (List.mem_of_mem_take ho))
    rw [Option.map_some, forall_mem_some] at hplain
    exact hplain.symm
  | row entries =>
    -- By name: both sides look up the columns, whatever the order of the entries.
    rw [Operand.map_row, RowRenders, Operand.spelling, Spec.IsRow]
    refine forall₂_congr fun c _ => ?_
    rw [forall_lookup_iff, Keyed.lookup_map, entryRenders_iff]
    intro o ho
    exact h.of_entries _ (Keyed.mem_of_lookup (Option.mem_def.1 ho))

/-- What plain candidates may be is what can be written for them. -/
theorem isCandidates_iff (columns : List PlainColumn) {o : Operand Spec}
    (h : o.spelling.IsPlain) :
    o.spelling.IsCandidates columns ↔ Renders columns ((Candidates.ofOperand o).map g) := by
  have hmembers : Candidates.ofOperand o = .members o.members := by
    cases o with
    | scalar s =>
      cases s with
      | subquery q => exact absurd (Spec.IsPlain.isScalar h) id
      | _ => rfl
    | list items => rfl
    | row entries => rfl
  rw [hmembers, Candidates.map_members]
  -- Without columns both take anything; one column takes members, more take rows.
  match columns with
  | [] => exact Iff.rfl
  | [column] =>
    rw [Renders, Spec.IsCandidates, o.members_spelling, List.forall_mem_map, List.forall_mem_map]
    exact forall₂_congr fun m _ => isMember_iff column m
  | c :: c' :: cs =>
    show (∀ m ∈ o.spelling.members, m.IsRow (c :: c' :: cs)) ↔
      ∀ m ∈ o.members.map (Operand.map g), RowRenders (c :: c' :: cs) m
    rw [o.members_spelling, List.forall_mem_map, List.forall_mem_map]
    exact forall₂_congr fun m hm => isRow_iff (h.of_members m hm)

end Membership

/-- What the grammar lets a mapping ask is what can be written as a test. -/
theorem HashTest.isTest_iff (column : String) {e : HashTest Spec}
    (h : e.operand.spelling.IsPlain) :
    e.operand.spelling.IsTest column ↔ (e.map g).Renders column := by
  cases e with
  | scalar s =>
    have hs : (Spec.scalar s).IsScalar := Spec.IsPlain.isScalar h
    exact iff_of_true hs (Scalar.renders_map hs)
  | list items =>
    rw [map_list, Renders, Membership.Renders, List.forall_mem_map, operand, Operand.spelling,
      Operand.spellings_eq_map, Spec.IsTest, List.forall_mem_map]
    exact forall₂_congr fun m _ => Membership.isMember_iff (.name column) m

/-- What the grammar takes as a pattern is what is read as one. -/
theorem Pattern.isPattern_iff (operator : String) {o : Operand Spec} (h : o.spelling.IsPlain) :
    o.spelling.IsPattern ↔ ∃ p, Pattern.ofOperand operator o = .ok p := by
  cases o with
  | scalar s =>
    cases s with
    | null => simp [Operand.spelling, Spec.IsPattern, ofOperand]
    | value v => cases v <;> simp [Operand.spelling, Spec.IsPattern, ofOperand, Value.type,
        Value.patternText?]
    | raw sql => exact iff_of_true trivial ⟨_, rfl⟩
    | subquery q => exact absurd (Spec.IsPlain.isScalar h) id
  | list items => simp [Operand.spelling, Spec.IsPattern, ofOperand]
  | row entries => simp [Operand.spelling, Spec.IsPattern, ofOperand]

/-- A pattern of a plain specification is no sub-query, so it is written. -/
theorem Pattern.renders_map {operator : String} {o : Operand Spec} {p : Pattern Spec}
    (h : o.spelling.IsPlain) (hp : Pattern.ofOperand operator o = .ok p) :
    (p.map g).Renders := by
  cases p with
  | subquery q =>
    -- Only a sub-query is read as one.
    have hq : q ∈ o.subqueries := by
      rw [← Pattern.subqueries_ofOperand hp]
      exact List.mem_singleton.2 rfl
    exact absurd hq (h.subqueries_eq_nil ▸ List.not_mem_nil)
  | _ => exact fun p' hp' => absurd hp' List.not_mem_nil

/-- What the grammar takes as an escaping is what spells one. -/
theorem Escaping.isEscaping_iff {s : Spec} : s.IsEscaping ↔ ∃ e : Escaping, s = e.spelling := by
  constructor
  · intro h
    unfold Spec.IsEscaping at h
    split at h
    · exact ⟨.standard, rfl⟩
    · subst h
      exact ⟨.disabled, rfl⟩
    · next entries =>
      -- The replacements are chosen for all entries at once, in their order.
      have htable : entries ∈ Set.range (List.map fun e : Char × String =>
          (String.singleton e.1, Spec.text e.2)) := by
        rw [Set.range_list_map]
        rintro ⟨k, s⟩ he
        obtain ⟨⟨c, hc⟩, t, ht⟩ := h _ he
        exact ⟨(c, t), Prod.ext hc.symm ht.symm⟩
      obtain ⟨table, rfl⟩ := htable
      exact ⟨.custom table, rfl⟩
    · exact absurd h id
  · rintro ⟨e, rfl⟩
    cases e with
    | standard => trivial
    | disabled => rfl
    | custom table =>
      refine List.forall_mem_map.2 fun e _ => ⟨⟨e.1, rfl⟩, e.2, rfl⟩

end WhereClause
