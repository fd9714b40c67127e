/-
WhereClause/Proofs/Placeholder/Clear.lean

Specifications whose own words cannot be taken for placeholders: no name of a
column or table and no raw text has the sigil in it, at any depth, and all
sub-queries are selections, since a query that is written by hand may say
anything.

Main results: quoting brings no sigil into a name (`PlaceholderStyle.Clear.column`),
comparison operators have none (`ComparisonOperator.clear_text`), and a condition
stays clear when what stands in it is replaced (`Condition.Clear.map`).
-/
import WhereClause.Compiler
import WhereClause.Proofs.Placeholder.Scan
import WhereClause.Proofs.Quoting

namespace WhereClause

/-! ### Quoted names -/

section

variable {α : Type} {c : α} {sep : List α} {ls : List (List α)}

/-- What is in a list that was put together was in the separator or in one of the lists. -/
theorem mem_intercalate (h : c ∈ sep.intercalate ls) : c ∈ sep ∨ ∃ l ∈ ls, c ∈ l := by
  induction ls with
  | nil => exact absurd h (by simp)
  | cons l ls ih =>
    cases ls with
    | nil =>
      rw [List.intercalate_singleton] at h
      exact .inr ⟨l, by simp, h⟩
    | cons l' ls =>
      rw [List.intercalate_cons_cons, List.mem_append, List.mem_append] at h
      rcases h with (h | h) | h
      · exact .inr ⟨l, by simp, h⟩
      · exact .inl h
      · rcases ih h with h | ⟨m, hm, h⟩
        · exact .inl h
        · exact .inr ⟨m, List.mem_cons_of_mem _ hm, h⟩

/-- Each of the lists is kept whole. -/
theorem mem_intercalate_of_mem (sep : List α) {l : List α} (hl : l ∈ ls) (hc : c ∈ l) :
    c ∈ sep.intercalate ls := by
  induction ls with
  | nil => exact absurd hl (by simp)
  | cons l' ls ih =>
    cases ls with
    | nil =>
      obtain rfl := List.mem_singleton.1 hl
      rwa [List.intercalate_singleton]
    | cons l'' ls =>
      rw [List.intercalate_cons_cons, List.mem_append, List.mem_append]
      rcases List.mem_cons.1 hl with rfl | hl
      · exact .inl (.inl hc)
      · exact .inr (ih hl)

end

namespace Identifier

/-- A quoted name is made of the characters of the name, quotes and dots. -/
theorem mem_quote {q c : Char} {name : String} (h : c ∈ (quote q name).toList) :
    c = q ∨ c = '.' ∨ c ∈ name.toList := by
  rw [quote, String.toList_ofList] at h
  rcases mem_intercalate h with h | ⟨l, hl, h⟩
  · exact .inr (.inl (List.mem_singleton.1 h))
  · obtain ⟨part, hpart, rfl⟩ := List.mem_map.1 hl
    rcases mem_delimit h with h | h
    · exact .inl h
    · have hname := mem_intercalate_of_mem ['.'] hpart h
      rw [parts, List.intercalate_splitOn] at hname
      exact .inr (.inr hname)

end Identifier

namespace PlaceholderStyle

variable {style : PlaceholderStyle} {name : String}

/-- Quoting adds quotes and dots, and keeps or doubles all else. -/
theorem Clear.quote (q : QuoteStyle) (h : style.Clear name) : style.Clear (q.quote name) := by
  intro hmem
  cases q with
  | bare => exact h hmem
  | double =>
    rcases Identifier.mem_quote hmem with hq | hdot | hname
    · cases style <;> exact absurd hq (by simp [sigil])
    · cases style <;> exact absurd hdot (by simp [sigil])
    · exact h hname
  | backtick =>
    rcases Identifier.mem_quote hmem with hq | hdot | hname
    · cases style <;> exact absurd hq (by simp [sigil])
    · cases style <;> exact absurd hdot (by simp [sigil])
    · exact h hname

/-- A column is quoted or left as it is. -/
theorem Clear.column (q : QuoteStyle) (h : style.Clear name) :
    style.Clear (q.quoter.columnName name) := by
  rw [Quoter.columnName]
  split
  · exact h
  · exact h.quote q

/-- A table is quoted or left as it is. -/
theorem Clear.table (q : QuoteStyle) (h : style.Clear name) :
    style.Clear (q.quoter.tableName name) := by
  rw [Quoter.tableName]
  split
  · exact h
  · exact h.quote q

end PlaceholderStyle

/-- No comparison has a sigil in it, whatever the style. The symbols are gone through one by
one, and the keywords are letters. -/
theorem ComparisonOperator.clear_text (operator : ComparisonOperator)
    (style : PlaceholderStyle) : style.Clear operator.text := by
  apply PlaceholderStyle.clear_of_isClear
  have h := operator.isComparison_text
  rw [isComparison, Bool.or_eq_true] at h
  rcases h with h | h
  · rw [isSymbolic, Bool.and_eq_true, Bool.and_eq_true, List.all_eq_true] at h
    rw [PlaceholderStyle.isClear, List.all_eq_true]
    intro c hc
    have hall : (comparisonSymbols.all fun c => c != ':' && c != '$') = true := by decide
    exact List.all_eq_true.1 hall c (by simpa using h.1.2 c hc)
  · have hall : comparisonKeywords.all PlaceholderStyle.isClear = true := by decide
    exact List.all_eq_true.1 hall _ (by simpa using h)

/-! ### Clear conditions -/

section

variable {S T : Type}

/-- A template may write anything, so it counts as unclear. -/
def Subquery.Clear (style : PlaceholderStyle) : Subquery S → Prop
  | .select table columns _ => style.Clear table ∧ ∀ n ∈ columns, style.Clear n
  | .template _ => False

/-- What is bound may hold sigils, for it is not written. -/
def Scalar.Clear (style : PlaceholderStyle) : Scalar S → Prop
  | .raw sql => style.Clear sql.text
  | .subquery q => q.Clear style
  | _ => True

/-- The name of a column or its SQL has no sigil in it. -/
def Column.Clear (style : PlaceholderStyle) : Column S → Prop
  | .name n => style.Clear n
  | .raw sql => style.Clear sql.text
  | .subquery q => q.Clear style

/-- The keys of a row are not written. -/
inductive Operand.Clear (style : PlaceholderStyle) : Operand S → Prop
  | scalar {s : Scalar S} (h : s.Clear style) : Clear style (.scalar s)
  | list {os : List (Operand S)} (h : ∀ o ∈ os, Clear style o) : Clear style (.list os)
  | row {es : List (String × Operand S)} (h : ∀ e ∈ es, Clear style e.2) : Clear style (.row es)

/-- All members are clear, or the query is. -/
def Candidates.Clear (style : PlaceholderStyle) : Candidates S → Prop
  | .members items => ∀ o ∈ items, o.Clear style
  | .subquery q => q.Clear style

/-- The value of an entry is clear. -/
def HashTest.Clear (style : PlaceholderStyle) : HashTest S → Prop
  | .scalar s => s.Clear style
  | .list items => ∀ o ∈ items, o.Clear style

/-- The text of a pattern is bound, so it may hold sigils. -/
def Pattern.Clear (style : PlaceholderStyle) : Pattern S → Prop
  | .text _ => True
  | .raw sql => style.Clear sql.text
  | .subquery q => q.Clear style

/-- All that a node writes of its own is without a sigil. What stands in it is not looked into.
-/
def Condition.Clear (style : PlaceholderStyle) : Condition S → Prop
  | .hash entries => ∀ e ∈ entries, style.Clear e.1 ∧ e.2.Clear style
  | .comparison column _ value => column.Clear style ∧ value.Clear style
  | .membership columns _ candidates =>
    (∀ c ∈ columns, style.Clear c.key) ∧ candidates.Clear style
  | .between column _ low high => column.Clear style ∧ low.Clear style ∧ high.Clear style
  | .betweenColumns value _ low high => value.Clear style ∧ low.Clear style ∧ high.Clear style
  | .pattern column _ patterns _ => column.Clear style ∧ ∀ p ∈ patterns, p.Clear style
  | .negation _ => True
  | .junction _ _ => True
  | .existence _ q => q.Clear style

/-- Raw SQL is all that a level can write without a node. -/
def Reading.Clear (style : PlaceholderStyle) : Reading S → Prop
  | .text sql => style.Clear sql
  | .failed _ => True
  | .node c => c.Clear style

variable {style : PlaceholderStyle} (f : S → T)

/-- What stands in a part has no part in whether the part is clear. -/
theorem Subquery.Clear.map {q : Subquery S} (h : q.Clear style) : (q.map f).Clear style := by
  cases q with
  | select table columns filter =>
    rw [map_select]
    exact h
  | template parts => exact h.elim

theorem Scalar.Clear.map {s : Scalar S} (h : s.Clear style) : (s.map f).Clear style := by
  cases s with
  | subquery q => exact Subquery.Clear.map f h
  | _ => exact h

theorem Column.Clear.map {c : Column S} (h : c.Clear style) : (c.map f).Clear style := by
  cases c with
  | subquery q => exact Subquery.Clear.map f h
  | _ => exact h

/-- The induction is on the operand, for the members of a list are operands. -/
theorem Operand.Clear.map {o : Operand S} (h : o.Clear style) : (o.map f).Clear style := by
  induction h with
  | scalar h =>
    rw [map_scalar]
    exact .scalar (h.map f)
  | list _ ih =>
    rw [map_list]
    refine .list fun o ho => ?_
    obtain ⟨o', ho', rfl⟩ := List.mem_map.1 ho
    exact ih o' ho'
  | row _ ih =>
    rw [map_row]
    refine .row fun e he => ?_
    obtain ⟨e', he', rfl⟩ := List.mem_map.1 he
    exact ih e' he'

/-- Members of a list are replaced one by one. -/
theorem Operand.Clear.map_items {os : List (Operand S)} (h : ∀ o ∈ os, o.Clear style) :
    ∀ o ∈ os.map (Operand.map f), o.Clear style := by
  intro o ho
  obtain ⟨o', ho', rfl⟩ := List.mem_map.1 ho
  exact (h o' ho').map f

theorem Candidates.Clear.map {c : Candidates S} (h : c.Clear style) : (c.map f).Clear style := by
  cases c with
  | members items =>
    rw [map_members]
    exact Operand.Clear.map_items f h
  | subquery q => exact Subquery.Clear.map f h

theorem HashTest.Clear.map {e : HashTest S} (h : e.Clear style) : (e.map f).Clear style := by
  cases e with
  | scalar s => exact Scalar.Clear.map f h
  | list items =>
    rw [map_list]
    exact Operand.Clear.map_items f h

theorem Pattern.Clear.map {p : Pattern S} (h : p.Clear style) : (p.map f).Clear style := by
  cases p with
  | subquery q => exact Subquery.Clear.map f h
  | _ => exact h

/-- Replacing what stands in a node leaves it clear. -/
theorem Condition.Clear.map {c : Condition S} (h : c.Clear style) : (c.map f).Clear style := by
  cases c with
  | hash entries =>
    rw [map_hash]
    intro e he
    obtain ⟨e', he', rfl⟩ := List.mem_map.1 he
    exact ⟨(h e' he').1, (h e' he').2.map f⟩
  | comparison column operator value => exact ⟨h.1.map f, h.2.map f⟩
  | membership columns polarity candidates => exact ⟨h.1, h.2.map f⟩
  | between column polarity low high => exact ⟨h.1.map f, h.2.1.map f, h.2.2.map f⟩
  | betweenColumns value polarity low high => exact ⟨h.1.map f, h.2.1.map f, h.2.2.map f⟩
  | pattern column operator patterns escaping =>
    rw [map_pattern]
    refine ⟨h.1.map f, fun p hp => ?_⟩
    obtain ⟨p', hp', rfl⟩ := List.mem_map.1 hp
    exact (h.2 p' hp').map f
  | negation inner => trivial
  | junction operator operands =>
    rw [map_junction]
    trivial
  | existence polarity q => exact Subquery.Clear.map f h

end

/-! ### Clear specifications -/

/-- A specification all of whose levels are clear. -/
inductive Spec.Clear (r : Registry) (style : PlaceholderStyle) : Spec → Prop
  | intro {s : Spec} (h : (s.read r).Clear style) (hs : ∀ t ∈ (s.read r).nested, Clear r style t) :
      Clear r style s

/-- A node that a specification has, at any depth. -/
inductive Spec.HasNode (r : Registry) (c : Condition Spec) : Spec → Prop
  | here {s : Spec} (h : s.read r = .node c) : HasNode r c s
  | inner {s t : Spec} (ht : t ∈ (s.read r).nested) (h : HasNode r c t) : HasNode r c s

end WhereClause
