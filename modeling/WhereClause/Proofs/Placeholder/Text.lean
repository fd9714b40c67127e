/-
WhereClause/Proofs/Placeholder/Text.lean

The placeholders in the texts that are put together from others.  All that is
written between two parts is glue, so each text has the placeholders of its parts
in their order.

Main results: for lists and junctions (`placeholders_list`, `placeholders_join`),
for a test against members (`placeholders_test`), and for the clauses of a
pattern test, each of which has those of the column again (`placeholders_clauses`).
-/
import WhereClause.Proofs.Placeholder.Clear

namespace WhereClause

namespace PlaceholderStyle

variable {style : PlaceholderStyle}

/-! ### Lists, junctions and negations -/

/-- Parentheses add none. -/
theorem placeholders_parenthesized (s : String) :
    style.placeholders (parenthesized s) = style.placeholders s := by
  rw [parenthesized, placeholders_append_glue (glue_of_isClear style (by decide) (by decide)),
    placeholders_append_of_clear (clear_of_isClear style (by decide))]

/-- Clear texts with clear texts between them. -/
theorem Clear.intercalate {g : String} {ss : List String} (hg : style.Clear g)
    (hss : ∀ s ∈ ss, style.Clear s) : style.Clear (g.intercalate ss) := by
  intro hmem
  rw [String.toList_intercalate] at hmem
  rcases mem_intercalate hmem with h | ⟨l, hl, h⟩
  · exact hg h
  · obtain ⟨s, hs, rfl⟩ := List.mem_map.1 hl
    exact hss s hs h

/-- A list is read member by member. -/
theorem placeholders_list (ss : List String) :
    style.placeholders (parenthesized (", ".intercalate ss)) = ss.flatMap style.placeholders := by
  rw [placeholders_parenthesized,
    placeholders_intercalate (glue_of_isClear style (by decide) (by decide))]

/-- What joins clauses has a space before it. -/
theorem glue_junction (style : PlaceholderStyle) (j : Junction) :
    style.Glue (" " ++ j.text ++ " ") := by
  cases j <;> exact glue_of_isClear style (by decide) (by decide)

/-- Clauses are read one by one, in parentheses or alone. -/
theorem placeholders_join (j : Junction) (ss : List String) :
    style.placeholders (j.join ss) = ss.flatMap style.placeholders := by
  match ss with
  | [] => rfl
  | [s] => simp [Junction.join]
  | s :: t :: ss =>
    show style.placeholders ((" " ++ j.text ++ " ").intercalate
      ((s :: t :: ss).map parenthesized)) = _
    rw [placeholders_intercalate (glue_junction style j), List.flatMap_map]
    simp only [placeholders_parenthesized]

/-- What is left out has no placeholders. -/
theorem flatMap_placeholders_filter (ss : List String) :
    (ss.filter (!·.isEmpty)).flatMap style.placeholders = ss.flatMap style.placeholders := by
  induction ss with
  | nil => rfl
  | cons s ss ih =>
    by_cases hs : s = ""
    · subst hs
      exact ih
    · have hne : (!s.isEmpty) = true := by simpa using hs
      rw [List.filter_cons_of_pos (p := fun s : String => !s.isEmpty) hne, List.flatMap_cons,
        List.flatMap_cons, ih]

/-- `NOT` adds none, and is left out before an empty text, which has none either. -/
theorem placeholders_negated (s : String) :
    style.placeholders (Condition.negated s) = style.placeholders s := by
  rw [Condition.negated]
  split
  · next h => rw [String.isEmpty_iff.1 h]
  · rw [placeholders_append_of_clear (clear_of_isClear style (by decide)),
      placeholders_parenthesized]

/-- An empty filter is left out, and has no placeholders. -/
theorem placeholders_whereClause (s : String) :
    style.placeholders (Subquery.whereClause s) = style.placeholders s := by
  rw [Subquery.whereClause]
  split
  · next h => rw [String.isEmpty_iff.1 h]
  · rw [placeholders_append_of_clear (clear_of_isClear style (by decide))]

/-- Even an escape character that is a sigil begins no placeholder. -/
theorem placeholders_escapeClause (e : Option Char) :
    style.placeholders (Pattern.escapeClause e) = [] := by
  cases e with
  | none => rfl
  | some c =>
    rw [Pattern.escapeClause, placeholders_append_of_apart]
    · -- The character stands alone, so even as a sigil it has no name behind it.
      rw [placeholders_append_of_clear (clear_of_isClear style (by decide)),
        placeholders_of_clear (clear_of_isClear style (s := "'") (by decide)), List.append_nil]
      split
      · exact placeholders_of_clear (clear_of_isClear style (by decide))
      · simp [placeholders, scan]
    · intro b hb
      obtain rfl : '\'' = b := Option.some.inj hb
      cases style with
      | named stem => exact (by decide : isStemChar '\'' = false)
      | positional => exact (by decide : '\''.isDigit = false)

/-! ### Membership tests -/

/-- The placeholders of a member, which is not written if it is null. -/
def memberPlaceholders (style : PlaceholderStyle) (m : Option String) : List String :=
  m.elim [] style.placeholders

/-- Null has no placeholder. -/
theorem flatMap_filterMap_members (members : List (Option String)) :
    (members.filterMap id).flatMap style.placeholders =
      members.flatMap style.memberPlaceholders := by
  induction members with
  | nil => rfl
  | cons m ms ih =>
    cases m with
    | none => exact ih
    | some s =>
      show (s :: ms.filterMap id).flatMap style.placeholders =
        style.placeholders s ++ ms.flatMap style.memberPlaceholders
      rw [List.flatMap_cons, ih]

/-- A test against members is read member by member, whichever form it has. -/
theorem placeholders_listTest {column : String} (hcolumn : style.Clear column)
    {polarity : Polarity} {members : List String} {t : String}
    (h : Membership.listTest column polarity members = some t) :
    style.placeholders t = members.flatMap style.placeholders := by
  have hsingle : ∀ g m, style.Clear g →
      style.placeholders (column ++ g ++ m) = style.placeholders m := fun g m hg =>
    placeholders_append_of_clear (hcolumn.append hg)
  unfold Membership.listTest at h
  split at h
  · exact absurd h (by simp)
  · cases polarity <;> obtain rfl := Option.some.inj h <;>
      simp [hsingle, clear_of_isClear style (s := " = ") (by decide),
        clear_of_isClear style (s := " <> ") (by decide)]
  · obtain rfl := Option.some.inj h
    rw [placeholders_append_of_clear, placeholders_list]
    refine ((hcolumn.append (clear_of_isClear style (by decide))).append ?_).append
      (clear_of_isClear style (by decide))
    cases polarity <;> exact clear_of_isClear style (by decide)

/-- A test against nothing is written without a placeholder. -/
theorem clear_overNothing (style : PlaceholderStyle) (polarity : Polarity) :
    style.Clear polarity.overNothing := by
  cases polarity <;> exact clear_of_isClear style (by decide)

/-- A test for null is written without one. -/
theorem clear_nullTest {column : String} (hcolumn : style.Clear column) (polarity : Polarity) :
    style.Clear (Membership.nullTest column polarity) := by
  cases polarity <;> exact hcolumn.append (clear_of_isClear style (by decide))

/-- The test for null comes last and adds none. -/
theorem placeholders_withNullTest {nulls : String} (hnulls : style.Clear nulls) (t : String)
    (polarity : Polarity) :
    style.placeholders (Membership.withNullTest t nulls polarity) = style.placeholders t := by
  cases polarity <;>
    rw [Membership.withNullTest, placeholders_parenthesized,
      placeholders_glue (glue_of_isClear style (by decide) (by decide)),
      placeholders_of_clear hnulls, List.append_nil]

/-- **A test against members is read member by member**, null among them or not. -/
theorem placeholders_test {column : String} (hcolumn : style.Clear column) (polarity : Polarity)
    (members : List (Option String)) :
    style.placeholders (Membership.test column polarity members) =
      members.flatMap style.memberPlaceholders := by
  rw [← flatMap_filterMap_members, Membership.test]
  cases ht : Membership.listTest column polarity (members.filterMap id) with
  | none =>
    -- There is no list only if there is no member that is not null.
    have hnone : members.filterMap id = [] := by
      unfold Membership.listTest at ht
      split at ht
      · assumption
      · cases polarity <;> exact absurd ht (by simp)
      · exact absurd ht (by simp)
    rw [hnone]
    cases members.any Option.isNone with
    | false => exact placeholders_of_clear (clear_overNothing style polarity)
    | true => exact placeholders_of_clear (clear_nullTest hcolumn polarity)
  | some t =>
    have hlist := placeholders_listTest hcolumn ht
    cases members.any Option.isNone with
    | false => exact hlist
    | true => rw [← hlist, ← placeholders_withNullTest (clear_nullTest hcolumn polarity) t polarity]

/-! ### Operators between two sides -/

/-- An operator with spaces around it is glue. -/
theorem glue_operator (style : PlaceholderStyle) {operator : String}
    (h : style.Clear operator) : style.Glue (" " ++ operator ++ " ") :=
  ((glue_of_isClear style (by decide) (by decide)).append h).append
    (clear_of_isClear style (by decide))

/-- A polarity adds no sigil. -/
theorem clear_polarity (style : PlaceholderStyle) (polarity : Polarity) {base : String}
    (h : style.Clear base) : style.Clear (polarity.apply base) := by
  cases polarity with
  | positive => exact h
  | negative => exact (clear_of_isClear style (by decide)).append h

/-- The two sides of a test are read one after the other. -/
theorem placeholders_operator {operator : String} (h : style.Clear operator) (x y : String) :
    style.placeholders (x ++ " " ++ operator ++ " " ++ y) =
      style.placeholders x ++ style.placeholders y := by
  -- The operator with the blanks around it is the glue.
  have htext : x ++ " " ++ operator ++ " " ++ y = x ++ (" " ++ operator ++ " ") ++ y := by
    simp only [String.append_assoc]
  rw [htext, placeholders_glue (glue_operator style h)]

/-- The three parts of a range are read one after the other. -/
theorem placeholders_between (polarity : Polarity) (x y z : String) :
    style.placeholders (x ++ " " ++ polarity.apply "BETWEEN" ++ " " ++ y ++ " AND " ++ z) =
      style.placeholders x ++ style.placeholders y ++ style.placeholders z := by
  rw [placeholders_glue (glue_of_isClear style (by decide) (by decide)),
    placeholders_operator (clear_polarity style polarity (clear_of_isClear style (by decide)))]

/-- The keyword adds none. -/
theorem placeholders_existence (polarity : Polarity) (q : String) :
    style.placeholders (polarity.apply "EXISTS" ++ " " ++ parenthesized q) =
      style.placeholders q := by
  rw [placeholders_append_of_clear, placeholders_parenthesized]
  exact (clear_polarity style polarity (clear_of_isClear style (by decide))).append
    (clear_of_isClear style (by decide))

/-! ### Pattern tests -/

/-- A pattern operator has no sigil in it. -/
theorem clear_core (style : PlaceholderStyle) (operator : LikeOperator) :
    style.Clear operator.core := by
  refine clear_polarity style _ ?_
  rw [LikeOperator.base]
  split <;> exact clear_of_isClear style (by decide)

/-- In a clause the column comes before the pattern, and the escape clause is a literal. -/
theorem placeholders_clause (d : Dialect) (operator : LikeOperator) (column p : String) :
    style.placeholders
        (column ++ " " ++ operator.core ++ " " ++ p ++ Pattern.escapeClause d.options.likeEscape) =
      style.placeholders column ++ style.placeholders p := by
  have hescape : style.Apart (Pattern.escapeClause d.options.likeEscape) := by
    cases d.options.likeEscape with
    | none => exact fun c hc => absurd hc (by simp [Pattern.escapeClause])
    | some e =>
      rw [Pattern.escapeClause, String.append_assoc]
      exact (glue_of_isClear style (by decide) (by decide)).apart_append _
  rw [placeholders_append_of_apart hescape, placeholders_escapeClause, List.append_nil,
    placeholders_operator (clear_core style operator)]

/-- The placeholders of the column come again in each clause. -/
theorem placeholders_clauses (d : Dialect) (operator : LikeOperator) (column : String)
    (patterns : List String) :
    style.placeholders ((" " ++ operator.junction.text ++ " ").intercalate
        (Pattern.clauses d operator column patterns)) =
      patterns.flatMap fun p => style.placeholders column ++ style.placeholders p := by
  rw [placeholders_intercalate (glue_junction style _), Pattern.clauses, List.flatMap_map]
  simp only [placeholders_clause]

end PlaceholderStyle

end WhereClause
