/-
WhereClause/Proofs/Delimited.lean

Delimited texts, as a lexer of SQL reads them: between two quotes each quote stands
twice, and a quote that stands alone is the end.  String literals and quoted
identifiers are of this form; there are no other escapes in them.

Main result: a delimited text is read as what was doubled in it, and nothing else is
read (`Delimited.read?_eq_some_iff`).
-/
import WhereClause.Identifier

namespace WhereClause

namespace Delimited

open Identifier

variable {q : Char} {content : List Char}

/-- Read up to the closing quote, behind which nothing may stand. -/
def rest? (q : Char) : List Char → Option (List Char)
  | [] => none
  | c :: cs =>
    if c = q then
      match cs with
      | [] => some []
      | c' :: cs => if c' = q then (rest? q cs).map (q :: ·) else none
    else (rest? q cs).map (c :: ·)

/-- What stands between the quotes of a delimited text. -/
def read? (q : Char) : List Char → Option (List Char)
  | [] => none
  | c :: cs => if c = q then rest? q cs else none

theorem doubled_cons_self (q : Char) (cs : List Char) :
    doubled q (q :: cs) = q :: q :: doubled q cs := by
  rw [doubled, List.flatMap_cons, if_pos rfl]
  rfl

theorem doubled_cons_of_ne {c : Char} (h : c ≠ q) (cs : List Char) :
    doubled q (c :: cs) = c :: doubled q cs := by
  rw [doubled, List.flatMap_cons, if_neg h]
  rfl

theorem rest?_doubled (q : Char) (content : List Char) :
    rest? q (doubled q content ++ [q]) = some content := by
  induction content with
  | nil => simp [doubled, rest?]
  | cons c cs ih =>
    by_cases hc : c = q
    · subst hc
      rw [doubled_cons_self]
      simp [rest?, ih]
    · rw [doubled_cons_of_ne hc, List.cons_append, rest?.eq_def]
      simp only [hc, if_false, ih]
      rfl

theorem eq_of_rest? {cs : List Char} (h : rest? q cs = some content) :
    cs = doubled q content ++ [q] := by
  fun_induction rest? q cs generalizing content with
  | case1 => exact absurd h (by simp)
  | case2 =>
    obtain rfl : [] = content := Option.some.inj h
    rfl
  | case3 cs ih =>
    -- Two quotes stand for one.
    obtain ⟨content', hrest, rfl⟩ := Option.map_eq_some_iff.1 h
    rw [doubled_cons_self, ih hrest, List.cons_append, List.cons_append]
  | case4 c' cs hc' =>
    -- The text is closed, and something stands behind it.
    exact absurd h (by simp)
  | case5 c cs hc ih =>
    obtain ⟨content', hrest, rfl⟩ := Option.map_eq_some_iff.1 h
    rw [doubled_cons_of_ne hc, ih hrest, List.cons_append]

/-- **A delimited text** is read as its content, each quote of which stands twice. -/
theorem read?_eq_some_iff {cs : List Char} :
    read? q cs = some content ↔ cs = q :: doubled q content ++ [q] := by
  constructor
  · intro h
    cases cs with
    | nil => exact absurd h (by simp [read?])
    | cons c cs =>
      rw [read?] at h
      split at h
      · next hc => rw [hc, eq_of_rest? h, List.cons_append]
      · exact absurd h (by simp)
  · rintro rfl
    rw [List.cons_append, read?, if_pos rfl, rest?_doubled]

example : read? '"' "\"a\"\"b\"".toList = some "a\"b".toList := by decide

end Delimited

end WhereClause
