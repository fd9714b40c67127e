/-
WhereClause/Proofs/Wildcard.lean

What a pattern matches.  In a pattern a percent sign stands for any text and an
underscore for any character; the character behind the escape character stands for
itself, and an escape character at the end leaves a pattern that matches nothing.

Main results: the escape table of the options makes each character of a text stand
for itself (`Wildcard.parse?_escaped`), so unless a percent sign is the escape
character, the pattern for a text matches what the text occurs in
(`Wildcard.like_ofText`).
-/
import Mathlib.Data.List.Infix
import WhereClause.Render.Pattern

namespace WhereClause

namespace Wildcard

/-! ### Patterns -/

inductive Element where
  | many
  | one
  | exactly (c : Char)
  deriving DecidableEq

/-- What a character stands for if it is not escaped. -/
def Element.ofChar (c : Char) : Element :=
  if c = '%' then .many else if c = '_' then .one else .exactly c

def parse? (escape : Char) : List Char → Option (List Element)
  | [] => some []
  | c :: cs =>
    if c = escape then
      match cs with
      | [] => none
      | c' :: cs => (parse? escape cs).map (.exactly c' :: ·)
    else (parse? escape cs).map (.ofChar c :: ·)

def isMatch : List Element → List Char → Bool
  | [], s => s.isEmpty
  | .many :: es, s => s.tails.any (isMatch es)
  | .one :: _, [] => false
  | .one :: es, _ :: s => isMatch es s
  | .exactly _ :: _, [] => false
  | .exactly c :: es, c' :: s => c == c' && isMatch es s

/-- Whether a text is like a pattern. -/
def like (escape : Char) (pattern s : List Char) : Bool :=
  match parse? escape pattern with
  | some es => isMatch es s
  | none => false

example : like '!' "5!%_%".toList "5%-9%".toList = true := by decide

/-! ### Matching -/

theorem isMatch_exactly_many {cs s : List Char} :
    isMatch (cs.map .exactly ++ [.many]) s = true ↔ cs <+: s := by
  induction cs generalizing s with
  | nil =>
    refine iff_of_true ?_ s.nil_prefix
    exact List.any_eq_true.2 ⟨[], (List.mem_tails [] s).2 s.nil_suffix, rfl⟩
  | cons c cs ih =>
    cases s with
    | nil => simp [isMatch]
    | cons c' s => simp [isMatch, ih, List.cons_prefix_cons]

/-- Between two elements for any text, characters match what they occur in. -/
theorem isMatch_many_exactly_many {cs s : List Char} :
    isMatch (.many :: (cs.map .exactly ++ [.many])) s = true ↔ cs <:+: s := by
  simp only [isMatch, List.any_eq_true, List.mem_tails, isMatch_exactly_many]
  rw [List.infix_iff_prefix_suffix]
  exact exists_congr fun t => and_comm

/-! ### Escaping -/

/-- The two wildcards and the escape character are escaped, also where these are the same. -/
theorem escapedChar_wildcardEscaping (escape c : Char) :
    Pattern.escapedChar (Options.wildcardEscaping escape) c =
      if c = '%' ∨ c = '_' ∨ c = escape then [escape, c] else [c] := by
  have hlookup : (Options.wildcardEscaping escape).lookup c =
      if c = '%' ∨ c = '_' ∨ c = escape then some (String.ofList [escape, c]) else none := by
    show (Keyed.put escape _ (Keyed.put '_' _ (Keyed.put '%' _ []))).lookup c = _
    simp only [Keyed.lookup_put]
    grind
  rw [Pattern.escapedChar, hlookup]
  by_cases h : c = '%' ∨ c = '_' ∨ c = escape
  · rw [if_pos h, if_pos h]
    exact String.toList_ofList
  · rw [if_neg h, if_neg h]

/-- **Each character of an escaped text stands for itself.** -/
theorem parse?_escaped (escape : Char) (cs rest : List Char) :
    parse? escape
        (cs.flatMap (Pattern.escapedChar (Options.wildcardEscaping escape)) ++ rest) =
      (parse? escape rest).map (cs.map .exactly ++ ·) := by
  induction cs with
  | nil => simp
  | cons c cs ih =>
    rw [List.flatMap_cons, escapedChar_wildcardEscaping]
    split
    · -- The escape character, and behind it the character itself.
      show parse? escape (escape :: c :: (cs.flatMap _ ++ rest)) = _
      rw [parse?, if_pos rfl, ih, Option.map_map]
      rfl
    · next h =>
      -- A character that has no other meaning is not escaped.
      obtain ⟨hmany, hone, hescape⟩ := by simpa only [not_or] using h
      have hc : Element.ofChar c = .exactly c := by
        rw [Element.ofChar, if_neg hmany, if_neg hone]
      show parse? escape (c :: (cs.flatMap _ ++ rest)) = _
      rw [parse?.eq_def]
      simp only [if_neg hescape, ih, Option.map_map, hc]
      rfl

/-- **Escaped between percent signs, a text is searched for**, unless these escape. -/
theorem like_ofText {escape : Char} (h : escape ≠ '%') (t : String) (s : List Char) :
    like escape (Pattern.ofText (some (Options.wildcardEscaping escape)) t).toList s = true ↔
      t.toList <:+: s := by
  let escapeText := t.toList.flatMap (Pattern.escapedChar (Options.wildcardEscaping escape))
  have hparse : parse? escape ('%' :: (escapeText ++ ['%'])) =
      some (.many :: (t.toList.map .exactly ++ [.many])) := by
    -- Neither percent sign is the escape character, so both stand for any text.
    rw [parse?.eq_def]
    simp only [if_neg h.symm, escapeText, parse?_escaped]
    rw [parse?.eq_def]
    simp only [if_neg h.symm]
    rfl
  have htext : (Pattern.ofText (some (Options.wildcardEscaping escape)) t).toList =
      '%' :: (escapeText ++ ['%']) := by
    simp [Pattern.ofText, Pattern.escaped, escapeText]
  rw [like, htext, hparse]
  exact isMatch_many_exactly_many

/-- Where percent signs escape, the one before a text escapes its first character and
the one behind it nothing, so a text that begins with an ordinary character is found
nowhere. -/
theorem like_ofText_percent {c : Char} (hmany : c ≠ '%') (hone : c ≠ '_') (cs s : List Char) :
    like '%' (Pattern.ofText (some (Options.wildcardEscaping '%'))
      (String.ofList (c :: cs))).toList s = false := by
  have htext : (Pattern.ofText (some (Options.wildcardEscaping '%'))
      (String.ofList (c :: cs))).toList =
        '%' :: c :: (cs.flatMap (Pattern.escapedChar (Options.wildcardEscaping '%')) ++ ['%']) := by
    simp [Pattern.ofText, Pattern.escaped, escapedChar_wildcardEscaping, hmany, hone]
  have hparse : parse? '%' ['%'] = none := rfl
  rw [like, htext, parse?, if_pos rfl, parse?_escaped, hparse]
  rfl

end Wildcard

end WhereClause
