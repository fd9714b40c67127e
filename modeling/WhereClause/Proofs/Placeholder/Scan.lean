/-
WhereClause/Proofs/Placeholder/Scan.lean

The placeholders in a text, as a driver finds them: from left to right, each a
sigil and the longest run of name characters behind it.

Main results: a text without sigils has no placeholders and hides none
(`placeholders_append_of_clear`); where a text goes on with something that
cannot belong to a name, the placeholders are those of the two parts
(`placeholders_append_of_apart`); and a placeholder that was written by itself is
found under its name (`placeholders_render`).
-/
import Mathlib.Data.List.TakeWhile
import WhereClause.Environment
import WhereClause.Proofs.Sink.Numeral

namespace WhereClause

/-! ### Scanning -/

/-- The runs of `p` behind each `sigil`; a sigil without a run is passed over. -/
def scan (sigil : Char) (p : Char → Bool) : List Char → List (List Char)
  | [] => []
  | c :: cs =>
    if c = sigil ∧ cs.takeWhile p ≠ [] then cs.takeWhile p :: scan sigil p cs
    else scan sigil p cs

section

variable {sigil : Char} {p : Char → Bool} {as bs : List Char}

/-- Where there is no sigil there is nothing to find. -/
theorem scan_append_of_clear (ha : sigil ∉ as) : scan sigil p (as ++ bs) = scan sigil p bs := by
  induction as with
  | nil => rfl
  | cons a as ih =>
    have hne : a ≠ sigil := fun h => ha (by simp [h])
    rw [List.cons_append, scan, if_neg (fun h => hne h.1)]
    exact ih fun h => ha (by simp [h])

/-- A run ends where the next character does not belong to it. -/
theorem takeWhile_append_of_apart (hb : ∀ c ∈ bs.head?, p c = false) :
    (as ++ bs).takeWhile p = as.takeWhile p := by
  have hnil : bs.takeWhile p = [] := by
    cases bs with
    | nil => rfl
    | cons b bs => rw [List.takeWhile_cons_of_neg (by simpa using hb b rfl)]
  rw [List.takeWhile_append, hnil, List.append_nil]
  split
  · next h =>
    rw [List.takeWhile_prefix p |>.eq_of_length h]
  · rfl

/-- If the second text does not go on with a name, the two can be read one after the other. -/
theorem scan_append_of_apart (hb : ∀ c ∈ bs.head?, p c = false) :
    scan sigil p (as ++ bs) = scan sigil p as ++ scan sigil p bs := by
  induction as with
  | nil => rfl
  | cons a as ih =>
    rw [List.cons_append, scan, scan, takeWhile_append_of_apart hb, ih]
    split <;> rfl

end

/-! ### Placeholders of a style -/

namespace PlaceholderStyle

/-- What a placeholder begins with. -/
def sigil : PlaceholderStyle → Char
  | .named _ => ':'
  | .positional => '$'

/-- What the name of a placeholder goes on with. -/
def isNameChar : PlaceholderStyle → Char → Bool
  | .named _ => isStemChar
  | .positional => Char.isDigit

/-- The names of the placeholders in a text. -/
def placeholders (style : PlaceholderStyle) (sql : String) : List String :=
  (scan style.sigil style.isNameChar sql.toList).map String.ofList

/-- Whether a style has a stem such as an environment may ask for. -/
def HasPlainStem : PlaceholderStyle → Prop
  | .named stem => isStem stem = true
  | .positional => True

/-- A text in which no placeholder begins. -/
def Clear (style : PlaceholderStyle) (sql : String) : Prop := style.sigil ∉ sql.toList

/-- A text with which no name goes on. -/
def Apart (style : PlaceholderStyle) (sql : String) : Prop :=
  ∀ c ∈ sql.toList.head?, style.isNameChar c = false

variable {style : PlaceholderStyle} {s t : String}

/-- Two texts without a sigil have none together. -/
theorem Clear.append (hs : style.Clear s) (ht : style.Clear t) : style.Clear (s ++ t) := by
  rw [Clear, String.toList_append, List.mem_append, not_or]
  exact ⟨hs, ht⟩

/-- Nothing is found in a text without a sigil, so it may be left out on the left. -/
theorem placeholders_append_of_clear (hs : style.Clear s) :
    style.placeholders (s ++ t) = style.placeholders t := by
  rw [placeholders, String.toList_append, scan_append_of_clear hs, placeholders]

/-- The placeholders of two texts are those of the one and those of the other, if no name goes
over the border. -/
theorem placeholders_append_of_apart (ht : style.Apart t) :
    style.placeholders (s ++ t) = style.placeholders s ++ style.placeholders t := by
  rw [placeholders, String.toList_append, scan_append_of_apart ht, List.map_append, placeholders,
    placeholders]

/-- A text without a sigil has no placeholders. -/
theorem placeholders_of_clear (hs : style.Clear s) : style.placeholders s = [] := by
  have hempty := placeholders_append_of_clear (t := "") hs
  rwa [String.append_empty] at hempty

/-! ### Between placeholders -/

/-- What may stand between two parts: it ends a name and begins none. -/
structure Glue (style : PlaceholderStyle) (s : String) : Prop where
  ne_empty : s ≠ ""
  apart : style.Apart s
  clear : style.Clear s

/-- What begins with glue does not go on with a name. -/
theorem Glue.apart_append (hs : style.Glue s) (t : String) : style.Apart (s ++ t) := by
  intro c hc
  rw [String.toList_append, List.head?_append] at hc
  cases hg : s.toList.head? with
  | none => exact absurd (List.head?_eq_none_iff.1 hg) (by simpa using hs.ne_empty)
  | some b =>
    rw [hg] at hc
    obtain rfl : b = c := Option.some.inj hc
    exact hs.apart b hg

/-- Glue stays glue with anything clear behind it. -/
theorem Glue.append (hs : style.Glue s) (ht : style.Clear t) : style.Glue (s ++ t) where
  ne_empty := by simp [hs.ne_empty]
  apart := hs.apart_append t
  clear := hs.clear.append ht

/-- **Glue keeps placeholders apart**: those of the text on the left come first, then those on
the right. -/
theorem placeholders_glue {g : String} (hg : style.Glue g) :
    style.placeholders (s ++ g ++ t) = style.placeholders s ++ style.placeholders t := by
  rw [String.append_assoc, placeholders_append_of_apart (hg.apart_append t),
    placeholders_append_of_clear hg.clear]

/-- What ends a text adds nothing. -/
theorem placeholders_append_glue {g : String} (hg : style.Glue g) :
    style.placeholders (s ++ g) = style.placeholders s := by
  rw [placeholders_append_of_apart hg.apart, placeholders_of_clear hg.clear, List.append_nil]

/-- Texts with glue between them are read one by one. -/
theorem placeholders_intercalate {g : String} (hg : style.Glue g) (ss : List String) :
    style.placeholders (g.intercalate ss) = ss.flatMap style.placeholders := by
  induction ss with
  | nil => rfl
  | cons s ss ih =>
    cases ss with
    | nil => simp
    | cons t ss =>
      rw [String.intercalate_cons_cons, placeholders_glue hg, ih]
      rfl

/-! ### Fixed texts -/

/-- No character of a text begins a placeholder of any style. -/
def isClear (s : String) : Bool := s.toList.all fun c => c != ':' && c != '$'

/-- The characters that end a name of any style. -/
def isSeparator (c : Char) : Bool := [' ', ',', ')', '='].contains c

/-- A fixed text is seen to be clear by looking at its characters, for all styles at once. -/
theorem clear_of_isClear (style : PlaceholderStyle) (h : isClear s = true) : style.Clear s := by
  rw [isClear, List.all_eq_true] at h
  intro hmem
  have hne := h _ hmem
  cases style <;> exact absurd hne (by simp [sigil])

/-- Separators belong to no name. -/
theorem isNameChar_of_isSeparator (style : PlaceholderStyle) {c : Char}
    (h : isSeparator c = true) : style.isNameChar c = false := by
  have hc : c = ' ' ∨ c = ',' ∨ c = ')' ∨ c = '=' := by simpa [isSeparator] using h
  rcases hc with rfl | rfl | rfl | rfl <;> cases style <;> rfl

/-- A fixed text is seen to be glue by its characters. -/
theorem glue_of_isClear (style : PlaceholderStyle) (hhead : s.toList.head?.any isSeparator = true)
    (h : isClear s = true) : style.Glue s where
  ne_empty := by
    rintro rfl
    exact absurd hhead (by decide)
  apart := by
    intro c hc
    rw [Option.mem_def] at hc
    rw [hc] at hhead
    exact isNameChar_of_isSeparator style hhead
  clear := clear_of_isClear style h

/-! ### A placeholder by itself -/

/-- A sigil with a name behind it is read as that name. -/
theorem scan_name {sigil : Char} {p : Char → Bool} (hp : p sigil = false) {name : List Char}
    (hne : name ≠ []) (hname : ∀ c ∈ name, p c = true) :
    scan sigil p (sigil :: name) = [name] := by
  have hrun : name.takeWhile p = name := List.takeWhile_eq_self_iff.2 hname
  have hclear : sigil ∉ name := fun h => by
    rw [hname sigil h] at hp
    exact absurd hp (by simp)
  have hrest : scan sigil p name = [] := by
    have hscan : scan sigil p (name ++ []) = scan sigil p [] := scan_append_of_clear hclear
    rwa [List.append_nil] at hscan
  rw [scan, hrun, if_pos ⟨rfl, hne⟩, hrest]

theorem isStemChar_of_isDigit {c : Char} (h : c.isDigit = true) : isStemChar c = true := by
  simp [isStemChar, Char.isAlphanum, h]

theorem isStemChar_of_mem {stem : String} (h : isStem stem = true) {c : Char}
    (hc : c ∈ stem.toList) : isStemChar c = true := by
  rw [isStem] at h
  split at h
  · exact absurd h (by simp)
  · next hstem =>
    rw [Bool.and_eq_true, List.all_eq_true] at h
    exact h.2 c (by rwa [hstem] at hc)

/-- A name has its number at least. -/
theorem name_ne_empty (style : PlaceholderStyle) (n : Nat) : style.name n ≠ "" := by
  have hrepr : ∀ m : Nat, m.repr ≠ "" := fun m h =>
    Numeral.toList_repr_ne_nil m (by rw [h]; rfl)
  cases style with
  | named stem =>
    rw [name]
    simp [hrepr]
  | positional => exact hrepr _

/-- A name is made of what names are made of, if the stem is. -/
theorem isNameChar_of_mem_name (h : style.HasPlainStem) {n : Nat} {c : Char}
    (hc : c ∈ (style.name n).toList) : style.isNameChar c = true := by
  cases style with
  | named stem =>
    rw [name, String.toList_append, List.mem_append] at hc
    rcases hc with hc | hc
    · exact isStemChar_of_mem h hc
    · exact isStemChar_of_isDigit (Numeral.isDigit_of_mem_repr hc)
  | positional => exact Numeral.isDigit_of_mem_repr hc

/-- **A placeholder is read as the name that it was written for**, and nothing besides. -/
theorem placeholders_render (h : style.HasPlainStem) (n : Nat) :
    style.placeholders (style.render (style.name n)) = [style.name n] := by
  have htext : (style.render (style.name n)).toList = style.sigil :: (style.name n).toList := by
    cases style <;> simp [render, sigil]
  have hsigil : style.isNameChar style.sigil = false := by
    cases style with
    | named stem => exact (by decide : isStemChar ':' = false)
    | positional => exact (by decide : '$'.isDigit = false)
  rw [placeholders, htext, scan_name hsigil (by simpa using style.name_ne_empty n)
    fun c => isNameChar_of_mem_name h]
  simp

end PlaceholderStyle

end WhereClause
