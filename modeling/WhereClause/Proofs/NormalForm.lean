/-
WhereClause/Proofs/NormalForm.lean

The normal form of a token.  It holds the words of the token in upper case, one space
between each two, and nothing else: upper-casing neither makes nor removes blanks, so it
comes to the same whether it is done to the text or to each of its words
(`Text.words_uppercase`), and the words can be read back from the normal form
(`Text.words_intercalate`).

Texts are taken apart at their first blank (`Text.induction_blank`); the normal form is
put together from its words, the first one in front of a space and the rest.

Main result: normalizing a token twice is as good as once, what comes out is in normal
form, and tokens that are spelled alike but for their blanks and the case of their letters
have the same one (`Operator.normalize_stable`).
-/
import Mathlib.Logic.Relation
import WhereClause.Proofs.Casing
import WhereClause.Proofs.Dispatch

namespace WhereClause

namespace Text

/-! ### Words -/

/-- A word: at least one character, and no blank. -/
def IsWord (w : List Char) : Prop := w ≠ [] ∧ ∀ c ∈ w, isBlank c = false

/-- A text has no blank, or it goes on after the first one. -/
theorem induction_blank {P : List Char → Prop} (word : ∀ w, (∀ c ∈ w, isBlank c = false) → P w)
    (blank : ∀ w b cs, (∀ c ∈ w, isBlank c = false) → isBlank b = true → P cs →
      P (w ++ b :: cs)) (cs : List Char) : P cs := by
  -- The induction is on the text, with the part of a word that was already seen in front.
  have hrun : ∀ w, (∀ c ∈ w, isBlank c = false) → P (w ++ cs) := by
    induction cs with
    | nil =>
      intro w hw
      rw [List.append_nil]
      exact word w hw
    | cons c cs ih =>
      intro w hw
      cases hc : isBlank c with
      | true => exact blank w c cs hw hc (ih [] (by simp))
      | false =>
        have hsplit : w ++ c :: cs = (w ++ [c]) ++ cs := by simp
        rw [hsplit]
        apply ih
        intro d hd
        rcases List.mem_append.1 hd with hd | hd
        · exact hw d hd
        · exact List.mem_singleton.1 hd ▸ hc
  exact hrun [] (by simp)

theorem words_of_forall {w : List Char} (hw : ∀ c ∈ w, isBlank c = false) :
    words w = if w = [] then [] else [w] := by
  rw [words, List.splitOnP_eq_singleton hw]
  cases w with
  | nil => rfl
  | cons c w => rfl

theorem words_nil : words [] = [] := rfl

/-- **A blank ends a word**, and what stands behind it has words of its own. -/
theorem words_append_cons {b : Char} (hb : isBlank b = true) (cs ds : List Char) :
    words (cs ++ b :: ds) = words cs ++ words ds := by
  rw [words, List.splitOnP_append_cons cs ds hb, List.filter_append, words, words]

theorem isWord_of_mem_words {cs w : List Char} (h : w ∈ words cs) : IsWord w := by
  have hrun {v : List Char} (hv : ∀ c ∈ v, isBlank c = false) (h : w ∈ words v) : IsWord w := by
    rw [words_of_forall hv] at h
    split at h
    · cases h
    · next hne =>
      obtain rfl := List.mem_singleton.1 h
      exact ⟨hne, hv⟩
  induction cs using induction_blank with
  | word v hv => exact hrun hv h
  | blank v b cs hv hb ih =>
    rw [words_append_cons hb] at h
    rcases List.mem_append.1 h with h | h
    · exact hrun hv h
    · exact ih h

/-- Blanks in front of a text are no part of its words. -/
theorem words_blanks_append {u : List Char} (hu : ∀ c ∈ u, isBlank c = true) (cs : List Char) :
    words (u ++ cs) = words cs := by
  induction u with
  | nil => rfl
  | cons b u ih =>
    rw [List.forall_mem_cons] at hu
    exact (words_append_cons hu.1 [] (u ++ cs)).trans (ih hu.2)

/-- A run of blanks ends a word, however long it is. -/
theorem words_append_run {u : List Char} (hne : u ≠ []) (hu : ∀ c ∈ u, isBlank c = true)
    (cs ds : List Char) : words (cs ++ (u ++ ds)) = words cs ++ words ds := by
  cases u with
  | nil => exact absurd rfl hne
  | cons b u =>
    rw [List.forall_mem_cons] at hu
    rw [List.cons_append, words_append_cons hu.1, words_blanks_append hu.2]

/-- Words with a space between each two are read back. -/
theorem words_intercalate {ws : List (List Char)} (h : ∀ w ∈ ws, IsWord w) :
    words ([' '].intercalate ws) = ws := by
  have hword {w : List Char} (hw : IsWord w) : words w = [w] :=
    (words_of_forall hw.2).trans (if_neg hw.1)
  induction ws with
  | nil => rfl
  | cons w ws ih =>
    rw [List.forall_mem_cons] at h
    -- A space stands only between two words, so the last one is on its own.
    cases ws with
    | nil =>
      rw [List.intercalate_singleton]
      exact hword h.1
    | cons v ws =>
      rw [List.intercalate_cons_cons, List.append_assoc, List.singleton_append,
        words_append_cons (by decide), hword h.1, ih h.2]
      rfl

/-! ### Upper case -/

theorem uppercase_append (cs ds : List Char) :
    uppercase (cs ++ ds) = uppercase cs ++ uppercase ds :=
  List.flatMap_append

theorem uppercase_blanks {u : List Char} (hu : ∀ c ∈ u, isBlank c = true) : uppercase u = u := by
  rw [uppercase, List.flatMap_congr fun c hc => uppercaseChar_of_isBlank (hu c hc)]
  exact List.flatMap_singleton' u

theorem uppercase_append_cons {b : Char} (hb : isBlank b = true) (cs ds : List Char) :
    uppercase (cs ++ b :: ds) = uppercase cs ++ b :: uppercase ds := by
  rw [uppercase_append, uppercase, uppercase, uppercase, List.flatMap_cons,
    uppercaseChar_of_isBlank hb, List.singleton_append]

/-- No blank is made of what was none. -/
theorem isCapital_of_mem_uppercase {w : List Char} (hw : ∀ c ∈ w, isBlank c = false) :
    ∀ d ∈ uppercase w, IsCapital d := by
  intro d hd
  obtain ⟨c, hc, hd⟩ := List.mem_flatMap.1 hd
  exact (isCapital_of_mem_uppercaseChar (hw c hc)).2 d hd

theorem uppercase_eq_nil_iff {w : List Char} (hw : ∀ c ∈ w, isBlank c = false) :
    uppercase w = [] ↔ w = [] := by
  cases w with
  | nil => simp [uppercase]
  | cons c w =>
    have hne := (isCapital_of_mem_uppercaseChar (hw c List.mem_cons_self)).1
    simp [uppercase, hne]

theorem uppercase_of_isCapital {w : List Char} (hw : ∀ c ∈ w, IsCapital c) : uppercase w = w := by
  rw [uppercase, List.flatMap_congr fun c hc => (hw c hc).fixed]
  exact List.flatMap_singleton' w

theorem IsWord.uppercase {w : List Char} (hw : IsWord w) : IsWord (uppercase w) := by
  refine ⟨fun hnil => hw.1 ((uppercase_eq_nil_iff hw.2).1 hnil), ?_⟩
  intro d hd
  exact (isCapital_of_mem_uppercase hw.2 d hd).not_blank

/-- **Upper-casing a text is upper-casing its words.** -/
theorem words_uppercase (cs : List Char) : words (uppercase cs) = (words cs).map uppercase := by
  have hword {w : List Char} (hw : ∀ c ∈ w, isBlank c = false) :
      words (uppercase w) = (words w).map uppercase := by
    rw [words_of_forall hw,
      words_of_forall fun d hd => (isCapital_of_mem_uppercase hw d hd).not_blank]
    by_cases hnil : w = []
    · rw [if_pos hnil, if_pos ((uppercase_eq_nil_iff hw).2 hnil)]
      rfl
    · rw [if_neg hnil, if_neg fun h => hnil ((uppercase_eq_nil_iff hw).1 h)]
      rfl
  induction cs using induction_blank with
  | word w hw => exact hword hw
  | blank w b cs hw hb ih =>
    rw [uppercase_append_cons hb, words_append_cons hb, words_append_cons hb, hword hw, ih,
      List.map_append]

theorem uppercase_intercalate (ws : List (List Char)) :
    uppercase ([' '].intercalate ws) = [' '].intercalate (ws.map uppercase) := by
  have hspace : uppercase [' '] = [' '] := uppercase_blanks (by simp [isBlank, blanks])
  induction ws with
  | nil => rfl
  | cons w ws ih =>
    cases ws with
    | nil => rw [List.map_singleton, List.intercalate_singleton, List.intercalate_singleton]
    | cons v ws =>
      rw [List.map_cons] at ih ⊢
      rw [List.intercalate_cons_cons, List.map_cons, List.intercalate_cons_cons, ← ih,
        uppercase_append, uppercase_append, hspace]

/-! ### Normal texts -/

/-- Blanks are single spaces, each between two characters that are no blanks, and there
are no small letters of ASCII. -/
structure IsNormal (cs : List Char) : Prop where
  head : ∀ c ∈ cs.head?, isBlank c = false
  getLast : ∀ c ∈ cs.getLast?, isBlank c = false
  blank : ∀ before c after, cs = before ++ c :: after → isBlank c = true →
    c = ' ' ∧ (∃ b ∈ before.getLast?, isBlank b = false) ∧ ∃ a ∈ after.head?, isBlank a = false
  not_small : ∀ c ∈ cs, c.isLower = false

theorem IsNormal.of_isCapital {w : List Char} (hw : ∀ c ∈ w, IsCapital c) : IsNormal w where
  head := fun c hc => (hw c (List.mem_of_mem_head? hc)).not_blank
  getLast := fun c hc => (hw c (List.mem_of_mem_getLast? hc)).not_blank
  blank := by
    intro before c after hsplit hblank
    have hmem : c ∈ w := by simp [hsplit]
    rw [(hw c hmem).not_blank] at hblank
    cases hblank
  not_small := fun c hc => (hw c hc).not_small

/-- A word of capitals may be put in front, behind a space. -/
theorem IsNormal.append_space {w cs : List Char} (hne : w ≠ []) (hw : ∀ c ∈ w, IsCapital c)
    (hcs : IsNormal cs) (hcsne : cs ≠ []) : IsNormal (w ++ ' ' :: cs) where
  head := by
    intro c hc
    rw [List.head?_append_of_ne_nil _ hne] at hc
    exact (hw c (List.mem_of_mem_head? hc)).not_blank
  getLast := by
    intro c hc
    rw [List.getLast?_append_cons, List.getLast?_cons_of_ne_nil hcsne] at hc
    exact hcs.getLast c hc
  blank := by
    intro before c after hsplit hblank
    -- The space that was put in stands between the end of the word and the head of the rest.
    have hspace : (∃ b ∈ w.getLast?, isBlank b = false) ∧ ∃ a ∈ cs.head?, isBlank a = false := by
      refine ⟨⟨w.getLast hne, List.getLast?_eq_some_getLast hne, ?_⟩,
        ⟨cs.head hcsne, List.head?_eq_some_head hcsne, ?_⟩⟩
      · exact (hw _ (List.getLast_mem hne)).not_blank
      · exact hcs.head _ (List.head?_eq_some_head hcsne)
    have hword : c ∉ w := by
      intro hmem
      rw [(hw c hmem).not_blank] at hblank
      cases hblank
    rcases List.append_eq_append_iff.1 hsplit with ⟨mid, rfl, hrest⟩ | ⟨mid, rfl, hrest⟩
    · cases mid with
      | nil =>
        obtain ⟨rfl, rfl⟩ := List.cons.inj hrest
        rw [List.append_nil]
        exact ⟨rfl, hspace⟩
      | cons d mid =>
        obtain ⟨rfl, rfl⟩ := List.cons.inj hrest
        obtain ⟨hc, ⟨b, hb, hbblank⟩, hafter⟩ := hcs.blank mid c after rfl hblank
        refine ⟨hc, ⟨b, ?_, hbblank⟩, hafter⟩
        have hmid : mid ≠ [] := by
          rintro rfl
          cases hb
        rw [List.getLast?_append_cons, List.getLast?_cons_of_ne_nil hmid]
        exact hb
    · cases mid with
      | nil =>
        obtain ⟨rfl, rfl⟩ := List.cons.inj hrest
        rw [List.append_nil] at hspace
        exact ⟨rfl, hspace⟩
      | cons d mid =>
        obtain ⟨rfl, -⟩ := List.cons.inj hrest
        exact absurd (by simp) hword
  not_small := by
    intro c hc
    rcases List.mem_append.1 hc with hc | hc
    · exact (hw c hc).not_small
    · rcases List.mem_cons.1 hc with rfl | hc
      · decide
      · exact hcs.not_small c hc

theorem isNormal_intercalate {ws : List (List Char)}
    (h : ∀ w ∈ ws, w ≠ [] ∧ ∀ c ∈ w, IsCapital c) : IsNormal ([' '].intercalate ws) := by
  induction ws with
  | nil => exact .of_isCapital (by simp)
  | cons w ws ih =>
    rw [List.forall_mem_cons] at h
    cases ws with
    | nil =>
      rw [List.intercalate_singleton]
      exact .of_isCapital h.1.2
    | cons v ws =>
      rw [List.intercalate_cons_cons, List.append_assoc, List.singleton_append]
      apply IsNormal.append_space h.1.1 h.1.2 (ih h.2)
      have hv : v ≠ [] := (h.2 v List.mem_cons_self).1
      cases ws with
      | nil => simpa using hv
      | cons u ws => simp [List.intercalate_cons_cons, hv]

/-! ### Spellings of a token -/

/-- A change to a text that is none to the token. -/
inductive Respells : List Char → List Char → Prop
  /-- One run of blanks stands where another stood. -/
  | run (before after : List Char) {u v : List Char} (hu : u ≠ []) (hv : v ≠ [])
      (hublank : ∀ c ∈ u, isBlank c = true) (hvblank : ∀ c ∈ v, isBlank c = true) :
      Respells (before ++ (u ++ after)) (before ++ (v ++ after))
  | front {u : List Char} (hu : ∀ c ∈ u, isBlank c = true) (cs : List Char) :
      Respells cs (u ++ cs)
  | back {u : List Char} (hu : ∀ c ∈ u, isBlank c = true) (cs : List Char) :
      Respells cs (cs ++ u)
  /-- A capital of ASCII is written small; any other character stays as it is. -/
  | letter (before after : List Char) (c : Char) :
      Respells (before ++ c :: after) (before ++ c.toLower :: after)

theorem Respells.words_uppercase {cs ds : List Char} (h : Respells cs ds) :
    words (uppercase cs) = words (uppercase ds) := by
  cases h with
  | run before after hu hv hublank hvblank =>
    rw [uppercase_append, uppercase_append, uppercase_append, uppercase_append,
      uppercase_blanks hublank, uppercase_blanks hvblank, words_append_run hu hublank,
      words_append_run hv hvblank]
  | front hu =>
    rw [uppercase_append, uppercase_blanks hu, words_blanks_append hu]
  | @back u hu =>
    rw [uppercase_append, uppercase_blanks hu]
    -- The lemma on a run of blanks asks for one blank at least.
    by_cases hnil : u = []
    · rw [hnil, List.append_nil]
    · have hrun := words_append_run hnil hu (uppercase cs) []
      rw [List.append_nil, words_nil, List.append_nil] at hrun
      exact hrun.symm
  | letter before after c =>
    have hcase : uppercase (c :: after) = uppercase (c.toLower :: after) := by
      rw [uppercase, uppercase, List.flatMap_cons, List.flatMap_cons, uppercaseChar_toLower]
    rw [uppercase_append, uppercase_append, hcase]

end Text

namespace Operator

/-! ### The normal form of a token -/

theorem toList_normalize (s : String) :
    (normalize s).toList = [' '].intercalate ((Text.words s.toList).map Text.uppercase) := by
  rw [normalize, String.toList_ofList, Text.uppercase_intercalate]

/-- The words of a token in upper case, each at least one capital. -/
theorem isCapital_of_mem_words {s : String} {w : List Char}
    (h : w ∈ (Text.words s.toList).map Text.uppercase) :
    Text.IsWord w ∧ ∀ c ∈ w, Text.IsCapital c := by
  obtain ⟨v, hv, rfl⟩ := List.mem_map.1 h
  have hword := Text.isWord_of_mem_words hv
  exact ⟨hword.uppercase, Text.isCapital_of_mem_uppercase hword.2⟩

/-- The words can be read back from the normal form. -/
theorem words_normalize (s : String) :
    Text.words (normalize s).toList = (Text.words s.toList).map Text.uppercase := by
  rw [toList_normalize]
  exact Text.words_intercalate fun w hw => (isCapital_of_mem_words hw).1

theorem isNormal_normalize (s : String) : Text.IsNormal (normalize s).toList := by
  rw [toList_normalize]
  apply Text.isNormal_intercalate
  intro w hw
  obtain ⟨hword, hcapital⟩ := isCapital_of_mem_words hw
  exact ⟨hword.1, hcapital⟩

theorem normalize_normalize (s : String) : normalize (normalize s) = normalize s := by
  have hfixed : ((Text.words s.toList).map Text.uppercase).map Text.uppercase =
      (Text.words s.toList).map Text.uppercase :=
    (List.map_congr_left fun w hw =>
      Text.uppercase_of_isCapital (isCapital_of_mem_words hw).2).trans (List.map_id' _)
  rw [← String.toList_inj, toList_normalize, words_normalize, hfixed, toList_normalize]

/-- The normal form depends on the words in upper case alone. -/
theorem normalize_eq_of_respells {s t : String}
    (h : Relation.EqvGen Text.Respells s.toList t.toList) : normalize t = normalize s := by
  have hwords {cs ds : List Char} (h : Relation.EqvGen Text.Respells cs ds) :
      Text.words (Text.uppercase cs) = Text.words (Text.uppercase ds) := by
    induction h with
    | rel _ _ hstep => exact hstep.words_uppercase
    | refl => rfl
    | symm _ _ _ ih => exact ih.symm
    | trans _ _ _ _ _ ih ih' => exact ih.trans ih'
  have hsame := hwords h
  rw [Text.words_uppercase, Text.words_uppercase] at hsame
  rw [← String.toList_inj, toList_normalize, toList_normalize, hsame]

/-- **Normalizing is stable.**  A normalized token is its own normal form, for all of
Unicode: it is in normal form, and its words are those of the token in upper case.  The
normal form is the same for all spellings that differ in their blanks and in the case of
letters in ASCII.  So a form that normalizes the token that dispatch hands to it, which is
normalized already, sees the same token. -/
theorem normalize_stable (s : String) :
    normalize (normalize s) = normalize s ∧
      Text.IsNormal (normalize s).toList ∧
      Text.words (normalize s).toList = (Text.words s.toList).map Text.uppercase ∧
      (∀ t : String, Relation.EqvGen Text.Respells s.toList t.toList →
        normalize t = normalize s) ∧
      ∀ (F : Type) (read : F → OperandReader) (r : Registry F) (operands : List Spec),
        r.parseBy (fun form token => read form (normalize token)) s operands =
          r.parseBy read s operands := by
  refine ⟨normalize_normalize s, isNormal_normalize s, words_normalize s,
    fun t => normalize_eq_of_respells, ?_⟩
  intro F read r operands
  rw [Registry.parseBy_eq, Registry.parseBy_eq, normalize_normalize]

/-- A token in two spellings, with a letter that becomes two. -/
theorem normalize_stable_sharp :
    Relation.EqvGen Text.Respells "\u00a0gro\u00df \tin".toList "gro\u00df\u3000iN ".toList ∧
      normalize "gro\u00df\u3000iN " = normalize "\u00a0gro\u00df \tin" ∧
      normalize "\u00a0gro\u00df \tin" = "GROSS IN" := by
  have hblank : ∀ c ∈ [' ', '\t', '\u00a0', '\u3000'], Text.isBlank c = true := by
    simp [Text.isBlank, Text.blanks]
  have hspellings : Relation.EqvGen Text.Respells "\u00a0gro\u00df \tin".toList
      "gro\u00df\u3000iN ".toList := by
    apply Relation.EqvGen.trans (y := "gro\u00df \tin".toList)
    · exact .symm _ _ (.rel _ _ (.front (u := ['\u00a0']) (by simp [hblank]) _))
    apply Relation.EqvGen.trans (y := "gro\u00df\u3000in".toList)
    · exact .rel _ _ (.run "gro\u00df".toList "in".toList (u := [' ', '\t']) (v := ['\u3000'])
        (by simp) (by simp) (by simp [hblank]) (by simp [hblank]))
    apply Relation.EqvGen.trans (y := "gro\u00df\u3000iN".toList)
    · exact .symm _ _ (.rel _ _ (.letter "gro\u00df\u3000i".toList [] 'N'))
    · exact .rel _ _ (.back (u := [' ']) (by simp [hblank]) _)
  exact ⟨hspellings, (normalize_stable _).2.2.2.1 _ hspellings, by decide +kernel⟩

end Operator

end WhereClause
