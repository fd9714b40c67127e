/-
WhereClause/Proofs/Folding.lean

Folding a text is as good as lower-casing it, if what is asked for is a word in ASCII.
Lower-casing takes one character from above ASCII into it, the Kelvin sign, and folding
does the same to that one; of any other both leave something that no such word has.

Main results: what becomes of one character (`lowercaseChar_cases`), and that both make
the same words of a text (`folded_eq_iff`).
-/
import WhereClause.Environment
import WhereClause.Text.Lowercase

namespace WhereClause

namespace Text

/-! ### The table -/

/-- A run that leads to characters above ASCII. -/
def CaseRun.StaysAbove (r : CaseRun) : Prop :=
  128 ≤ r.first + r.shift ∧ (r.last + r.shift < 0xd800 ∨
    0xdfff < r.first + r.shift ∧ r.last + r.shift < 0x110000)

instance (r : CaseRun) : Decidable r.StaysAbove :=
  inferInstanceAs (Decidable (_ ∧ (_ ∨ _ ∧ _)))

/-- What a run leads to above ASCII is a character with just that code point. -/
theorem CaseRun.StaysAbove.toNat_ofNat {r : CaseRun} (hr : r.StaysAbove) {n m : Nat}
    (h : r.image? n = some m) : (Char.ofNat m).toNat = m ∧ 128 ≤ m := by
  rw [CaseRun.image?] at h
  split at h
  · next hn =>
    obtain ⟨hlow, hrange⟩ := hr
    obtain rfl := Option.some.inj h
    have hvalid : ((n : Int) + r.shift).toNat.isValidChar := by
      rw [Nat.isValidChar]
      omega
    have htoNat : (Char.ofNat ((n : Int) + r.shift).toNat).toNat = ((n : Int) + r.shift).toNat := by
      rw [Char.ofNat, dif_pos hvalid]
      rfl
    exact ⟨htoNat, by omega⟩
  · cases h

/-- Only the run that holds the Kelvin sign, and nothing else, leads into ASCII. -/
theorem staysAbove_or_kelvin :
    ∀ r ∈ lowercaseRuns, r.StaysAbove ∨ r.first = 0x212a ∧ r.last = 0x212a := by
  decide +kernel

theorem le_toNat_of_image? {n m : Nat} (hn : n ≠ 0x212a)
    (h : lowercaseRuns.findSome? (·.image? n) = some m) : 128 ≤ (Char.ofNat m).toNat := by
  obtain ⟨r, hr, himage⟩ := List.exists_of_findSome?_eq_some h
  rcases staysAbove_or_kelvin r hr with habove | ⟨hfirst, hlast⟩
  · obtain ⟨htoNat, hle⟩ := habove.toNat_ofNat himage
    rw [htoNat]
    exact hle
  · rw [CaseRun.image?] at himage
    split at himage
    · omega
    · cases himage

/-! ### Single characters -/

theorem toLower_of_le_toNat {c : Char} (h : 128 ≤ c.toNat) : c.toLower = c := by
  have hcapital : ¬ (c.val ≥ 'A'.val ∧ c.val ≤ 'Z'.val) := by
    rintro ⟨-, hle⟩
    have hle' : c.toNat ≤ 90 := UInt32.le_iff_toNat_le.1 hle
    omega
  exact dif_neg hcapital

/-- Above ASCII only the Kelvin sign is changed by folding. -/
theorem foldedChar_of_le_toNat {c : Char} (h : 128 ≤ c.toNat) (hc : c ≠ '\u212a') :
    foldedChar c = c := by
  rw [foldedChar, if_neg hc, toLower_of_le_toNat h]

/-- Something of a character from above ASCII stays there. -/
theorem exists_mem_lowercaseChar {c : Char} (h : 128 ≤ c.toNat) (hc : c ≠ '\u212a') :
    ∃ d ∈ lowercaseChar c, 128 ≤ d.toNat := by
  rw [lowercaseChar, if_neg (Nat.not_lt.2 h), lowercaseCode]
  split
  · exact ⟨'\u0307', by decide, by decide⟩
  · have hn : c.toNat ≠ 0x212a := fun heq => hc (Char.toNat_inj.1 heq)
    cases himage : lowercaseRuns.findSome? (·.image? c.toNat) with
    | none =>
      refine ⟨c, ?_, h⟩
      simp [Char.ofNat_toNat]
    | some m => exact ⟨Char.ofNat m, by simp, le_toNat_of_image? hn himage⟩

/-- A character is folded to its lower case, or neither is a character of ASCII. -/
theorem lowercaseChar_cases (c : Char) :
    lowercaseChar c = [foldedChar c] ∨
      128 ≤ (foldedChar c).toNat ∧ ∃ d ∈ lowercaseChar c, 128 ≤ d.toNat := by
  by_cases hc : c = '\u212a'
  · subst hc
    exact .inl (by decide +kernel)
  · rcases Nat.lt_or_ge c.toNat 128 with hlt | hge
    · left
      rw [lowercaseChar, if_pos hlt, foldedChar, if_neg hc]
    · right
      rw [foldedChar_of_le_toNat hge hc]
      exact ⟨hge, exists_mem_lowercaseChar hge hc⟩

/-! ### Texts -/

def isAscii (s : String) : Bool := s.toList.all fun c => decide (c.toNat < 128)

theorem isAscii_iff {s : String} : isAscii s = true ↔ ∀ c ∈ s.toList, c.toNat < 128 := by
  simp [isAscii]

/-- What becomes of the first character of a text, a sigma at the end of a word included. -/
theorem lowercaseBehind_cons (isFinal : SigmaRule) (before : List Char) (c : Char)
    (cs : List Char) :
    ∃ first, lowercaseBehind isFinal before (c :: cs) =
        first ++ lowercaseBehind isFinal (c :: before) cs ∧
      (first = [foldedChar c] ∨ 128 ≤ (foldedChar c).toNat ∧ ∃ d ∈ first, 128 ≤ d.toNat) := by
  refine ⟨_, rfl, ?_⟩
  split
  · next hsigma =>
    obtain rfl := hsigma.1
    exact .inr ⟨by decide, '\u03c2', by decide, by decide⟩
  · exact lowercaseChar_cases c

/-- Lower-casing and folding make the same words in ASCII, wherever words end. -/
theorem lowercaseBehind_eq_iff (isFinal : SigmaRule) {w : List Char}
    (hw : ∀ d ∈ w, d.toNat < 128) (before cs : List Char) :
    lowercaseBehind isFinal before cs = w ↔ cs.map foldedChar = w := by
  -- For every text before, since what becomes of a sigma depends on that.
  induction cs generalizing before w with
  | nil => rfl
  | cons c cs ih =>
    obtain ⟨first, hcons, hfirst⟩ := lowercaseBehind_cons isFinal before c cs
    rw [hcons, List.map_cons]
    rcases hfirst with rfl | ⟨hfolded, d, hd, habove⟩
    · cases w with
      | nil => simp
      | cons e w =>
        have hrest := ih (fun d hd => hw d (List.mem_cons_of_mem e hd)) (c :: before)
        rw [List.singleton_append, List.cons.injEq, List.cons.injEq, hrest]
    · -- Neither text is in ASCII.
      constructor
      · rintro rfl
        exact absurd (hw d (List.mem_append_left _ hd)) (Nat.not_lt.2 habove)
      · rintro rfl
        exact absurd (hw _ List.mem_cons_self) (Nat.not_lt.2 hfolded)

end Text

/-- **A text is folded to a word in ASCII** exactly if that is its lower case. -/
theorem folded_eq_iff (isFinal : Text.SigmaRule) {s w : String} (hw : Text.isAscii w = true) :
    folded s = w ↔ Text.lowercase isFinal s = w := by
  have hiff := Text.lowercaseBehind_eq_iff isFinal (Text.isAscii_iff.1 hw) [] s.toList
  rw [folded, Text.lowercase, ← String.toList_inj, ← String.toList_inj, String.toList_ofList,
    String.toList_ofList, hiff]

theorem folded_mem_iff (isFinal : Text.SigmaRule) {s : String} {ws : List String}
    (hws : ws.all Text.isAscii = true) :
    folded s ∈ ws ↔ Text.lowercase isFinal s ∈ ws := by
  rw [List.all_eq_true] at hws
  constructor
  · intro h
    rw [(folded_eq_iff isFinal (hws _ h)).1 rfl]
    exact h
  · intro h
    rw [(folded_eq_iff isFinal (hws _ h)).2 rfl]
    exact h

end WhereClause
