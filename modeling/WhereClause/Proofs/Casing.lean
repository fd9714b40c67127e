/-
WhereClause/Proofs/Casing.lean

Upper case, character by character.  A character may become several, but each of these
stays as it is from then on: no run of the table leads to a character that another run,
the list of special characters or the list of blanks holds.  That is checked on the table
alone, for every two of its runs.

Main results: what becomes of a character that is no blank is upper case, and neither a
blank nor a small letter (`isCapital_of_mem_uppercaseChar`); blanks stay as they are
(`uppercaseChar_of_isBlank`), and the case of a letter in ASCII makes no difference
(`uppercaseChar_toLower`).
-/
import Mathlib
import WhereClause.Proofs.Folding
import WhereClause.Text.Blank

namespace WhereClause.Text

/-! ### The table -/

namespace CaseRun

/-- A run that holds a single character. -/
def point (n : Nat) : CaseRun := ⟨n, n, 2, 0⟩

/-- Whether nothing that `r` leads to is held by `r'`: the two lie in different ranges, or
each takes every second code point of one range, in turn. -/
def isApart (r r' : CaseRun) : Bool :=
  Nat.blt (r.last + r.shift).toNat r'.first || Nat.blt r'.last (r.first + r.shift).toNat ||
    (Nat.beq r'.step 2 && (Nat.beq r.step 2 || Nat.beq r.first r.last) &&
      Nat.beq (((r.first + r.shift).toNat + r'.first) % 2) 1)

theorem image?_eq_none_of_isApart {r r' : CaseRun} (hr : 0 ≤ r.first + r.shift)
    (h : r.isApart r' = true) {n m : Nat} (hm : r.image? n = some m) : r'.image? m = none := by
  rw [image?] at hm
  split at hm
  · next hn =>
    obtain rfl := Option.some.inj hm
    rw [image?, if_neg]
    rintro ⟨hfirst, hlast, hstep⟩
    simp only [isApart, Bool.or_eq_true, Bool.and_eq_true, Nat.blt_eq, Nat.beq_eq] at h
    -- Beyond the range on either side, or in the range and between two of its steps.
    rcases h with (habove | hbelow) | ⟨⟨htwo, hturn⟩, hodd⟩
    · omega
    · omega
    · rw [htwo] at hstep
      rcases hturn with htwo' | hsingle
      · rw [htwo'] at hn
        omega
      · omega
  · cases hm

theorem image?_point (n : Nat) : (point n).image? n = some n := by
  rw [image?, point, if_pos]
  · simp
  · simp

end CaseRun

/-- What upper case must not lead to: the characters that it changes, and the blanks. -/
def avoided : List CaseRun :=
  uppercaseRuns ++ (uppercaseSpecials.map fun e => .point e.1) ++
    blanks.map fun b => .point b.toNat

theorem isApart_avoided : ∀ r ∈ uppercaseRuns, avoided.all r.isApart = true := by
  decide +kernel

/-- Only two runs, of one character each, lead into ASCII: to the letters I and S. -/
theorem staysAbove_or_ascii : ∀ r ∈ uppercaseRuns,
    r.StaysAbove ∨ r.first = r.last ∧ (r.first + r.shift = 0x49 ∨ r.first + r.shift = 0x53) := by
  decide +kernel

/-! ### Capitals -/

/-- A character that upper-casing leaves alone, and that is neither a blank nor a small
letter in ASCII. -/
structure IsCapital (c : Char) : Prop where
  fixed : uppercaseChar c = [c]
  not_blank : isBlank c = false
  not_small : c.isLower = false

theorem isCapital_iff (c : Char) :
    IsCapital c ↔ uppercaseChar c = [c] ∧ isBlank c = false ∧ c.isLower = false :=
  ⟨fun h => ⟨h.fixed, h.not_blank, h.not_small⟩, fun h => ⟨h.1, h.2.1, h.2.2⟩⟩

instance (c : Char) : Decidable (IsCapital c) := decidable_of_iff' _ (isCapital_iff c)

theorem isCapital_of_special :
    ∀ e ∈ uppercaseSpecials, e.2 ≠ [] ∧ ∀ m ∈ e.2, IsCapital (Char.ofNat m) := by
  decide +kernel

theorem isCapital_toUpper {c : Char} (h : c.toNat < 128) (hc : isBlank c = false) :
    IsCapital c.toUpper := by
  have hall : ∀ n < 128, isBlank (Char.ofNat n) = false → IsCapital (Char.ofNat n).toUpper := by
    decide +kernel
  have hcode := hall c.toNat h
  rw [Char.ofNat_toNat] at hcode
  exact hcode hc

theorem isLower_of_le_toNat {c : Char} (h : 128 ≤ c.toNat) : c.isLower = false := by
  rw [Char.isLower, Bool.and_eq_false_iff]
  right
  rw [decide_eq_false_iff_not]
  intro hle
  have hle' : c.toNat ≤ 122 := UInt32.le_iff_toNat_le.1 hle
  omega

/-- A character above ASCII that the table leaves alone is upper case, unless it is a blank. -/
theorem isCapital_of_avoided {m : Nat} (htoNat : (Char.ofNat m).toNat = m) (hle : 128 ≤ m)
    (havoid : ∀ r ∈ avoided, r.image? m = none) : IsCapital (Char.ofNat m) := by
  -- A single code point to be avoided is a run that leads to itself.
  have hpoint {k : Nat} (hk : CaseRun.point k ∈ avoided) : m ≠ k := by
    rintro rfl
    have hself := CaseRun.image?_point m
    rw [havoid _ hk] at hself
    cases hself
  refine ⟨?_, ?_, isLower_of_le_toNat (by rwa [htoNat])⟩
  · have hspecial : uppercaseSpecials.lookup m = none := by
      rw [List.lookup_eq_none_iff]
      intro e he
      rw [bne_iff_ne]
      apply hpoint
      exact List.mem_append_left _ (List.mem_append_right _ (List.mem_map_of_mem he))
    have hruns : uppercaseRuns.findSome? (·.image? m) = none := by
      rw [List.findSome?_eq_none_iff]
      intro r hr
      exact havoid r (List.mem_append_left _ (List.mem_append_left _ hr))
    rw [uppercaseChar, htoNat, if_neg (Nat.not_lt.2 hle), uppercaseCode, hspecial, hruns]
    rfl
  · rw [Bool.eq_false_iff]
    intro hblank
    have hmem : Char.ofNat m ∈ blanks := List.contains_iff_mem.1 hblank
    apply hpoint (List.mem_append_right _ (List.mem_map_of_mem hmem))
    exact htoNat.symm

/-- What a run leads to is upper case. -/
theorem isCapital_of_image? {r : CaseRun} (hr : r ∈ uppercaseRuns) {n m : Nat}
    (hm : r.image? n = some m) : IsCapital (Char.ofNat m) := by
  -- All runs but two lead above ASCII; those two lead to the letters I and S.
  rcases staysAbove_or_ascii r hr with habove | ⟨hsingle, hascii⟩
  · obtain ⟨htoNat, hle⟩ := habove.toNat_ofNat hm
    apply isCapital_of_avoided htoNat hle
    intro r' hr'
    have hfirst : 0 ≤ r.first + r.shift := Int.le_trans (by decide) habove.1
    have hapart := List.all_eq_true.1 (isApart_avoided r hr) r' hr'
    exact CaseRun.image?_eq_none_of_isApart hfirst hapart hm
  · rw [CaseRun.image?] at hm
    split at hm
    · have hcode : m = 0x49 ∨ m = 0x53 := by
        have hn := Option.some.inj hm
        omega
      rcases hcode with rfl | rfl
      · decide +kernel
      · decide +kernel
    · cases hm

/-! ### Single characters -/

theorem uppercaseChar_of_isBlank {c : Char} (h : isBlank c = true) : uppercaseChar c = [c] := by
  -- Decided on the list; as it stands it may be decided for every character there is.
  have hall : ∀ b ∈ blanks, uppercaseChar b = [b] :=
    List.forall_iff_forall_mem.1 (by decide +kernel)
  exact hall c (List.contains_iff_mem.1 h)

/-- **What becomes of a character that is no blank**: one capital at least, and capitals only. -/
theorem isCapital_of_mem_uppercaseChar {c : Char} (h : isBlank c = false) :
    uppercaseChar c ≠ [] ∧ ∀ d ∈ uppercaseChar c, IsCapital d := by
  rw [uppercaseChar]
  -- The function looks at ASCII first, then at the special cases, then at the runs.
  split
  · next hascii => exact ⟨by simp, by simpa using isCapital_toUpper hascii h⟩
  · next habove =>
    have hsame : c.isLower = false := isLower_of_le_toNat (Nat.not_lt.1 habove)
    rw [uppercaseCode]
    cases hspecial : uppercaseSpecials.lookup c.toNat with
    | some ms =>
      obtain ⟨hne, hall⟩ := isCapital_of_special _ (Keyed.mem_of_lookup hspecial)
      simpa using ⟨hne, hall⟩
    | none =>
      cases hrun : uppercaseRuns.findSome? (·.image? c.toNat) with
      | some m =>
        obtain ⟨r, hr, hm⟩ := List.exists_of_findSome?_eq_some hrun
        simpa using isCapital_of_image? hr hm
      | none =>
        have hfixed : uppercaseChar c = [c] := by
          rw [uppercaseChar, if_neg habove, uppercaseCode, hspecial, hrun]
          simp
        simpa using IsCapital.mk hfixed h hsame

/-- The case of a letter in ASCII makes no difference. -/
theorem uppercaseChar_toLower (c : Char) : uppercaseChar c.toLower = uppercaseChar c := by
  by_cases hc : c.isUpper = true
  · have hascii : c.toNat < 128 ∧ c.toLower.toNat < 128 := by
      have hall : ∀ n < 128, (Char.ofNat n).toLower.toNat < 128 := by decide +kernel
      have hlt : c.toNat < 128 := by
        rw [Char.isUpper, decide_eq_true_iff] at hc
        have hle : c.toNat ≤ 90 := UInt32.le_iff_toNat_le.1 hc.2
        omega
      have hcode := hall c.toNat hlt
      rw [Char.ofNat_toNat] at hcode
      exact ⟨hlt, hcode⟩
    rw [uppercaseChar, uppercaseChar, if_pos hascii.1, if_pos hascii.2,
      Char.toUpper_toLower_eq_toUpper]
  · rw [Char.toLower_eq_of_not_isUpper hc]

end WhereClause.Text
