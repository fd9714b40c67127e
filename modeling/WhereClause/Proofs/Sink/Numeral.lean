/-
WhereClause/Proofs/Sink/Numeral.lean

Decimal numerals of numbers, as they stand in the names of placeholders.

Main results: a numeral determines its number (`repr_injective`), consists of
digits (`isDigit_of_mem_repr`), and does not begin with zero unless it is zero
itself (`head?_repr`); conversely, digits that do not begin with zero are the
numeral of some number (`exists_repr_eq`).  A text that is no numeral cannot be
made one by writing a number behind it (`eq_of_stem_append_repr`).
-/
import Mathlib.Data.List.Induction
import Mathlib.Logic.Function.Basic

namespace WhereClause.Numeral

theorem repr_injective : Function.Injective Nat.repr := by
  intro m n h
  have hd : Nat.toDigits 10 m = Nat.toDigits 10 n := by
    rw [← Nat.toList_repr, ← Nat.toList_repr, h]
  rw [← Nat.ofDigitChars_ten_toDigits (n := m), hd, Nat.ofDigitChars_ten_toDigits]

theorem isDigit_of_mem_repr {n : Nat} {c : Char} (h : c ∈ n.repr.toList) :
    c.isDigit = true := by
  rw [Nat.toList_repr] at h
  exact Nat.isDigit_of_mem_toDigits (by decide) (by decide) h

theorem toList_repr_ne_nil (n : Nat) : n.repr.toList ≠ [] := by
  rw [Nat.toList_repr]
  exact Nat.toDigits_ne_nil

/-! ### Leading zeros -/

/-- Only zero has a numeral that begins with zero. -/
theorem head?_toDigits {n : Nat} (hn : 0 < n) : (Nat.toDigits 10 n).head? ≠ some '0' := by
  induction n using Nat.strongRecOn with
  | ind n ih =>
    rcases Nat.lt_or_ge n 10 with hlt | hge
    · rw [Nat.toDigits_of_lt_base hlt, List.head?_cons, ne_eq, Option.some_inj,
        Nat.digitChar_eq_zero]
      exact Nat.ne_of_gt hn
    · -- The first digit is that of the quotient, which is not zero either.
      have hquot := ih (n / 10) (by omega) (by omega)
      rw [Nat.toDigits_of_base_le (by decide) hge, List.head?_append]
      cases hd : (Nat.toDigits 10 (n / 10)).head? with
      | none => exact absurd (List.head?_eq_none_iff.1 hd) Nat.toDigits_ne_nil
      | some c => simpa [hd] using hquot

theorem head?_repr {n : Nat} (hn : 0 < n) : n.repr.toList.head? ≠ some '0' := by
  rw [Nat.toList_repr]
  exact head?_toDigits hn

/-! ### Digits as numerals -/

theorem exists_digitChar_eq {c : Char} (hc : c.isDigit = true) :
    ∃ d, d < 10 ∧ Nat.digitChar d = c := by
  have hrange : 48 ≤ c.toNat ∧ c.toNat ≤ 57 := by
    rw [Char.isDigit, Bool.and_eq_true, decide_eq_true_iff, decide_eq_true_iff] at hc
    exact ⟨UInt32.le_iff_toNat_le.1 hc.1, UInt32.le_iff_toNat_le.1 hc.2⟩
  have hlt : c.toNat - 48 < 10 := by omega
  refine ⟨c.toNat - 48, hlt, ?_⟩
  apply Char.toNat_inj.1
  rw [Nat.toNat_digitChar_of_lt_ten hlt]
  omega

/-- Digits that do not begin with zero are the numeral of some positive number. -/
theorem exists_toDigits_eq {ds : List Char} (hne : ds ≠ []) (hdigit : ∀ c ∈ ds, c.isDigit = true)
    (hhead : ds.head? ≠ some '0') : ∃ n, 0 < n ∧ Nat.toDigits 10 n = ds := by
  -- From the left: a digit at the end multiplies by ten what stands before it.
  induction ds using List.reverseRecOn with
  | nil => exact absurd rfl hne
  | append_singleton ds c ih =>
    obtain ⟨d, hd, rfl⟩ := exists_digitChar_eq (hdigit c (by simp))
    rcases eq_or_ne ds [] with rfl | hds
    · refine ⟨d, ?_, Nat.toDigits_of_lt_base hd⟩
      rcases Nat.eq_zero_or_pos d with rfl | hpos
      · exact absurd rfl hhead
      · exact hpos
    · have hfront : ds.head? ≠ some '0' := by
        cases ds with
        | nil => exact absurd rfl hds
        | cons c ds => simpa using hhead
      obtain ⟨n, hn, hnds⟩ := ih hds (fun c hc => hdigit c (by simp [hc])) hfront
      refine ⟨10 * n + d, by omega, ?_⟩
      rw [← Nat.toDigits_append_toDigits (by decide) hn hd, hnds, Nat.toDigits_of_lt_base hd]

theorem exists_repr_eq {s : String} (hne : s ≠ "") (hdigit : ∀ c ∈ s.toList, c.isDigit = true)
    (hhead : s.toList.head? ≠ some '0') : ∃ n, 0 < n ∧ n.repr = s := by
  obtain ⟨n, hn, hs⟩ := exists_toDigits_eq (by simpa using hne) hdigit hhead
  exact ⟨n, hn, String.toList_inj.1 (by rw [Nat.toList_repr, hs])⟩

theorem repr_ten_mul {n : Nat} (hn : 0 < n) : (10 * n).repr = n.repr ++ "0" := by
  apply String.toList_inj.1
  rw [String.toList_append, Nat.toList_repr, Nat.toList_repr, ← Nat.add_zero (10 * n),
    ← Nat.toDigits_append_toDigits (by decide) hn (by decide : 0 < 10)]
  rfl

end WhereClause.Numeral

namespace WhereClause

/-! ### Positive numerals -/

/-- Digits that do not begin with zero, at least one. -/
def IsNumeral (s : String) : Prop :=
  s ≠ "" ∧ (∀ c ∈ s.toList, c.isDigit = true) ∧ s.toList.head? ≠ some '0'

theorem isNumeral_iff {s : String} : IsNumeral s ↔ ∃ n, 0 < n ∧ n.repr = s := by
  constructor
  · rintro ⟨hne, hdigit, hhead⟩
    exact Numeral.exists_repr_eq hne hdigit hhead
  · rintro ⟨n, hn, rfl⟩
    refine ⟨?_, fun c => Numeral.isDigit_of_mem_repr, Numeral.head?_repr hn⟩
    intro h
    exact Numeral.toList_repr_ne_nil n (by rw [h]; rfl)

/-- A stem that is no numeral is no beginning of one either, unless it is empty. -/
theorem eq_of_stem_append_repr {stem : String} {m n : Nat} (hstem : ¬ IsNumeral stem)
    (h : stem ++ n.repr = m.repr) : stem = "" ∧ n = m := by
  by_cases hempty : stem = ""
  · subst hempty
    rw [String.empty_append] at h
    exact ⟨rfl, Numeral.repr_injective h⟩
  exfalso
  have hl : stem.toList ++ n.repr.toList = m.repr.toList := by rw [← String.toList_append, h]
  have hdigit : ∀ c ∈ stem.toList, c.isDigit = true := fun c hc =>
    Numeral.isDigit_of_mem_repr (n := m) (by rw [← hl]; exact List.mem_append_left _ hc)
  -- The stem is made of digits, so it can only fail to be a numeral by its first one.
  have hhead : stem.toList.head? = some '0' := by
    by_contra hne
    exact hstem ⟨hempty, hdigit, hne⟩
  -- A numeral that begins with zero is that of zero, and has no second digit.
  have hm : m = 0 := by
    by_contra hm
    refine Numeral.head?_repr (Nat.pos_of_ne_zero hm) ?_
    rw [← hl, List.head?_append, hhead]
    rfl
  subst hm
  have hlen : stem.toList.length + n.repr.toList.length = 1 := by
    rw [← List.length_append, hl]
    rfl
  have hpos : 0 < stem.toList.length := List.length_pos_iff.2 (by simpa using hempty)
  have hpos' : 0 < n.repr.toList.length := List.length_pos_iff.2 (Numeral.toList_repr_ne_nil n)
  omega

end WhereClause
