/-
WhereClause/Proofs/TwosComplement.lean

Whole numbers on the wire.  A server reads the bytes that it gets, the highest first, as a
number in two's complement of as many bits as there are; this is `signed`.  The type that
it expects fixes how many bytes these are, and a number is sent only if they can hold it.

Bytes and numbers correspond one to one within a width (`signed_twosComplement`,
`twosComplement_signed`), so that a number has one form of each width that it fits in
(`narrowed_eq_ok_iff`).

Main result: what is sent as a type is as wide as the type and is read back as the number,
and a number is refused as too small, as too large, or because the type is not for whole
numbers (`encode_int`).
-/
import Mathlib.Algebra.Order.Ring.Int
import Mathlib.Data.List.Induction
import WhereClause.Wire

namespace WhereClause.Wire

/-! ### Reading bytes -/

/-- The number that bytes spell, the highest first. -/
def unsigned (bs : List UInt8) : Nat := bs.foldl (fun x b => 256 * x + b.toNat) 0

/-- The number that bytes stand for in two's complement. -/
def signed (bs : List UInt8) : Int := (BitVec.ofNat (8 * bs.length) (unsigned bs)).toInt

theorem unsigned_concat (bs : List UInt8) (b : UInt8) :
    unsigned (bs ++ [b]) = 256 * unsigned bs + b.toNat := by
  simp [unsigned]

@[simp] theorem length_bigEndian (n x : Nat) : (bigEndian n x).length = n := by
  induction n generalizing x with
  | zero => rfl
  | succ n ih => simp [bigEndian, ih]

/-- Reading gives the number back, less what its bytes could not hold. -/
theorem unsigned_bigEndian (n x : Nat) : unsigned (bigEndian n x) = x % 256 ^ n := by
  induction n generalizing x with
  | zero => simp [bigEndian, unsigned, Nat.mod_one]
  | succ n ih =>
    have hlow : (UInt8.ofNat x).toNat = x % 256 := by simp
    rw [bigEndian, unsigned_concat, ih, hlow, Nat.pow_succ', Nat.mod_mul]
    omega

/-- The low bytes of the number that bytes spell are these bytes. -/
theorem bigEndian_unsigned (bs : List UInt8) : bigEndian bs.length (unsigned bs) = bs := by
  induction bs using List.reverseRecOn with
  | nil => rfl
  | append_singleton bs b ih =>
    have hb : b.toNat < 256 := b.toNat_lt
    have hhigh : (256 * unsigned bs + b.toNat) / 256 = unsigned bs := by omega
    have hlow : UInt8.ofNat (256 * unsigned bs + b.toNat) = b := by
      apply UInt8.toNat_inj.1
      rw [UInt8.toNat_ofNat']
      omega
    rw [List.length_append, List.length_singleton, unsigned_concat, bigEndian, hhigh, hlow, ih]

/-! ### Numbers of a width -/

/-- The numbers that `n` bytes can hold, one bit of them being for the sign. -/
def Fits (n : Nat) (v : Int) : Prop := -2 ^ (8 * n - 1) ≤ v ∧ v < 2 ^ (8 * n - 1)

/-- The sign bit halves the numbers of a width. -/
theorem two_pow_eq_double {n : Nat} (hn : 0 < n) : 2 ^ (8 * n) = 2 * 2 ^ (8 * n - 1) := by
  rw [← Nat.pow_succ']
  congr 1
  omega

theorem pow_256 (n : Nat) : 256 ^ n = 2 ^ (8 * n) := by rw [Nat.pow_mul]

theorem twosComplement_eq (n : Nat) (v : Int) :
    twosComplement n v = bigEndian n (v % (2 ^ (8 * n) : Nat)).toNat := by
  have hpow : Int.pow 2 (8 * n) = ((2 ^ (8 * n) : Nat) : Int) := by
    push_cast
    rfl
  rw [twosComplement, hpow]

@[simp] theorem length_twosComplement (n : Nat) (v : Int) : (twosComplement n v).length = n :=
  length_bigEndian n _

/-- The bytes of a number spell its remainder. -/
theorem unsigned_twosComplement (n : Nat) (v : Int) :
    (unsigned (twosComplement n v) : Int) = v % (2 ^ (8 * n) : Nat) := by
  have hpos : (0 : Int) < (2 ^ (8 * n) : Nat) := by exact_mod_cast Nat.two_pow_pos (8 * n)
  have hnonneg := Int.emod_nonneg v hpos.ne'
  have hlt := Int.emod_lt_of_pos v hpos
  rw [twosComplement_eq, unsigned_bigEndian, pow_256, Nat.mod_eq_of_lt (by omega),
    Int.toNat_of_nonneg hnonneg]

/-- **Bytes that can hold a number** are read as that number. -/
theorem signed_twosComplement {n : Nat} (hn : 0 < n) {v : Int} (hv : Fits n v) :
    signed (twosComplement n v) = v := by
  obtain ⟨hlow, hhigh⟩ := hv
  rw [signed, length_twosComplement, BitVec.toInt_ofNat', unsigned_twosComplement, Int.emod_bmod]
  apply Int.bmod_eq_of_le
  · rw [two_pow_eq_double hn]
    push_cast
    omega
  · rw [two_pow_eq_double hn]
    push_cast
    omega

/-- No other bytes of the width are read as the number. -/
theorem twosComplement_signed (bs : List UInt8) :
    twosComplement bs.length (signed bs) = bs := by
  have hspelled : unsigned bs % 2 ^ (8 * bs.length) = unsigned bs := by
    rw [← pow_256, ← unsigned_bigEndian, bigEndian_unsigned]
  rw [twosComplement_eq, signed, BitVec.toInt_ofNat', Int.bmod_emod, ← Int.natCast_mod,
    Int.toNat_natCast, hspelled, bigEndian_unsigned]

theorem fits_signed (bs : List UInt8) : Fits bs.length (signed bs) :=
  ⟨BitVec.le_toInt _, BitVec.toInt_lt⟩

/-! ### Narrowing -/

/-- On which side a number lies outside of what `n` bytes can hold. -/
def RangeFault.Applies (n : Nat) (v : Int) : RangeFault → Prop
  | .tooSmall => v < -2 ^ (8 * n - 1)
  | .tooLarge => 2 ^ (8 * n - 1) ≤ v

theorem narrowed_of_fits {n : Nat} {v : Int} (hv : Fits n v) :
    narrowed n v = .ok (twosComplement n v) := by
  rw [narrowed]
  split
  · next hlow => exact absurd hv.1 (Int.not_le.2 hlow)
  · split
    · next hhigh => exact absurd hv.2 (Int.not_lt.2 hhigh)
    · rfl

theorem narrowed_of_applies {n : Nat} {v : Int} {fault : RangeFault} (h : fault.Applies n v) :
    narrowed n v = .error (.outOfRange fault) := by
  rw [narrowed]
  cases fault with
  | tooSmall => exact if_pos h
  | tooLarge =>
    have hpos : (0 : Int) < Int.pow 2 (8 * n - 1) := Int.pow_pos (by decide)
    have hhigh : Int.pow 2 (8 * n - 1) ≤ v := h
    rw [if_neg (by omega), if_pos hhigh]

/-- A number fits, or there is a side on which it does not. -/
theorem fits_or_applies (n : Nat) (v : Int) :
    Fits n v ∨ ∃ fault : RangeFault, fault.Applies n v := by
  by_cases hlow : v < -2 ^ (8 * n - 1)
  · exact .inr ⟨.tooSmall, hlow⟩
  · by_cases hhigh : 2 ^ (8 * n - 1) ≤ v
    · exact .inr ⟨.tooLarge, hhigh⟩
    · exact .inl ⟨Int.not_lt.1 hlow, Int.not_le.1 hhigh⟩

/-- A number is narrowed to the bytes of the width that are read as it. -/
theorem narrowed_eq_ok_iff {n : Nat} (hn : 0 < n) {v : Int} {bs : List UInt8} :
    narrowed n v = .ok bs ↔ bs.length = n ∧ signed bs = v := by
  constructor
  · intro h
    rcases fits_or_applies n v with hv | ⟨fault, hv⟩
    · rw [narrowed_of_fits hv] at h
      obtain rfl := Except.ok.inj h
      exact ⟨length_twosComplement n v, signed_twosComplement hn hv⟩
    · rw [narrowed_of_applies hv] at h
      cases h
  · rintro ⟨rfl, rfl⟩
    rw [narrowed_of_fits (fits_signed bs), twosComplement_signed]

theorem exists_narrowed_eq_ok_iff {n : Nat} {v : Int} :
    (∃ bs, narrowed n v = .ok bs) ↔ Fits n v := by
  constructor
  · rintro ⟨bs, h⟩
    rcases fits_or_applies n v with hv | ⟨fault, hv⟩
    · exact hv
    · rw [narrowed_of_applies hv] at h
      cases h
  · intro hv
    exact ⟨twosComplement n v, narrowed_of_fits hv⟩

/-- What is not narrowed is refused for the side on which it does not fit. -/
theorem narrowed_eq_error_iff {n : Nat} {v : Int} {r : Refusal} :
    narrowed n v = .error r ↔ ∃ fault : RangeFault, fault.Applies n v ∧ r = .outOfRange fault := by
  constructor
  · intro h
    rcases fits_or_applies n v with hv | ⟨fault, hv⟩
    · rw [narrowed_of_fits hv] at h
      cases h
    · rw [narrowed_of_applies hv] at h
      exact ⟨fault, hv, (Except.error.inj h).symm⟩
  · rintro ⟨fault, hv, rfl⟩
    exact narrowed_of_applies hv

/-! ### Types for whole numbers -/

/-- How many bytes a type has for a whole number. -/
def PgType.intWidth? : PgType → Option Nat
  | .int2 => some 2
  | .int4 => some 4
  | .int8 => some 8
  | _ => none

theorem PgType.intWidth_pos {t : PgType} {n : Nat} (h : t.intWidth? = some n) : 0 < n := by
  cases t <;> cases h <;> decide

/-- Eight bytes hold every number that there is, so that type is no exception. -/
theorem encode_int_of_width {t : PgType} {n : Nat} (h : t.intWidth? = some n) (v : Int64) :
    encode (.int v) t = narrowed n v.toInt := by
  cases t with
  | int2 => cases h; rfl
  | int4 => cases h; rfl
  | int8 =>
    cases h
    exact (narrowed_of_fits ⟨v.le_toInt, v.toInt_lt⟩).symm
  | _ => cases h

theorem encode_int_of_no_width {t : PgType} (h : t.intWidth? = none) (v : Int64) :
    encode (.int v) t = .error .wrongType := by
  cases t with
  | int2 | int4 | int8 => cases h
  | _ => rfl

/-- **Whole numbers are never truncated.**  What is sent is as wide as the type, and is read
back as the number; that is so for every number as `int8`, and for those that fit as `int4`
and `int2`.  A number that does not is out of range, and all other types are refused. -/
theorem encode_int (v : Int64) (t : PgType) :
    (∀ bs, encode (.int v) t = .ok bs ↔ t.intWidth? = some bs.length ∧ signed bs = v.toInt) ∧
      ((∃ bs, encode (.int v) t = .ok bs) ↔
        t = .int8 ∨ (t = .int4 ∧ -2 ^ 31 ≤ v.toInt ∧ v.toInt < 2 ^ 31) ∨
          (t = .int2 ∧ -2 ^ 15 ≤ v.toInt ∧ v.toInt < 2 ^ 15)) ∧
      ∀ r, encode (.int v) t = .error r ↔
        (t.intWidth? = none ∧ r = .wrongType) ∨
          ∃ n fault, t.intWidth? = some n ∧ fault.Applies n v.toInt ∧ r = .outOfRange fault := by
  cases h : t.intWidth? with
  | none =>
    have hrange : t ≠ .int8 ∧ t ≠ .int4 ∧ t ≠ .int2 := by
      refine ⟨?_, ?_, ?_⟩ <;> rintro rfl <;> cases h
    rw [encode_int_of_no_width h]
    simp [hrange, eq_comm]
  | some n =>
    rw [encode_int_of_width h]
    refine ⟨fun bs => ?_, ?_, fun r => ?_⟩
    · rw [narrowed_eq_ok_iff (PgType.intWidth_pos h), Option.some_inj, eq_comm (a := n)]
    · rw [exists_narrowed_eq_ok_iff]
      -- Eight bytes hold every number, so the range is no condition for them.
      have hall : Fits 8 v.toInt := ⟨v.le_toInt, v.toInt_lt⟩
      cases t with
      | int2 => cases h; simp [Fits]
      | int4 => cases h; simp [Fits]
      | int8 => cases h; simp [hall]
      | _ => cases h
    · rw [narrowed_eq_error_iff]
      simp

/-- The least number that two bytes hold. -/
example : encode (.int (-32768)) .int2 = .ok [0x80, 0x00] := by decide +kernel

end WhereClause.Wire
