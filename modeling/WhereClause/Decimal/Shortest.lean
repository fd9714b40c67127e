/-
WhereClause/Decimal/Shortest.lean

The fewest decimal digits that read back as a given binary number.  A binary
floating-point number stands for all the reals that round to it; among the
decimals with the fewest digits in that interval the nearest one is chosen.

The grids of multiples of `10 ^ k` are tried from coarse to fine.  If a grid has
a point in the interval, then one of the two neighbours of the number on that
grid is in it, so the first grid with a hit has the fewest digits.
-/

namespace WhereClause.Decimal

/-- The positive number `significand * 2 ^ exponent`, with its neighbours one
`2 ^ exponent` away; below the least significand of a binade only half as far. -/
structure Binary where
  significand : Nat
  exponent : Int
  nearBelow : Bool

/-- The decimal number `coefficient * 10 ^ exponent`. -/
structure Digits where
  coefficient : Nat
  exponent : Int

/-- Which of two decimals at the same distance is chosen. -/
inductive Tie where
  | up
  | toEven

namespace Binary

/-! ### The interval of a number, in quarters of its last place -/

def lower (x : Binary) : Nat := 4 * x.significand - (if x.nearBelow then 1 else 2)

def upper (x : Binary) : Nat := 4 * x.significand + 2

/-- With `a` and `b` as here, `d` steps of the grid of `10 ^ k` lie at `d * b`
where `j` quarters of the last place of `x` lie at `j * a`. -/
def quarter (x : Binary) (k : Int) : Nat := Nat.pow 2 (x.exponent - 2).toNat * Nat.pow 10 (-k).toNat

def step (x : Binary) (k : Int) : Nat := Nat.pow 10 k.toNat * Nat.pow 2 (2 - x.exponent).toNat

/-- Whether `d * 10 ^ k` reads back as `x`; the ends do so when the significand is even. -/
def holds (x : Binary) (k : Int) (d : Nat) : Bool :=
  let low := x.lower * x.quarter k
  let high := x.upper * x.quarter k
  let point := d * x.step k
  if x.significand % 2 = 0 then low ≤ point && point ≤ high else low < point && point < high

/-! ### The search -/

/-- The nearest multiple of `10 ^ k` that reads back as `x`, if there is one. -/
def onGrid? (tie : Tie) (x : Binary) (k : Int) : Option Nat :=
  let value := 4 * x.significand * x.quarter k
  let d := value / x.step k
  match x.holds k d, x.holds k (d + 1) with
  | false, false => none
  | true, false => some d
  | false, true => some (d + 1)
  | true, true =>
    let below := value - d * x.step k
    let above := (d + 1) * x.step k - value
    if below < above then some d
    else if above < below then some (d + 1)
    else match tie with
      | .up => some (d + 1)
      | .toEven => some (if d % 2 = 0 then d else d + 1)

/-- The first hit on `n` grids from `10 ^ k` down. -/
def search (tie : Tie) (x : Binary) : Nat → Int → Option Digits
  | 0, _ => none
  | n + 1, k =>
    match x.onGrid? tie k with
    | some d => some ⟨d, k⟩
    | none => search tie x n (k - 1)

/-- A power of ten above `x`: `0.30103` exceeds the decimal logarithm of two. -/
def ceiling (x : Binary) : Int :=
  (x.significand.log2 + x.exponent) * 30103 / 100000 + 2

/-- Seventeen digits always suffice for a number of 53 binary places, and fewer
than 22 grids separate the ceiling from the seventeenth digit. -/
def shortest (tie : Tie) (x : Binary) : Digits :=
  (x.search tie 22 x.ceiling).getD ⟨x.significand, 0⟩

end Binary

end WhereClause.Decimal
