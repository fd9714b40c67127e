/-
WhereClause/Decimal/Layout.lean

Floating-point numbers as text.  A `Layout` holds the choices that writers of
numbers differ in: which exponents are written out, whether a whole number
keeps a fraction, whether a positive power of ten has a sign, and where a tie
between two shortest decimals goes.
-/
import WhereClause.Decimal.Shortest

namespace WhereClause.Decimal

structure Layout where
  /-- The exponents of the leading digit that are written out in full. -/
  isPositional : Int → Bool
  /-- Whether a whole number that is written out ends in `.0`. -/
  keepsFraction : Bool
  /-- Whether a positive power of ten is written with a plus sign. -/
  signsPower : Bool
  tie : Tie

/-- What the bits of a floating-point number stand for. -/
inductive Datum where
  | nan
  | infinite (negative : Bool)
  | zero (negative : Bool)
  | finite (negative : Bool) (magnitude : Binary)

/-- Sign, eleven bits of exponent and 52 of fraction. -/
def Datum.ofBits (bits : Nat) : Datum :=
  let negative := bits / Nat.pow 2 63 % 2 = 1
  let exponent : Nat := bits / Nat.pow 2 52 % Nat.pow 2 11
  let fraction := bits % Nat.pow 2 52
  if exponent = 2047 then
    if fraction = 0 then .infinite negative else .nan
  else if exponent = 0 then
    if fraction = 0 then .zero negative else .finite negative ⟨fraction, -1074, false⟩
  else
    .finite negative
      ⟨Nat.pow 2 52 + fraction, (exponent : Int) - 1075, fraction = 0 && 1 < exponent⟩

namespace Layout

def zeros (n : Nat) : List Char := List.replicate n '0'

/-- All the places of `d`, the point among them. -/
def positional (l : Layout) (d : Digits) : List Char :=
  let ds := Nat.toDigits 10 d.coefficient
  let places := (-d.exponent).toNat
  if 0 ≤ d.exponent then
    ds ++ zeros d.exponent.toNat ++ (if l.keepsFraction then ['.', '0'] else [])
  else if places < ds.length then
    ds.take (ds.length - places) ++ ['.'] ++ ds.drop (ds.length - places)
  else
    ['0', '.'] ++ zeros (places - ds.length) ++ ds

/-- The power of ten after the `e`. -/
def powerText (l : Layout) (power : Int) : List Char :=
  let digits := Nat.toDigits 10 power.natAbs
  if power < 0 then '-' :: digits
  else if l.signsPower then '+' :: digits
  else digits

/-- One digit before the point, and the power of ten after an `e`. -/
def scientific (l : Layout) (d : Digits) (power : Int) : List Char :=
  match Nat.toDigits 10 d.coefficient with
  | [] => []
  | [c] => c :: 'e' :: l.powerText power
  | c :: cs => c :: '.' :: cs ++ 'e' :: l.powerText power

def magnitude (l : Layout) (x : Binary) : List Char :=
  let d := x.shortest l.tie
  let power := d.exponent + ((Nat.toDigits 10 d.coefficient).length - 1 : Nat)
  if l.isPositional power then l.positional d else l.scientific d power

def sign (negative : Bool) : List Char := if negative then ['-'] else []

def text (l : Layout) (x : Float) : String :=
  match Datum.ofBits x.toBits.toNat with
  | .nan => "NaN"
  | .infinite negative => String.ofList (sign negative ++ "inf".toList)
  | .zero negative =>
    String.ofList (sign negative ++ '0' :: (if l.keepsFraction then ['.', '0'] else []))
  | .finite negative x => String.ofList (sign negative ++ l.magnitude x)

end Layout

end WhereClause.Decimal
