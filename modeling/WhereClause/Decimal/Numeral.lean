/-
WhereClause/Decimal/Numeral.lean

Numerals: an optional sign, digits with an optional point, an optional power of
ten; or `NaN`, `inf`.  A numeral is read as the nearest floating-point number.
-/

namespace WhereClause.Decimal

def digitsValue (cs : List Char) : Nat :=
  cs.foldl (fun n c => 10 * n + (c.toNat - '0'.toNat)) 0

def allDigits (cs : List Char) : Bool := !cs.isEmpty && cs.all Char.isDigit

/-- A whole number with an optional sign. -/
def integer? : List Char → Option Int
  | '-' :: cs => if allDigits cs then some (-(digitsValue cs : Int)) else none
  | '+' :: cs => if allDigits cs then some (digitsValue cs) else none
  | cs => if allDigits cs then some (digitsValue cs) else none

/-- The nearest floating-point number to `n * 10 ^ e`.  Beyond some four hundred
places every number is infinite or zero. -/
def scaled (n : Nat) (e : Int) : Float :=
  let top := (Nat.toDigits 10 n).length + e
  if n = 0 ∨ top < -400 then Float.ofBits 0
  else if 400 < top then Float.ofBits 0x7ff0000000000000
  else Float.ofScientific n (e < 0) e.natAbs

/-- A number without a sign. -/
def magnitude? (cs : List Char) : Option Float :=
  if cs = "NaN".toList then some (Float.ofBits 0x7ff8000000000000)
  else if cs = "inf".toList then some (Float.ofBits 0x7ff0000000000000)
  else do
    let isMark := fun c => c == 'e' || c == 'E'
    let body := cs.takeWhile (!isMark ·)
    let power ← match cs.dropWhile (!isMark ·) with
      | [] => some 0
      | _ :: ds => integer? ds
    let whole := body.takeWhile (· != '.')
    let fraction := (body.dropWhile (· != '.')).drop 1
    if allDigits (whole ++ fraction) then
      some (scaled (digitsValue (whole ++ fraction)) (power - fraction.length))
    else
      none

def read? (s : String) : Option Float :=
  match s.toList with
  | '-' :: cs => (magnitude? cs).map Float.neg
  | cs => magnitude? cs

end WhereClause.Decimal
