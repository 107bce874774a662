/-
How floating-point numbers are written: positionally, or with an exponent.
-/

import Cpl.Decimal.Shortest

namespace Cpl

namespace Decimal

def digitCharacters (decimal : Decimal) : List Char := Nat.toDigits 10 decimal.digits

/-- The place of the decimal point, counted from the left of the first digit. -/
def point (decimal : Decimal) : Int := decimal.digitCharacters.length + decimal.exponent

/-- All digits around a decimal point, with at least one on each side of it. -/
def positional (decimal : Decimal) : List Char :=
  let digits := decimal.digitCharacters
  if 0 ≤ decimal.exponent then
    digits ++ List.replicate decimal.exponent.toNat '0' ++ ['.', '0']
  else if 0 < decimal.point then
    digits.take decimal.point.toNat ++ '.' :: digits.drop decimal.point.toNat
  else
    '0' :: '.' :: List.replicate (-decimal.point).toNat '0' ++ digits

/-- One digit before the point, and the power of ten after the letter `e`. A point without
digits after it is left out. -/
def scientific (decimal : Decimal) : List Char :=
  let power := 'e' :: (toString (decimal.point - 1)).toList
  match decimal.digitCharacters with
  | [] => power
  | [digit] => digit :: power
  | first :: others => first :: '.' :: others ++ power

end Decimal

namespace Binary64

/-- Puts the sign in front. Numbers without a digit text are named. -/
def signed (number : Binary64) (finite : Binary64 → List Char) : List Char :=
  if number.isNaN then "NaN".toList
  else
    let text := if number.isInfinite then "inf".toList else finite number
    if number.negative then '-' :: text else text

/-- Whole numbers are written in full, with one zero after the point. All others have the fewest
digits that are read back, without an exponent. -/
def plain (number : Binary64) : List Char :=
  number.signed fun number =>
    if number.multiple % twoTo precision = 0 then
      Nat.toDigits 10 (number.multiple / twoTo precision) ++ ['.', '0']
    else (Decimal.shortest number).positional

/-- The fewest digits that are read back, with an exponent below a ten-thousandth and from
10 to the power of 16 on. -/
def compact (number : Binary64) : List Char :=
  number.signed fun number =>
    if number.magnitude = 0 then ['0', '.', '0']
    else
      let decimal := Decimal.shortest number
      if decimal.point < -3 || 16 < decimal.point then decimal.scientific
      else decimal.positional

end Binary64

end Cpl
