/-
The decimal with the fewest digits that is read back as a given floating-point number.
-/

import Cpl.Decimal.Binary64

namespace Cpl

/-- The number `digits * 10 ^ exponent`. -/
structure Decimal where
  digits : Nat
  exponent : Int
deriving DecidableEq

namespace Decimal

/-- An interval of positive numbers around a value, in one unknown unit. -/
structure Interval where
  low : Nat
  value : Nat
  high : Nat
  closed : Bool
deriving DecidableEq

def Interval.contains (interval : Interval) (point : Nat) : Bool :=
  if interval.closed then interval.low ≤ point && point ≤ interval.high
  else interval.low < point && point < interval.high

/-- The multiple of a step that lies in the interval and is nearest to its value. Of two that
are equally near it is the larger. -/
def Interval.nearestMultiple? (interval : Interval) (step : Nat) : Option Nat :=
  let below := interval.value / step
  let above := below + 1
  match interval.contains (below * step), interval.contains (above * step) with
  | true, true =>
      if interval.value - below * step < above * step - interval.value then some below
      else some above
  | true, false => some below
  | false, true => some above
  | false, false => none

/-- The decimal places that are kept while digits are sought. The smallest number has its first
digit at place 324 and no number needs more than 17 digits. -/
def places : Nat := 400

/-- The numbers that are read as a given finite number other than zero, in units of
10 to the power of minus `places` times 2 to the power of minus `precision + 2`. The gap below a
power of two is half as wide as the gap above. Ends are read as the number with the even
significand. -/
def roundingInterval (number : Binary64) : Interval :=
  let significand := number.significand
  let unit := twoTo number.shift * tenTo places
  let narrow := significand = twoTo 52 && 0 < number.shift
  { low := (4 * significand - if narrow then 1 else 2) * unit
    value := 4 * significand * unit
    high := (4 * significand + 2) * unit
    closed := significand % 2 = 0 }

/-- The number of decimal digits. -/
def digitCount (number : Nat) : Nat := (Nat.toDigits 10 number).length

/-- Zeros at the end of the digits move into the exponent. -/
def trim (decimal : Decimal) : Decimal :=
  if _nonzero : decimal.digits = 0 then decimal
  else if decimal.digits % 10 = 0 then trim ⟨decimal.digits / 10, decimal.exponent + 1⟩
  else decimal
termination_by decimal.digits
decreasing_by omega

/-- The fewest digits that are read back as the absolute value of a finite number. Of the
decimals with that many digits it is the nearest, and of two equally near the larger. -/
def shortest (number : Binary64) : Decimal :=
  let interval := roundingInterval number
  let unit := twoTo (Binary64.precision + 2)
  let whole := digitCount (interval.value / unit)
  let candidate (count : Nat) : Option Decimal :=
    let place := whole - (count + 1)
    (interval.nearestMultiple? (unit * tenTo place)).map fun digits =>
      trim ⟨digits, (place : Int) - (places : Int)⟩
  ((List.range 17).findSome? candidate).getD ⟨0, 0⟩

end Decimal

end Cpl
