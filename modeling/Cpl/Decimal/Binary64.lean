/-
Numbers in the 64-bit binary format with 52 fraction bits: what a bit pattern stands for, and
the pattern nearest to a ratio of whole numbers.
-/

namespace Cpl

def twoTo (exponent : Nat) : Nat := Nat.pow 2 exponent

def tenTo (exponent : Nat) : Nat := Nat.pow 10 exponent

/-- A floating-point number, known by its bit pattern. -/
structure Binary64 where
  bits : UInt64
deriving DecidableEq

namespace Binary64

/-- The pattern of positive infinity; larger patterns without the sign are not numbers. -/
def infinityBits : Nat := 0x7FF0000000000000

/-- Finite numbers are whole multiples of 2 to the power of minus this. -/
def precision : Nat := 1074

def negative (number : Binary64) : Bool := twoTo 63 ≤ number.bits.toNat

/-- The pattern without the sign. -/
def magnitude (number : Binary64) : Nat := number.bits.toNat % twoTo 63

def isNaN (number : Binary64) : Bool := infinityBits < number.magnitude

def isInfinite (number : Binary64) : Bool := number.magnitude = infinityBits

/-- The significand of a finite number. -/
def significand (number : Binary64) : Nat :=
  if number.magnitude < twoTo 52 then number.magnitude
  else number.magnitude % twoTo 52 + twoTo 52

/-- How far the significand of a finite number is shifted to the left. -/
def shift (number : Binary64) : Nat := number.magnitude / twoTo 52 - 1

/-- A finite number without its sign, as a multiple of 2 to the power of minus `precision`. -/
def multiple (number : Binary64) : Nat := number.significand * twoTo number.shift

/-- The quotient rounded to the nearest whole number, a half going to the even one. -/
def roundHalfEven (numerator denominator : Nat) : Nat :=
  let quotient := numerator / denominator
  let twice := 2 * (numerator % denominator)
  if twice < denominator then quotient
  else if denominator < twice then quotient + 1
  else quotient + quotient % 2

/-- The number nearest to a ratio, a half going to the even significand. Ratios that are too
large give infinity. A significand that is rounded up to the next power of two carries into the
exponent, so the pattern is one sum. -/
def nearest (numerator denominator : Nat) : Binary64 :=
  let scaled := numerator * twoTo precision
  let shift := Nat.log2 (scaled / denominator) - 52
  let rounded := roundHalfEven scaled (denominator * twoTo shift)
  ⟨UInt64.ofNat (min (shift * twoTo 52 + rounded) infinityBits)⟩

end Binary64

end Cpl
