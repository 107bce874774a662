import Cpl.Decimal.Shortest
import Mathlib.Tactic.Ring

namespace Cpl

theorem twoTo_pos (exponent : Nat) : 0 < twoTo exponent := Nat.two_pow_pos exponent

/-- The powers of two multiply. -/
theorem twoTo_add (first second : Nat) : twoTo (first + second) = twoTo first * twoTo second :=
  Nat.pow_add 2 first second

/-- The powers of ten multiply. -/
theorem tenTo_add (first second : Nat) : tenTo (first + second) = tenTo first * tenTo second :=
  Nat.pow_add 10 first second

theorem tenTo_pos (exponent : Nat) : 0 < tenTo exponent := Nat.pow_pos (by decide)

namespace Binary64

section Quotients
variable {numerator denominator whole : Nat}

/-- A ratio that is at most a half away from a whole number is rounded to it, if it is less than a
half away or the whole number is even. -/
theorem roundHalfEven_eq (positive : 0 < denominator)
    (low : 2 * (whole * denominator) ≤ 2 * numerator + denominator)
    (high : 2 * numerator ≤ 2 * (whole * denominator) + denominator)
    (inside : whole % 2 = 1 → 2 * (whole * denominator) < 2 * numerator + denominator ∧
      2 * numerator < 2 * (whole * denominator) + denominator) :
    roundHalfEven numerator denominator = whole := by
  have divided := Nat.div_add_mod' numerator denominator
  have below := Nat.mod_lt numerator positive
  unfold roundHalfEven
  generalize numerator / denominator = quotient at *
  generalize numerator % denominator = remainder at *
  have notAbove : quotient ≤ whole := by
    by_contra above
    have larger : (whole + 1) * denominator ≤ quotient * denominator :=
      Nat.mul_le_mul_right denominator (by omega)
    rw [Nat.add_mul] at larger
    omega
  have notBelow : whole ≤ quotient + 1 := by
    by_contra above
    have larger : (quotient + 2) * denominator ≤ whole * denominator :=
      Nat.mul_le_mul_right denominator (by omega)
    rw [Nat.add_mul] at larger
    omega
  obtain rfl | rfl : whole = quotient ∨ whole = quotient + 1 := by omega
  · dsimp only
    split
    · rfl
    · split <;> omega
  · rw [Nat.add_mul] at low high inside
    dsimp only
    split
    · omega
    · split <;> omega

/-- Rounding a quotient does not depend on a common factor. -/
theorem roundHalfEven_scale {scale : Nat} (positive : 0 < scale) :
    roundHalfEven (numerator * scale) (denominator * scale) =
      roundHalfEven numerator denominator := by
  have less : 2 * (numerator % denominator * scale) < denominator * scale ↔
      2 * (numerator % denominator) < denominator := by
    rw [← Nat.mul_assoc, Nat.mul_lt_mul_right positive]
  have more : denominator * scale < 2 * (numerator % denominator * scale) ↔
      denominator < 2 * (numerator % denominator) := by
    rw [← Nat.mul_assoc, Nat.mul_lt_mul_right positive]
  simp only [roundHalfEven, Nat.mul_div_mul_right _ _ positive, Nat.mul_mod_mul_right, less, more]

/-- What a ratio is rounded to depends on its value alone. -/
theorem nearest_ratio {otherNumerator otherDenominator : Nat} (positive : 0 < denominator)
    (otherPositive : 0 < otherDenominator)
    (same : numerator * otherDenominator = otherNumerator * denominator) :
    nearest numerator denominator = nearest otherNumerator otherDenominator := by
  have scaled (numerator denominator scale : Nat) (positive : 0 < scale) :
      nearest (numerator * scale) (denominator * scale) = nearest numerator denominator := by
    have grown : numerator * scale * twoTo precision = numerator * twoTo precision * scale := by ring
    have shifted (shift : Nat) : denominator * scale * twoTo shift =
        denominator * twoTo shift * scale := by ring
    simp only [nearest, grown, shifted, Nat.mul_div_mul_right _ _ positive,
      roundHalfEven_scale positive]
  rw [← scaled numerator denominator otherDenominator otherPositive, same,
    Nat.mul_comm denominator, scaled otherNumerator otherDenominator denominator positive]

end Quotients

section Patterns
variable {number : Binary64}

/-- A pattern is made of the shift and the significand. Only unshifted significands are small. -/
theorem magnitude_parts (number : Binary64) :
    number.magnitude = number.shift * 2 ^ 52 + number.significand ∧ number.significand < 2 ^ 53 ∧
      (number.shift = 0 ∨ 2 ^ 52 ≤ number.significand) := by
  have power : twoTo 52 = 2 ^ 52 := rfl
  rw [shift, significand, power]
  generalize number.magnitude = pattern
  split <;> omega

/-- The numbers from zero up to the largest finite one. -/
def Counts (number : Binary64) : Prop := number.bits.toNat < infinityBits

/-- The magnitude of a number that counts is all of its bits. -/
theorem Counts.magnitude (counts : number.Counts) : number.magnitude = number.bits.toNat := by
  have limit : infinityBits < twoTo 63 := by decide
  exact Nat.mod_eq_of_lt (Nat.lt_trans counts limit)

/-- A number that counts is finite. -/
theorem Counts.isInfinite (counts : number.Counts) : number.isInfinite = false := by
  have isCounted : number.magnitude < infinityBits := counts.magnitude ▸ counts
  rw [Binary64.isInfinite, decide_eq_false_iff_not]
  omega

/-- What a ratio is rounded to is finite, unless it is infinity. -/
theorem nearest_counts {numerator denominator : Nat}
    (finite : (nearest numerator denominator).isInfinite = false) :
    (nearest numerator denominator).Counts := by
  have limit : infinityBits < twoTo 63 := by decide
  have size : twoTo 63 < UInt64.size := by decide
  unfold nearest at finite ⊢
  dsimp only at finite ⊢
  generalize Nat.log2 (numerator * twoTo precision / denominator) - 52 = shift at *
  generalize shift * twoTo 52 + roundHalfEven (numerator * twoTo precision)
    (denominator * twoTo shift) = pattern at *
  have least := Nat.min_le_right pattern infinityBits
  have bits : (UInt64.ofNat (min pattern infinityBits)).toNat = min pattern infinityBits :=
    UInt64.toNat_ofNat_of_lt' (by omega)
  rw [Binary64.isInfinite, decide_eq_false_iff_not, magnitude, bits,
    Nat.mod_eq_of_lt (by omega)] at finite
  rw [Counts, bits]
  omega

/-- A quotient is rounded to the number whose shift and significand it has. -/
theorem nearest_of_parts {numerator denominator shift : Nat} (counts : number.Counts)
    (shifted : Nat.log2 (numerator * twoTo precision / denominator) - 52 = shift)
    (rounded : shift * 2 ^ 52 + roundHalfEven (numerator * twoTo precision)
      (denominator * twoTo shift) = number.magnitude) :
    nearest numerator denominator = number := by
  have pattern := rounded.trans counts.magnitude
  have least := Nat.min_eq_left (Nat.le_of_lt counts)
  have power : twoTo 52 = 2 ^ 52 := rfl
  simp only [nearest, shifted, power, pattern, least, UInt64.ofNat_toNat]

/-- The shift that leaves a significand of 53 bits, or none if there are fewer. -/
theorem shift_eq {scaled denominator shift : Nat} (positive : 0 < denominator)
    (below : scaled < 2 ^ 53 * (denominator * twoTo shift))
    (above : shift = 0 ∨ 2 ^ 52 * (denominator * twoTo shift) ≤ scaled) :
    Nat.log2 (scaled / denominator) - 52 = shift := by
  have power : twoTo shift = 2 ^ shift := rfl
  rw [power] at below above
  have small : scaled / denominator < 2 ^ (shift + 53) := by
    rw [Nat.div_lt_iff_lt_mul positive]
    calc scaled < 2 ^ 53 * (denominator * 2 ^ shift) := below
      _ = 2 ^ (shift + 53) * denominator := by ring
  have most : Nat.log2 (scaled / denominator) < shift + 53 := by
    by_cases zero : scaled / denominator = 0
    · rw [zero, Nat.log2_zero]
      omega
    · exact (Nat.log2_lt zero).mpr small
  obtain rfl | large := above
  · omega
  · have whole : 2 ^ (shift + 52) ≤ scaled / denominator := by
      rw [Nat.le_div_iff_mul_le positive]
      calc 2 ^ (shift + 52) * denominator = 2 ^ 52 * (denominator * 2 ^ shift) := by ring
        _ ≤ scaled := large
    have nonzero : scaled / denominator ≠ 0 := by
      have some := Nat.two_pow_pos (shift + 52)
      omega
    have least := (Nat.le_log2 nonzero).mpr whole
    omega

end Patterns

end Binary64

namespace Decimal
open Binary64
variable {number : Binary64}

/-- The unit in which the places of a significand count. -/
def unit (number : Binary64) : Nat := twoTo number.shift * tenTo places

/-- The unit of a significand is not zero. -/
theorem unit_pos (number : Binary64) : 0 < unit number :=
  Nat.mul_pos (twoTo_pos number.shift) (tenTo_pos places)

/-- A rounding interval reaches half a unit up, and half or a quarter of a unit down. -/
theorem roundingInterval_eq (number : Binary64) : roundingInterval number =
    ⟨(4 * number.significand -
        if number.significand = twoTo 52 && 0 < number.shift then 1 else 2) * unit number,
      4 * number.significand * unit number, (4 * number.significand + 2) * unit number,
      number.significand % 2 = 0⟩ := rfl

/-- What lies in a rounding interval is at most half a unit away from the number, and less if the
significand is odd. Below a power of two it is at most a quarter of a unit away. -/
theorem contains_bounds {point : Nat} (inside : (roundingInterval number).contains point = true) :
    let middle := 4 * (number.significand * unit number)
    (middle ≤ point + 2 * unit number ∧ point ≤ middle + 2 * unit number) ∧
      (number.significand % 2 = 1 →
        middle < point + 2 * unit number ∧ point < middle + 2 * unit number) ∧
      (number.significand = 2 ^ 52 → 0 < number.shift → middle ≤ point + unit number) := by
  intro middle
  have positive := unit_pos number
  have power : twoTo 52 = 2 ^ 52 := rfl
  have high : (4 * number.significand + 2) * unit number = middle + 2 * unit number := by ring
  have low (gap : Nat) : (4 * number.significand - gap) * unit number =
      middle - gap * unit number := by
    rw [Nat.sub_mul, Nat.mul_assoc]
  rw [roundingInterval_eq, Interval.contains] at inside
  dsimp only at inside
  rw [low, high, power] at inside
  clear_value middle
  simp only [Bool.and_eq_true, decide_eq_true_eq] at inside
  split at inside
  · rw [Bool.and_eq_true, decide_eq_true_eq, decide_eq_true_eq] at inside
    split at inside <;> omega
  · rw [Bool.and_eq_true, decide_eq_true_eq, decide_eq_true_eq] at inside
    split at inside <;> omega

section Reading

/-- Ratios in the binade of a number are rounded by its own shift. -/
theorem nearest_of_reached (counts : number.Counts) {numerator : Nat}
    (low : 2 * (number.significand * unit number) ≤
      2 * (numerator * twoTo precision) + unit number)
    (high : 2 * (numerator * twoTo precision) ≤
      2 * (number.significand * unit number) + unit number)
    (odd : number.significand % 2 = 1 →
      2 * (number.significand * unit number) < 2 * (numerator * twoTo precision) + unit number ∧
        2 * (numerator * twoTo precision) < 2 * (number.significand * unit number) + unit number)
    (reached : number.shift = 0 ∨ 2 ^ 52 * unit number ≤ numerator * twoTo precision) :
    nearest numerator (tenTo places) = number := by
  obtain ⟨pattern, bounded, _⟩ := magnitude_parts number
  have positive := unit_pos number
  have grid : tenTo places * twoTo number.shift = unit number := Nat.mul_comm _ _
  have most : (number.significand + 1) * unit number ≤ 2 ^ 53 * unit number :=
    Nat.mul_le_mul_right _ bounded
  rw [Nat.add_mul] at most
  have shifted : Nat.log2 (numerator * twoTo precision / tenTo places) - 52 = number.shift := by
    apply shift_eq (tenTo_pos places)
    · rw [grid]
      omega
    · rw [grid]
      exact reached
  apply nearest_of_parts counts shifted
  rw [grid, roundHalfEven_eq positive low high odd, pattern]

/-- Below a power of two, ratios are rounded by one shift less, and up to it. -/
theorem nearest_of_carried (counts : number.Counts) {numerator lower : Nat}
    (power : number.significand = 2 ^ 52) (shifted : number.shift = lower + 1)
    (low : 4 * (2 ^ 52 * unit number) ≤ 4 * (numerator * twoTo precision) + unit number)
    (below : numerator * twoTo precision < 2 ^ 52 * unit number) :
    nearest numerator (tenTo places) = number := by
  obtain ⟨pattern, _⟩ := magnitude_parts number
  have positive := unit_pos number
  have half : unit number = 2 * (tenTo places * twoTo lower) := by
    have two : twoTo 1 = 2 := rfl
    rw [unit, shifted, twoTo_add, two]
    ring
  rw [half] at low below positive
  have rounded : roundHalfEven (numerator * twoTo precision) (tenTo places * twoTo lower) =
      2 ^ 53 := by
    apply roundHalfEven_eq <;> omega
  have step : Nat.log2 (numerator * twoTo precision / tenTo places) - 52 = lower := by
    apply shift_eq (tenTo_pos places) (by omega)
    exact .inr (by omega)
  apply nearest_of_parts counts step
  rw [rounded, pattern, power, shifted]
  ring

/-- Everything in a rounding interval is read as its number. Only below a power of two is a ratio
rounded to a number of the next binade. -/
theorem nearest_of_contains (counts : number.Counts) {numerator : Nat}
    (inside : (roundingInterval number).contains (numerator * twoTo (precision + 2)) = true) :
    nearest numerator (tenTo places) = number := by
  obtain ⟨_, _, normal⟩ := magnitude_parts number
  have positive := unit_pos number
  have scaled : numerator * twoTo (precision + 2) = 4 * (numerator * twoTo precision) := by
    have four : twoTo 2 = 4 := rfl
    rw [twoTo_add, four]
    ring
  have bounds := contains_bounds inside
  rw [scaled] at bounds
  obtain ⟨⟨low, high⟩, odd, narrow⟩ := bounds
  by_cases reached : number.shift = 0 ∨ 2 ^ 52 * unit number ≤ numerator * twoTo precision
  · apply nearest_of_reached counts _ _ _ reached <;> omega
  · obtain ⟨shifted, below⟩ := not_or.mp reached
    obtain ⟨lower, step⟩ := Nat.exists_eq_succ_of_ne_zero shifted
    have power : number.significand = 2 ^ 52 := by
      by_contra above
      have larger : (2 ^ 52 + 1) * unit number ≤ number.significand * unit number :=
        Nat.mul_le_mul_right _ (by omega)
      rw [Nat.add_mul] at larger
      omega
    have close := narrow power (by omega)
    rw [power] at close
    exact nearest_of_carried counts power step close (by omega)

end Reading

end Decimal

end Cpl
