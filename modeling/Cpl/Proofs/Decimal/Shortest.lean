import Cpl.Proofs.Decimal.Rounding

namespace Cpl

namespace Decimal
open Binary64

namespace Interval
variable {interval : Interval} {step digits : Nat}

/-- An interval contains all points between its ends. -/
theorem contains_between {point : Nat} (above : interval.low < point)
    (below : point < interval.high) : interval.contains point = true := by
  rw [contains]
  split
  · rw [Bool.and_eq_true, decide_eq_true_eq, decide_eq_true_eq]
    omega
  · rw [Bool.and_eq_true, decide_eq_true_eq, decide_eq_true_eq]
    omega

/-- The multiple that is found lies in the interval. -/
theorem nearestMultiple?_contains (found : interval.nearestMultiple? step = some digits) :
    interval.contains (digits * step) = true := by
  unfold nearestMultiple? at found
  dsimp only at found
  split at found
  · rename_i first second
    split at found
    · cases found
      exact first
    · cases found
      exact second
  · rename_i first _
    cases found
    exact first
  · rename_i _ second
    cases found
    exact second
  · cases found

/-- An interval that is wider than a step has a multiple of the step in it. -/
theorem nearestMultiple?_isSome (positive : 0 < step) (low : interval.low ≤ interval.value)
    (high : interval.value < interval.high) (wide : interval.low + step < interval.high) :
    (interval.nearestMultiple? step).isSome = true := by
  have divided := Nat.div_add_mod' interval.value step
  have remains := Nat.mod_lt interval.value positive
  have next : (interval.value / step + 1) * step = interval.value / step * step + step :=
    Nat.succ_mul _ _
  unfold nearestMultiple?
  dsimp only
  split
  · split <;> rfl
  · rfl
  · rfl
  · rename_i first second
    have belowLow : interval.value / step * step ≤ interval.low := by
      by_contra inside
      cases first.symm.trans (contains_between (by omega) (by omega))
    have aboveHigh : interval.high ≤ (interval.value / step + 1) * step := by
      by_contra inside
      cases second.symm.trans (contains_between (by omega) (by omega))
    omega

end Interval

section Intervals
variable {number : Binary64}

/-- A unit is at least as large as the scale of all decimals. -/
theorem unit_ge (number : Binary64) : tenTo places ≤ unit number :=
  Nat.le_mul_of_pos_left _ (twoTo_pos number.shift)

/-- A rounding interval begins below its number. -/
theorem roundingInterval_low (some : number.significand ≠ 0) :
    (roundingInterval number).low < (roundingInterval number).value := by
  rw [roundingInterval_eq]
  apply Nat.mul_lt_mul_of_pos_right _ (unit_pos number)
  split <;> omega

/-- A rounding interval ends above its number. -/
theorem roundingInterval_high (number : Binary64) :
    (roundingInterval number).value < (roundingInterval number).high := by
  rw [roundingInterval_eq]
  exact Nat.mul_lt_mul_of_pos_right (by omega) (unit_pos number)

/-- A number lies in its rounding interval. -/
theorem roundingInterval_value (number : Binary64) :
    (roundingInterval number).contains (roundingInterval number).value = true := by
  by_cases zero : number.significand = 0
  · simp [roundingInterval_eq, Interval.contains, zero]
  · exact Interval.contains_between (roundingInterval_low zero) (roundingInterval_high number)

/-- A rounding interval is wider than a step that is taken 10 to the power of 16 times up to its
number. -/
theorem roundingInterval_wide {step : Nat} (some : number.significand ≠ 0)
    (short : step * tenTo 16 ≤ (roundingInterval number).value) :
    (roundingInterval number).low + step < (roundingInterval number).high := by
  obtain ⟨_, bounded, _⟩ := magnitude_parts number
  have positive := unit_pos number
  have places : tenTo 16 = 10000000000000000 := rfl
  have power : twoTo 52 = 2 ^ 52 := rfl
  have most : number.significand * unit number ≤ (2 ^ 53 - 1) * unit number :=
    Nat.mul_le_mul_right _ (by omega)
  have least : 1 * unit number ≤ number.significand * unit number :=
    Nat.mul_le_mul_right _ (by omega)
  rw [roundingInterval_eq] at short ⊢
  dsimp only at short ⊢
  rw [places, Nat.mul_assoc] at short
  rw [power, Nat.sub_mul, Nat.add_mul, Nat.mul_assoc]
  simp only [Bool.and_eq_true, decide_eq_true_eq]
  split
  · rename_i narrow
    rw [narrow.1] at short ⊢
    omega
  · omega

end Intervals

/-- Moving zeros from the digits into the exponent keeps the value. -/
theorem trim_value (decimal : Decimal) : ∃ zeros : Nat,
    (trim decimal).digits * tenTo zeros = decimal.digits ∧
      (trim decimal).exponent = decimal.exponent + zeros := by
  fun_induction trim decimal with
  | case1 => exact ⟨0, Nat.mul_one _, (Int.add_zero _).symm⟩
  | case2 decimal nonzero ends ih =>
      obtain ⟨zeros, digits, exponent⟩ := ih
      refine ⟨zeros + 1, ?_, ?_⟩
      · have ten : tenTo 1 = 10 := rfl
        rw [tenTo_add, ten, ← Nat.mul_assoc, digits]
        dsimp only
        omega
      · rw [exponent]
        push_cast
        ring
  | case3 => exact ⟨0, Nat.mul_one _, (Int.add_zero _).symm⟩

section Digits
variable {number : Binary64}

/-- The first digit of a number counts at least one. -/
theorem tenTo_digitCount {whole : Nat} (several : tenTo 16 ≤ whole) :
    17 ≤ digitCount whole ∧ tenTo (digitCount whole - 1) ≤ whole := by
  have long : 17 ≤ digitCount whole := by
    by_contra short
    have few : digitCount whole ≤ 16 := by omega
    have small := (Nat.length_toDigits_le_iff (by decide) (by decide)).mp few
    exact absurd small (Nat.not_lt.mpr several)
  refine ⟨long, ?_⟩
  by_contra small
  have positive : 0 < digitCount whole - 1 := by omega
  have fewer := (Nat.length_toDigits_le_iff (by decide) positive).mpr (Nat.not_le.mp small)
  rw [← digitCount] at fewer
  omega

/-- Some decimal of 17 digits is read as a number, since the rounding interval is wider than one
unit in the last of so many places. -/
theorem seventeen_digits (some : number.significand ≠ 0) :
    let whole := digitCount ((roundingInterval number).value / twoTo (precision + 2))
    ((roundingInterval number).nearestMultiple?
      (twoTo (precision + 2) * tenTo (whole - 17))).isSome = true := by
  intro whole
  have positive := twoTo_pos (precision + 2)
  have value : (roundingInterval number).value = 4 * (number.significand * unit number) :=
    Nat.mul_assoc _ _ _
  have atLeast : 4 * tenTo places ≤ (roundingInterval number).value := by
    have least : 1 * unit number ≤ number.significand * unit number :=
      Nat.mul_le_mul_right _ (by omega)
    have more := unit_ge number
    omega
  have enough : tenTo 16 * twoTo (precision + 2) ≤ 4 * tenTo places := by decide +kernel
  obtain ⟨long, first⟩ := tenTo_digitCount
    ((Nat.le_div_iff_mul_le positive).mpr (Nat.le_trans enough atLeast))
  have short : twoTo (precision + 2) * tenTo (whole - 17) * tenTo 16 ≤
      (roundingInterval number).value := by
    have last : whole - 17 + 16 = whole - 1 := by omega
    rw [Nat.mul_assoc, ← tenTo_add, last, Nat.mul_comm, ← Nat.le_div_iff_mul_le positive]
    exact first
  exact Interval.nearestMultiple?_isSome (Nat.mul_pos positive (tenTo_pos _))
    (Nat.le_of_lt (roundingInterval_low some)) (roundingInterval_high number)
    (roundingInterval_wide some short)

/-- The decimal that is found is a multiple of some power of ten in the rounding interval. -/
theorem shortest_found (some : number.significand ≠ 0) : ∃ digits place : Nat,
    shortest number = trim ⟨digits, (place : Int) - places⟩ ∧
      (roundingInterval number).nearestMultiple? (twoTo (precision + 2) * tenTo place) =
        .some digits := by
  unfold shortest
  dsimp only
  generalize found : List.findSome? _ (List.range 17) = result
  cases result with
  | none =>
      have missing := List.findSome?_eq_none_iff.mp found 16 (by decide)
      exact absurd (Option.map_eq_none_iff.mp missing)
        (Option.isSome_iff_ne_none.mp (seventeen_digits some))
  | some decimal =>
      obtain ⟨count, _, candidate⟩ := List.exists_of_findSome?_eq_some found
      obtain ⟨digits, multiple, rfl⟩ := Option.map_eq_some_iff.mp candidate
      exact ⟨digits, _, rfl, multiple⟩

/-- The decimal that is found for a number is rounded to it. -/
theorem shortest_nearest (counts : number.Counts) (some : number.significand ≠ 0) :
    ∃ power : Nat, (shortest number).exponent = (power : Int) - places ∧
      nearest ((shortest number).digits * tenTo power) (tenTo places) = number := by
  obtain ⟨digits, place, short, multiple⟩ := shortest_found some
  obtain ⟨zeros, trimmed, exponent⟩ := trim_value ⟨digits, (place : Int) - places⟩
  refine ⟨place + zeros, ?_, ?_⟩
  · rw [short, exponent]
    push_cast
    ring
  · apply nearest_of_contains counts
    have same : (shortest number).digits * tenTo (place + zeros) * twoTo (precision + 2) =
        digits * (twoTo (precision + 2) * tenTo place) := by
      have whole : digits = (shortest number).digits * tenTo zeros := by rw [short, trimmed]
      rw [whole, tenTo_add]
      ring
    rw [same]
    exact Interval.nearestMultiple?_contains multiple

end Digits

end Decimal

end Cpl
