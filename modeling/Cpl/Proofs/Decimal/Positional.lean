import Cpl.Decimal.Layout
import Cpl.Proofs.Decimal.Shortest

namespace Cpl

/-- Digits around a point that stand for a ratio. -/
def Positional (text : List Char) (numerator denominator : Nat) : Prop :=
  ∃ whole fraction, text = whole ++ '.' :: fraction ∧ whole ≠ [] ∧ fraction ≠ [] ∧
    (∀ character ∈ whole ++ fraction, character.isDigit = true) ∧
    Nat.ofDigitChars 10 (whole ++ fraction) 0 * denominator = numerator * tenTo fraction.length

/-- Digits around a point stand for the same value over a larger denominator. -/
theorem Positional.scale {text : List Char} {numerator denominator : Nat}
    (written : Positional text numerator denominator) (scale : Nat) :
    Positional text (numerator * scale) (denominator * scale) := by
  obtain ⟨whole, fraction, split, wholeSome, fractionSome, digits, value⟩ := written
  refine ⟨whole, fraction, split, wholeSome, fractionSome, digits, ?_⟩
  rw [← Nat.mul_assoc, value]
  ring

section Digits

/-- Zeros are digits. -/
theorem replicate_digits (count : Nat) :
    ∀ character ∈ List.replicate count '0', character.isDigit = true := by
  intro character member
  rw [List.eq_of_mem_replicate member]
  rfl

/-- The decimal digits of a number are digits. -/
theorem toDigits_digits (number : Nat) :
    ∀ character ∈ Nat.toDigits 10 number, character.isDigit = true :=
  fun _ member => Nat.isDigit_of_mem_toDigits (by decide) (by decide) member

/-- Zeros before the decimal digits of a number are digits. -/
theorem zeros_digits (zeros number : Nat) :
    ∀ character ∈ List.replicate zeros '0' ++ Nat.toDigits 10 number, character.isDigit = true :=
  List.forall_mem_append.mpr ⟨replicate_digits zeros, toDigits_digits number⟩

/-- A whole number, with zeros before the point and one after it. -/
theorem positional_zeros (number zeros : Nat) :
    Positional (Nat.toDigits 10 number ++ List.replicate zeros '0' ++ ['.', '0'])
      (number * tenTo zeros) 1 := by
  refine ⟨Nat.toDigits 10 number ++ List.replicate zeros '0', ['0'], rfl, ?_, List.cons_ne_nil _ _,
    ?_, ?_⟩
  · exact List.append_ne_nil_of_left_ne_nil Nat.toDigits_ne_nil _
  · have all := List.forall_mem_append.mpr ⟨toDigits_digits number, replicate_digits zeros⟩
    exact List.forall_mem_append.mpr ⟨all, replicate_digits 1⟩
  · have last : ['0'] = List.replicate 1 '0' := rfl
    have power : 10 ^ (zeros + 1) = tenTo zeros * tenTo 1 := Nat.pow_add 10 zeros 1
    rw [last, List.append_assoc, List.replicate_append_replicate, Nat.ofDigitChars_append,
      Nat.ofDigitChars_replicate_zero, Nat.ofDigitChars_ten_toDigits, List.length_replicate, power]
    ring

end Digits

namespace Decimal
open Binary64
variable {decimal : Decimal} {power : Nat} {whole fraction : List Char}

/-- The digits of a decimal around a point, perhaps with zeros before them. -/
theorem positional_fraction (zeros : Nat) (wholeSome : whole ≠ []) (fractionSome : fraction ≠ [])
    (split : whole ++ fraction = List.replicate zeros '0' ++ decimal.digitCharacters)
    (length : power + fraction.length = places) :
    Positional (whole ++ '.' :: fraction) (decimal.digits * tenTo power) (tenTo places) := by
  refine ⟨whole, fraction, rfl, wholeSome, fractionSome, ?_, ?_⟩
  · rw [split]
    exact zeros_digits zeros decimal.digits
  · rw [split, Nat.ofDigitChars_append, Nat.ofDigitChars_replicate_zero, Nat.mul_zero,
      digitCharacters, Nat.ofDigitChars_ten_toDigits, ← length, tenTo_add]
    ring

/-- A decimal that is written positionally has its value. -/
theorem positional_value (exponent : decimal.exponent = (power : Int) - places) :
    Positional decimal.positional (decimal.digits * tenTo power) (tenTo places) := by
  have some : 0 < decimal.digitCharacters.length := Nat.length_toDigits_pos
  have point : decimal.point = decimal.digitCharacters.length + ((power : Int) - places) := by
    rw [Decimal.point, exponent]
  unfold positional
  dsimp only
  split
  · have shifted : power = decimal.exponent.toNat + places := by omega
    have written := (positional_zeros decimal.digits decimal.exponent.toNat).scale (tenTo places)
    rw [Nat.one_mul, Nat.mul_assoc, ← tenTo_add, ← shifted] at written
    exact written
  · split
    · apply positional_fraction 0
      · rw [Ne, List.take_eq_nil_iff, not_or, ← List.length_eq_zero_iff]
        omega
      · rw [Ne, List.drop_eq_nil_iff]
        omega
      · exact List.take_append_drop _ _
      · rw [List.length_drop]
        omega
    · change Positional (['0'] ++ '.' ::
        (List.replicate (-decimal.point).toNat '0' ++ decimal.digitCharacters)) _ _
      apply positional_fraction ((-decimal.point).toNat + 1) (List.cons_ne_nil '0' [])
      · exact List.append_ne_nil_of_right_ne_nil _ (List.length_pos_iff.mp some)
      · rfl
      · rw [List.length_append, List.length_replicate]
        omega

end Decimal

namespace Binary64
variable {number : Binary64}

/-- A whole number is read back from its digits. -/
theorem nearest_whole (counts : number.Counts) (whole : number.multiple % twoTo precision = 0) :
    nearest (number.multiple / twoTo precision) 1 = number := by
  rw [nearest_ratio (by decide) (tenTo_pos Decimal.places)
    (show _ = number.multiple / twoTo precision * tenTo Decimal.places * 1 by rw [Nat.mul_one])]
  apply Decimal.nearest_of_contains counts
  have exact := Nat.div_mul_cancel (Nat.dvd_of_mod_eq_zero whole)
  have four : twoTo 2 = 4 := rfl
  have value : number.multiple / twoTo precision * tenTo Decimal.places * twoTo (precision + 2) =
      (Decimal.roundingInterval number).value := by
    calc number.multiple / twoTo precision * tenTo Decimal.places * twoTo (precision + 2)
      _ = 4 * (number.multiple / twoTo precision * twoTo precision) * tenTo Decimal.places := by
          rw [twoTo_add, four]
          ring
      _ = 4 * number.significand * Decimal.unit number := by
          rw [exact, multiple, Decimal.unit]
          ring
  rw [value]
  exact Decimal.roundingInterval_value number

/-- A number that counts is written without a sign. -/
theorem Counts.signed (counts : number.Counts) (finite : Binary64 → List Char) :
    number.signed finite = finite number := by
  have isCounted : number.magnitude < infinityBits := counts.magnitude ▸ counts
  have notNaN : ¬number.isNaN := by
    rw [isNaN, decide_eq_true_eq]
    omega
  have notInfinite : ¬number.isInfinite := by rw [counts.isInfinite]; decide
  have notNegative : ¬number.negative := by
    have limit : infinityBits < twoTo 63 := by decide
    have below : number.bits.toNat < infinityBits := counts
    rw [negative, decide_eq_true_eq]
    omega
  rw [Binary64.signed, if_neg notNaN, if_neg notInfinite, if_neg notNegative]

/-- The text of a finite number is digits around one point, and the value of the digits is rounded
to the number. -/
theorem plain_positional (counts : number.Counts) : ∃ numerator denominator, 0 < denominator ∧
    Positional number.plain numerator denominator ∧ nearest numerator denominator = number := by
  rw [plain, counts.signed]
  split
  · rename_i whole
    have written := positional_zeros (number.multiple / twoTo precision) 0
    have power : tenTo 0 = 1 := rfl
    rw [List.replicate_zero, List.append_nil, power, Nat.mul_one] at written
    exact ⟨_, 1, by decide, written, nearest_whole counts whole⟩
  · rename_i broken
    have some : number.significand ≠ 0 := by
      intro zero
      rw [multiple, zero, Nat.zero_mul, Nat.zero_mod] at broken
      exact broken rfl
    obtain ⟨power, exponent, read⟩ := Decimal.shortest_nearest counts some
    exact ⟨_, _, tenTo_pos _, Decimal.positional_value exponent, read⟩

end Binary64

end Cpl
