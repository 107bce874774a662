import Cpl.Proofs.Lexeme.Longest

namespace Cpl

section Spellings
variable {kind other : TokenKind} {text : List Char}

/-- A text spells one token. -/
theorem Spelling.unique (spelling : Spelling kind text) (twin : Spelling other text) :
    kind = other := by
  have ended : Separated [] := by simp [Separated]
  have first := spelling.cutFirst (ended.apart kind) 0
  have second := twin.cutFirst (ended.apart other) 0
  rw [first] at second
  cases second
  rfl

/-- Words have no blanks in them. -/
theorem word_visible {letter : Char} {others : List Char} (isLetter : letter.isAlpha = true)
    (alphanumeric : ∀ character ∈ others, character.isAlphanum = true) :
    ∀ character ∈ letter :: others, isBlank character = false := by
  have first : letter.isAlphanum = true := by rw [Char.isAlphanum, isLetter, Bool.true_or]
  rw [List.forall_mem_cons]
  exact ⟨isBlank_alphanum first,
    fun character member => isBlank_alphanum (alphanumeric character member)⟩

/-- There are no blanks in the spelling of a token. -/
theorem Spelling.visible (spelling : Spelling kind text) :
    ∀ character ∈ text, isBlank character = false := by
  cases spelling with
  | keyword word =>
      obtain ⟨letter, others, spelled, isLetter, alphanumeric⟩ := word.spelling_letters
      rw [spelled]
      exact word_visible isLetter alphanumeric
  | identifier isLetter alphanumeric => exact word_visible isLetter alphanumeric
  | symbol mark => exact mark.isBlank_spelling
  | @integer value zeros _ =>
      exact fun character member => isBlank_digit (zeros_digits zeros value character member)
  | float _ _ digits =>
      obtain ⟨whole, fraction⟩ := List.forall_mem_append.mp digits
      rw [List.forall_mem_append, List.forall_mem_cons]
      exact ⟨fun character member => isBlank_digit (whole character member), by decide,
        fun character member => isBlank_digit (fraction character member)⟩

end Spellings

section Constants

/-- The text of a constant spells it. -/
def Literal.Spelled (constant : Literal) : Prop :=
  Spelling (.literal constant) constant.text.toList

/-- Each integer that is not negative has a spelling. -/
theorem integer_spelled {value : Nat} (fits : value ≤ 2147483647) :
    (Literal.integer (Int32.ofNat value)).Spelled := by
  have signed : (Int32.ofNat value).toInt = value := Int32.toInt_ofNat_of_lt (by omega)
  have shown : toString (value : Int) = toString value := rfl
  rw [Literal.Spelled, Literal.text, signed, shown, Nat.toString_eq_ofList_toDigits,
    String.toList_ofList]
  exact .integer 0 fits

/-- Each finite float that is not negative has a spelling. -/
theorem float_spelled {number : Binary64} (counts : number.Counts) :
    (Literal.float number).Spelled := by
  obtain ⟨numerator, denominator, positive, written, read⟩ := Binary64.plain_positional counts
  obtain ⟨whole, fraction, shown, wholeSome, fractionSome, digits, value⟩ := written
  have same := Binary64.nearest_ratio positive (tenTo_pos fraction.length) value.symm
  rw [Literal.Spelled, Literal.text, String.toList_ofList, shown]
  exact .float wholeSome fractionSome digits (read.symm.trans same) counts.isInfinite

end Constants

section Tokens

/-- The constants and names among tokens have texts that spell them. -/
def TokenKind.Spelled : TokenKind → Prop
  | .literal constant => constant.Spelled
  | .identifier name => Spelling (.identifier name) name.toList
  | _ => True

/-- A token that is spelled by a text has a spelling. -/
theorem Spelling.spelled {kind : TokenKind} {text : List Char} (spelling : Spelling kind text) :
    kind.Spelled := by
  cases spelling with
  | keyword | symbol => trivial
  | identifier isLetter alphanumeric free =>
      rw [TokenKind.Spelled, String.toList_ofList]
      exact .identifier isLetter alphanumeric free
  | integer _ fits => exact integer_spelled fits
  | float _ _ _ nearest finite =>
      subst nearest
      exact float_spelled (Binary64.nearest_counts finite)

/-- Each constant and each name among the tokens of a source has a text that spells it. -/
theorem tokens_spelled {source : String} {found : List Token} (cut : tokens source = .ok found) :
    ∀ token ∈ found, token.kind.Spelled := by
  intro token member
  obtain ⟨text, back, _, isCut⟩ := tokens_occurs cut token member
  exact isCut.spelling.spelled

end Tokens

end Cpl
