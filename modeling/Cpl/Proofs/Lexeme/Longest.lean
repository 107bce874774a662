import Cpl.Proofs.Lexeme.Cover
import Cpl.Proofs.Lexeme.Spelling
import Mathlib.Data.List.Induction

namespace Cpl

section Digits
variable {character : Char} {digits : List Char}

/-- A digit is the text of its value. -/
theorem toDigits_digit (digit : character.isDigit = true) :
    character.toNat - '0'.toNat < 10 ∧
      Nat.toDigits 10 (character.toNat - '0'.toNat) = [character] := by
  delta Char.isDigit at digit
  simp [UInt32.le_iff_toNat_le] at digit
  have small : character.toNat - '0'.toNat < 10 := by
    simp
    omega
  refine ⟨small, ?_⟩
  rw [Nat.toDigits_of_lt_base small, List.cons.injEq, ← Char.toNat_inj,
    Nat.toNat_digitChar_of_lt_ten small]
  simp
  omega

/-- Digits are the text of their value, after zeros. -/
theorem digits_zeros (some : digits ≠ [])
    (all : ∀ character ∈ digits, character.isDigit = true) :
    ∃ zeros, digits =
      List.replicate zeros '0' ++ Nat.toDigits 10 (Nat.ofDigitChars 10 digits 0) := by
  induction digits using List.reverseRecOn with
  | nil => contradiction
  | append_singleton front last ih =>
      obtain ⟨earlier, isDigit⟩ := List.forall_mem_append.mp all
      obtain ⟨small, shown⟩ := toDigits_digit (isDigit last List.mem_cons_self)
      rw [Nat.ofDigitChars_append, Nat.ofDigitChars_cons, Nat.ofDigitChars_nil]
      by_cases single : front = []
      · subst single
        exact ⟨0, by simpa using shown.symm⟩
      · obtain ⟨zeros, whole⟩ := ih single earlier
        generalize Nat.ofDigitChars 10 front 0 = value at whole
        subst whole
        by_cases zero : value = 0
        · subst zero
          refine ⟨zeros + 1, ?_⟩
          rw [Nat.mul_zero, Nat.zero_add, shown, Nat.toDigits_zero, List.replicate_succ']
        · refine ⟨zeros, ?_⟩
          rw [← Nat.toDigits_append_toDigits (by decide) (Nat.pos_of_ne_zero zero) small, shown,
            List.append_assoc]

end Digits

namespace Piece
variable {kind : TokenKind} {source digits whole fraction : List Char}

/-- Digits that are read as an integer spell it. -/
theorem integerReading_spelling (some : digits ≠ [])
    (all : ∀ character ∈ digits, character.isDigit = true)
    (read : integerReading digits = .ok kind) : Spelling kind digits := by
  unfold integerReading at read
  dsimp only at read
  split at read
  · rename_i fits
    cases read
    obtain ⟨zeros, written⟩ := digits_zeros some all
    have spelling := Spelling.integer zeros fits
    rw [← written] at spelling
    exact spelling
  · cases read

/-- Digits around a point that are read as a float spell it. -/
theorem floatReading_spelling (wholeSome : whole ≠ []) (fractionSome : fraction ≠ [])
    (all : ∀ character ∈ whole ++ fraction, character.isDigit = true)
    (read : floatReading whole fraction = .ok kind) : Spelling kind (whole ++ '.' :: fraction) := by
  unfold floatReading at read
  dsimp only at read
  split at read
  · cases read
  · rename_i finite
    cases read
    exact .float wholeSome fractionSome all rfl (by simpa using finite)

theorem takeWhile_digits (source : List Char) :
    ∀ character ∈ source.takeWhile Char.isDigit, character.isDigit = true :=
  fun _ member => List.mem_takeWhile_imp member

/-- A number that is read is spelled by its text. -/
theorem number_spelling {digit : Char} (isDigit : digit.isDigit = true)
    (read : (number (digit :: source)).reading = .ok kind) :
    Spelling kind (number (digit :: source)).text := by
  have some : (digit :: source).takeWhile Char.isDigit ≠ [] := by
    rw [List.takeWhile_cons_of_pos isDigit]
    exact List.cons_ne_nil _ _
  obtain ⟨_, integer⟩ | ⟨after, _, fractionSome, float⟩ := number_cases (digit :: source)
  · rw [integer] at read ⊢
    exact integerReading_spelling some (takeWhile_digits _) read
  · rw [float] at read ⊢
    exact floatReading_spelling some fractionSome
      (List.forall_mem_append.mpr ⟨takeWhile_digits _, takeWhile_digits _⟩) read

/-- A letter with letters and digits after it spells a keyword or a name. -/
theorem word_spelling {letter : Char} {others : List Char} (isLetter : letter.isAlpha = true)
    (alphanumeric : ∀ character ∈ others, character.isAlphanum = true) :
    Spelling (.ofWord (String.ofList (letter :: others))) (letter :: others) := by
  rw [TokenKind.ofWord]
  cases found : Keyword.ofWord? (String.ofList (letter :: others)) with
  | some word =>
      rw [Keyword.ofWord?] at found
      have spelled : word.spelling = String.ofList (letter :: others) := by
        simpa using List.find?_some found
      have spelling := Spelling.keyword word
      rw [spelled, String.toList_ofList] at spelling
      exact spelling
  | none =>
      rw [Keyword.ofWord?, List.find?_eq_none] at found
      apply Spelling.identifier isLetter alphanumeric
      intro word same
      apply found word (by cases word <;> decide)
      rw [decide_eq_true_eq, ← same, String.ofList_toList]

/-- A piece that is read as a token spells it. -/
theorem first_spelling {character : Char} (read : (first character source).reading = .ok kind) :
    Spelling kind (first character source).text := by
  rw [first] at read ⊢
  split at read
  next isLetter =>
    have alphanumeric : character.isAlphanum = true := by
      rw [Char.isAlphanum, isLetter, Bool.true_or]
    rw [if_pos isLetter]
    cases read
    rw [word, List.takeWhile_cons_of_pos alphanumeric]
    exact word_spelling isLetter fun _ member => List.mem_takeWhile_imp member
  next noLetter =>
    rw [if_neg noLetter]
    split at read
    next symbol found =>
      cases read
      exact .symbol symbol
    next =>
      split at read
      next isDigit =>
        rw [if_pos isDigit]
        exact number_spelling isDigit read
      next => cases read

end Piece

section Shapes
variable {kind : TokenKind} {character : Char} {more : List Char}

/-- What starts with a letter goes on with letters and digits. -/
theorem Spelling.alphanum (spelling : Spelling kind (character :: more))
    (isLetter : character.isAlpha = true) : ∀ inside ∈ more, inside.isAlphanum = true := by
  generalize whole : character :: more = text at spelling
  cases spelling with
  | keyword word =>
      obtain ⟨letter, others, spelled, _, alphanumeric⟩ := word.spelling_letters
      obtain ⟨_, rfl⟩ := List.cons.inj (whole.trans spelled)
      exact alphanumeric
  | identifier _ alphanumeric =>
      obtain ⟨_, rfl⟩ := List.cons.inj whole
      exact alphanumeric
  | symbol mark =>
      obtain ⟨start, others, spelled, noLetter, _⟩ := mark.spelling_head
      obtain ⟨rfl, _⟩ := List.cons.inj (whole.trans spelled)
      cases isLetter.symm.trans noLetter
  | @integer value zeros =>
      have isDigit := zeros_digits zeros value character (by rw [← whole]; exact List.mem_cons_self)
      cases isLetter.symm.trans (isAlpha_digit isDigit)
  | @float digits _ some _ all =>
      obtain ⟨digit, others, rfl⟩ := List.exists_cons_of_ne_nil some
      obtain ⟨rfl, _⟩ := List.cons.inj whole
      cases isLetter.symm.trans (isAlpha_digit (all character List.mem_cons_self))

/-- What starts with a digit goes on with digits, and perhaps a point and more digits. -/
theorem Spelling.digits (spelling : Spelling kind (character :: more))
    (isDigit : character.isDigit = true) :
    (∀ inside ∈ more, inside.isDigit = true) ∨
      ∃ whole fraction, character :: more = whole ++ '.' :: fraction ∧ fraction ≠ [] ∧
        ∀ inside ∈ whole ++ fraction, inside.isDigit = true := by
  generalize whole : character :: more = text at spelling
  cases spelling with
  | keyword word =>
      obtain ⟨letter, others, spelled, isLetter, _⟩ := word.spelling_letters
      obtain ⟨rfl, _⟩ := List.cons.inj (whole.trans spelled)
      cases isLetter.symm.trans (isAlpha_digit isDigit)
  | identifier isLetter =>
      obtain ⟨rfl, _⟩ := List.cons.inj whole
      cases isLetter.symm.trans (isAlpha_digit isDigit)
  | symbol mark =>
      obtain ⟨start, others, spelled, _, noDigit, _⟩ := mark.spelling_head
      obtain ⟨rfl, _⟩ := List.cons.inj (whole.trans spelled)
      cases isDigit.symm.trans noDigit
  | @integer value zeros =>
      have all := zeros_digits zeros value
      rw [← whole] at all
      exact .inl (List.forall_mem_cons.mp all).2
  | float _ fractionSome all => exact .inr ⟨_, _, rfl, fractionSome, all⟩

/-- What starts with neither is a symbol. -/
theorem Spelling.mark (spelling : Spelling kind (character :: more))
    (noLetter : character.isAlpha = false) (noDigit : character.isDigit = false) :
    ∃ mark : Symbol, character :: more = mark.spelling := by
  generalize whole : character :: more = text at spelling
  cases spelling with
  | keyword word =>
      obtain ⟨letter, others, spelled, isLetter, _⟩ := word.spelling_letters
      obtain ⟨rfl, _⟩ := List.cons.inj (whole.trans spelled)
      cases isLetter.symm.trans noLetter
  | identifier isLetter =>
      obtain ⟨rfl, _⟩ := List.cons.inj whole
      cases isLetter.symm.trans noLetter
  | symbol mark => exact ⟨mark, rfl⟩
  | @integer value zeros =>
      have isDigit := zeros_digits zeros value character (by rw [← whole]; exact List.mem_cons_self)
      cases isDigit.symm.trans noDigit
  | @float digits _ some _ all =>
      obtain ⟨digit, others, rfl⟩ := List.exists_cons_of_ne_nil some
      obtain ⟨rfl, _⟩ := List.cons.inj whole
      cases (all character List.mem_cons_self).symm.trans noDigit

end Shapes

namespace Symbol

/-- A symbol of two characters is found before the one that it starts with. -/
theorem first?_double {mark : Symbol} (double : 1 < mark.spelling.length) (rest : List Char) :
    first? (mark.spelling ++ rest) = some mark := by
  cases mark with
  | eq | neq | lte | gte | or | and => rfl
  | _ => exact absurd double (by decide)

/-- No symbol at the start of a source is longer than the one that is found there. -/
theorem first?_longest {symbol mark : Symbol} {source : List Char}
    (found : first? source = some symbol) (spelled : mark.spelling <+: source) :
    mark.spelling.length ≤ symbol.spelling.length := by
  by_cases double : 1 < mark.spelling.length
  · obtain ⟨rest, rfl⟩ := spelled
    rw [first?_double double, Option.some.injEq] at found
    rw [found]
  · have positive : 0 < symbol.spelling.length := by cases symbol <;> decide
    omega

/-- No symbol stands where none is found. -/
theorem first?_none {mark : Symbol} {source : List Char} (missing : first? source = none) :
    ¬mark.spelling <+: source := by
  rw [first?, List.find?_eq_none] at missing
  have absent := missing mark (by cases mark <;> decide)
  rwa [List.isPrefixOf_iff_prefix] at absent

end Symbol

/-- A run of characters ends where the condition fails. -/
theorem dropWhile_ends (condition : Char → Bool) (source : List Char) :
    ∀ character ∈ (source.dropWhile condition).head?, condition character = false := by
  intro character first
  have stopped := List.head?_dropWhile_not condition source
  rwa [Option.mem_def.mp first] at stopped

/-- No longer text from the same place spells a token. -/
def Longest (text back : List Char) : Prop :=
  ∀ more, more ≠ [] → more <+: back → ∀ kind, ¬Spelling kind (text ++ more)

/-- A text is the longest if no text that goes on with the next character spells anything. -/
theorem longest_iff {text back : List Char} :
    Longest text back ↔ ∀ next more, next :: more <+: back →
      ∀ kind, ¬Spelling kind (text ++ next :: more) := by
  constructor
  · exact fun longest next more => longest (next :: more) (List.cons_ne_nil _ _)
  · intro longest more some
    obtain ⟨next, later, rfl⟩ := List.exists_cons_of_ne_nil some
    exact longest next later

/-- A text is divided in one way at the first character that does not meet a condition. -/
theorem takeWhile_unique {condition : Char → Bool} {first second rest back : List Char}
    (same : first ++ rest = second ++ back)
    (all : ∀ character ∈ first, condition character = true)
    (ends : ∀ character ∈ rest.head?, condition character = false)
    (allOther : ∀ character ∈ second, condition character = true)
    (endsOther : ∀ character ∈ back.head?, condition character = false) :
    first = second ∧ rest = back := by
  have one := takeWhile_dropWhile_append all ends
  have other := takeWhile_dropWhile_append allOther endsOther
  rw [same, other.1, other.2] at one
  exact ⟨one.1.symm, one.2.symm⟩

/-- Digits of a number that is too large, with no digit after them, and no point and digit. -/
structure Overlong (text back : List Char) : Prop where
  nonempty : text ≠ []
  digits : ∀ character ∈ text, character.isDigit = true
  ends : ∀ character ∈ back.head?, character.isDigit = false
  unpointed : ∀ digit more, back = '.' :: digit :: more → digit.isDigit = false
  large : 2147483647 < Nat.ofDigitChars 10 text 0

namespace Piece
variable {digit : Char} {others fraction back : List Char}

/-- A point is no digit. -/
theorem point_ends (rest : List Char) :
    ∀ character ∈ ('.' :: rest).head?, character.isDigit = false := by
  simp

/-- Digits are the longest text at their place if no point and digit follow them. -/
theorem digits_longest (all : ∀ character ∈ digit :: others, character.isDigit = true)
    (ends : ∀ character ∈ back.head?, character.isDigit = false)
    (unpointed : ∀ after, back = '.' :: after → after.takeWhile Char.isDigit = []) :
    Longest (digit :: others) back := by
  rw [longest_iff]
  intro next more inside kind spelling
  obtain ⟨rest, rfl⟩ := inside
  have noDigit : next.isDigit = false := ends next rfl
  rcases spelling.digits (all digit List.mem_cons_self) with digits | pointed
  · have isDigit := digits next (List.mem_append_right _ List.mem_cons_self)
    cases isDigit.symm.trans noDigit
  · obtain ⟨whole, fraction, split, some, digits⟩ := pointed
    obtain ⟨wholeDigits, fractionDigits⟩ := List.forall_mem_append.mp digits
    have stop : ∀ character ∈ (next :: more).head?, character.isDigit = false := ends
    obtain ⟨_, later⟩ := takeWhile_unique split all stop wholeDigits (point_ends fraction)
    obtain ⟨rfl, rfl⟩ := List.cons.inj later
    have missing := unpointed (more ++ rest) rfl
    rw [List.takeWhile_append_of_pos fractionDigits, List.append_eq_nil_iff] at missing
    exact some missing.1

/-- Digits, a point and digits are the longest text at their place if no digit follows. -/
theorem pointed_longest
    (all : ∀ character ∈ digit :: others ++ fraction, character.isDigit = true)
    (ends : ∀ character ∈ back.head?, character.isDigit = false) :
    Longest (digit :: others ++ '.' :: fraction) back := by
  rw [longest_iff]
  intro next more inside kind spelling
  obtain ⟨rest, rfl⟩ := inside
  obtain ⟨wholeDigits, _⟩ := List.forall_mem_append.mp all
  rw [List.append_assoc, List.cons_append] at spelling
  rcases spelling.digits (all digit List.mem_cons_self) with digits | pointed
  · have isDigit := digits '.' (by simp)
    cases isDigit
  · obtain ⟨whole, later, split, _, digits⟩ := pointed
    obtain ⟨otherDigits, laterDigits⟩ := List.forall_mem_append.mp digits
    rw [← List.cons_append] at split
    obtain ⟨_, same⟩ := takeWhile_unique split wholeDigits (point_ends _) otherDigits
      (point_ends later)
    obtain ⟨_, rfl⟩ := List.cons.inj same
    have isDigit := laterDigits next (by simp)
    cases isDigit.symm.trans (ends next rfl)

/-- A number is cut off as late as possible. -/
theorem number_longest {source : List Char} (isDigit : digit.isDigit = true) :
    Longest (number (digit :: source)).text (number (digit :: source)).rest := by
  have start : (digit :: source).takeWhile Char.isDigit =
      digit :: source.takeWhile Char.isDigit := List.takeWhile_cons_of_pos isDigit
  have digits := takeWhile_digits (digit :: source)
  rcases number_cases (digit :: source) with ⟨unpointed, integer⟩ | ⟨after, _, _, float⟩
  · rw [integer]
    dsimp only
    rw [start] at digits ⊢
    exact digits_longest digits (dropWhile_ends _ _) unpointed
  · rw [float]
    dsimp only
    rw [start] at digits ⊢
    exact pointed_longest (List.forall_mem_append.mpr ⟨digits, takeWhile_digits after⟩)
      (dropWhile_ends _ _)

/-- A word is cut off as late as possible. -/
theorem word_longest {letter : Char} {source : List Char} (isLetter : letter.isAlpha = true) :
    Longest (word (letter :: source)).text (word (letter :: source)).rest := by
  have alphanumeric : letter.isAlphanum = true := by rw [Char.isAlphanum, isLetter, Bool.true_or]
  have ends := dropWhile_ends Char.isAlphanum (letter :: source)
  rw [longest_iff, word]
  dsimp only
  rw [List.takeWhile_cons_of_pos alphanumeric]
  intro next more inside kind spelling
  have goesOn := spelling.alphanum isLetter next (List.mem_append_right _ List.mem_cons_self)
  obtain ⟨rest, split⟩ := inside
  rw [← split] at ends
  cases goesOn.symm.trans (ends next rfl)

/-- A symbol is cut off as late as possible. -/
theorem symbol_longest {symbol : Symbol} {source : List Char}
    (found : Symbol.first? source = some symbol) :
    Longest symbol.spelling (source.drop symbol.spelling.length) := by
  intro more some inside kind spelling
  obtain ⟨start, others, spelled, noLetter, noDigit, _⟩ := symbol.spelling_head
  rw [spelled, List.cons_append] at spelling
  obtain ⟨mark, same⟩ := spelling.mark noLetter noDigit
  rw [← List.cons_append, ← spelled] at same
  have isPrefix : mark.spelling <+: source := by
    rw [← same, ← List.prefix_iff_eq_append.mp (Symbol.first?_isPrefix found)]
    exact (List.prefix_append_right_inj _).mpr inside
  have short := Symbol.first?_longest found isPrefix
  have positive := List.length_pos_iff.mpr some
  rw [← same, List.length_append] at short
  omega

/-- Nothing longer is spelled from an unknown character on. -/
theorem unknown_longest {character : Char} {source : List Char}
    (missing : Symbol.first? (character :: source) = none) (noLetter : character.isAlpha = false)
    (noDigit : character.isDigit = false) : Longest [character] source := by
  intro more _ inside kind spelling
  rw [List.singleton_append] at spelling
  obtain ⟨mark, same⟩ := spelling.mark noLetter noDigit
  apply Symbol.first?_none missing
  rw [← same, List.prefix_cons_inj]
  exact inside

/-- A piece is the longest text at its place. -/
theorem first_longest (character : Char) (source : List Char) :
    Longest (first character source).text (first character source).rest := by
  rw [first]
  split
  next isLetter => exact word_longest isLetter
  next noLetter =>
    split
    next symbol found => exact symbol_longest found
    next missing =>
      split
      next isDigit => exact number_longest isDigit
      next noDigit =>
        exact unknown_longest missing (by simpa using noLetter) (by simpa using noDigit)

/-- An integer that is too large is all of its digits. -/
theorem number_integerTooLarge {source : List Char} (isDigit : digit.isDigit = true)
    (fault : (number (digit :: source)).reading = .error .integerTooLarge) :
    Overlong (number (digit :: source)).text (number (digit :: source)).rest := by
  have nonempty := number_nonempty source isDigit
  rcases number_cases (digit :: source) with ⟨unpointed, integer⟩ | ⟨after, _, _, float⟩
  · rw [integer] at fault nonempty ⊢
    refine ⟨nonempty, takeWhile_digits _, dropWhile_ends _ _, ?_, ?_⟩
    · intro next more pointed
      have missing := unpointed (next :: more) pointed
      by_contra goesOn
      rw [List.takeWhile_cons_of_pos (by simpa using goesOn)] at missing
      cases missing
    · simp only [integerReading] at fault
      split at fault
      · cases fault
      · rename_i large
        exact Nat.lt_of_not_le large
  · rw [float] at fault
    simp only [floatReading] at fault
    split at fault <;> cases fault

/-- The first piece is all digits of an integer if it is one that is too large. -/
theorem first_integerTooLarge {character : Char} {source : List Char}
    (fault : (first character source).reading = .error .integerTooLarge) :
    Overlong (first character source).text (first character source).rest := by
  rw [first] at fault ⊢
  split at fault
  · cases fault
  next noLetter =>
    rw [if_neg noLetter]
    split at fault
    · cases fault
    · split at fault
      next isDigit =>
        rw [if_pos isDigit]
        exact number_integerTooLarge isDigit fault
      · cases fault

end Piece

section Cuts
variable {text back : List Char} {kind : TokenKind}

/-- A text that is cut spells its token. -/
theorem Cut.spelling (cut : Cut text back (.ok kind)) : Spelling kind text := by
  generalize same : Except.ok kind = reading at cut
  cases cut with
  | piece => exact Piece.first_spelling same.symm
  | comment => cases same

/-- A text that is cut as a token is the longest. -/
theorem Cut.longest (cut : Cut text back (.ok kind)) : Longest text back := by
  generalize same : Except.ok kind = reading at cut
  cases cut with
  | piece => exact Piece.first_longest _ _
  | comment => cases same

/-- A text that is cut as too large an integer is all of its digits. -/
theorem Cut.overlong (cut : Cut text back (.error .integerTooLarge)) :
    Overlong text back := by
  generalize same : Except.error LexicalCause.integerTooLarge = reading at cut
  cases cut with
  | piece => exact Piece.first_integerTooLarge same.symm
  | comment => cases same

end Cuts

section Neighbours
variable {before source : List Char}

/-- There is no digit on both sides. -/
def Parted (before after : List Char) : Prop :=
  ∀ last ∈ before.getLast?, last.isDigit = true → ∀ next ∈ after.head?, next.isDigit = false

/-- The last of two texts ends them, unless it is empty. -/
theorem getLast?_append_or {first second : List Char} {last : Char}
    (isLast : last ∈ (first ++ second).getLast?) :
    last ∈ second.getLast? ∨ second = [] ∧ last ∈ first.getLast? := by
  rw [List.getLast?_append, Option.mem_def, Option.or_eq_some_iff, List.getLast?_eq_none_iff]
    at isLast
  exact isLast

/-- Filler does not end with a digit. -/
theorem Filler.lastChar {gap : List Char} (filler : Filler gap) :
    ∀ last ∈ gap.getLast?, last.isDigit = false := by
  induction filler with
  | nil => simp
  | @blank character rest blank _ ih =>
      rw [← List.singleton_append]
      intro last isLast
      rcases getLast?_append_or isLast with later | ⟨_, here⟩
      · exact ih last later
      · cases here
        by_contra isDigit
        cases blank.symm.trans (isBlank_digit (by simpa using isDigit))
  | @comment body rest _ _ ih =>
      intro last isLast
      rcases getLast?_append_or isLast with later | ⟨_, here⟩
      · exact ih last later
      · have closing : (Cpl.comment body).getLast? = some '/' := by
          simp [Cpl.comment, List.getLast?_cons]
        rw [closing] at here
        cases here
        decide

/-- No digits meet across filler. -/
theorem parted_filler {gap : List Char} (parted : Parted before (gap ++ source))
    (filler : Filler gap) : Parted (before ++ gap) source := by
  intro last isLast isDigit
  rcases getLast?_append_or isLast with later | ⟨rfl, here⟩
  · cases isDigit.symm.trans (filler.lastChar last later)
  · exact parted last here isDigit

/-- Whether digits meet depends on the last text before them alone. -/
theorem parted_append {text : List Char} (nonempty : text ≠ []) (parted : Parted text source)
    (before : List Char) : Parted (before ++ text) source := by
  intro last isLast
  rcases getLast?_append_or isLast with later | ⟨empty, _⟩
  · exact parted last later
  · contradiction

/-- Symbols do not end with digits. -/
theorem symbol_last (symbol : Symbol) :
    ∀ last ∈ symbol.spelling.getLast?, last.isDigit = false := by
  cases symbol <;> simp [Symbol.spelling]

/-- A piece that ends with a digit takes all digits. -/
theorem Piece.first_parted (character : Char) (source : List Char) :
    Parted (first character source).text (first character source).rest := by
  rw [first]
  split
  next =>
    intro _ _ _ next isNext
    have stopped := dropWhile_ends Char.isAlphanum (character :: source) next isNext
    rw [Char.isAlphanum, Bool.or_eq_false_iff] at stopped
    exact stopped.2
  next =>
    split
    next symbol _ =>
      intro last isLast isDigit
      cases isDigit.symm.trans (symbol_last symbol last isLast)
    next =>
      split
      next =>
        intro _ _ _
        rcases number_cases (character :: source) with ⟨_, whole⟩ | ⟨after, _, _, whole⟩
        · rw [whole]
          exact dropWhile_ends _ _
        · rw [whole]
          exact dropWhile_ends _ _
      next noDigit =>
        intro last isLast isDigit
        cases isLast
        exact absurd isDigit noDigit

/-- Each lexeme starts where no digit is divided from another. -/
theorem Layout.parted {position : Nat} {found : List Lexeme} (layout : Layout position source found)
    (parted : Parted before source) : ∀ lexeme ∈ found, ∃ front rest, source = front ++ rest ∧
      lexeme.span.start = position + byteLength front ∧ Parted (before ++ front) rest := by
  induction layout generalizing before with
  | nil => simp
  | @filler position gap rest found filler _ ih =>
      intro lexeme member
      obtain ⟨front, later, rfl, start, apart⟩ := ih (parted_filler parted filler) lexeme member
      refine ⟨gap ++ front, later, (List.append_assoc _ _ _).symm, ?_, ?_⟩
      · rw [start, byteLength_append, Nat.add_assoc]
      · rwa [← List.append_assoc]
  | @piece position character source found _ _ ih =>
      have split := Piece.first_split character source
      have apart := parted_append (Piece.first_nonempty character source)
        (Piece.first_parted character source) before
      intro lexeme member
      rcases List.mem_cons.mp member with rfl | member
      · refine ⟨[], character :: source, rfl, ?_, by rwa [List.append_nil]⟩
        rw [Lexeme.ofPiece_span]
        rfl
      · obtain ⟨front, later, whole, start, apart⟩ := ih apart lexeme member
        refine ⟨(Piece.first character source).text ++ front, later, ?_, ?_, ?_⟩
        · rw [← split, whole, List.append_assoc]
        · rw [start, byteLength_append, Nat.add_assoc]
        · rwa [← List.append_assoc]
  | @comment position body _ =>
      intro lexeme member
      cases List.mem_singleton.mp member
      exact ⟨[], _, rfl, rfl, by rwa [List.append_nil]⟩

end Neighbours

/-- No fault starts between two digits. -/
theorem errors_parted {source : String} {errors : List LexicalError}
    (cut : tokens source = .error errors) : ∀ error ∈ errors, ∀ {front rest : List Char},
      source.toList = front ++ rest → error.span.start = byteLength front → Parted front rest := by
  intro error member front rest whole start
  obtain ⟨rfl, _⟩ := tokens_error.mp cut
  obtain ⟨lexeme, isFound, isFault⟩ := List.mem_filterMap.mp member
  rw [Lexeme.error?_some] at isFault
  subst isFault
  have alone : Parted [] source.toList := by simp [Parted]
  obtain ⟨other, later, split, place, parted⟩ :=
    (scan_layout 0 source.toList).parted alone _ isFound
  have same : byteLength front = byteLength other := by
    rw [← start, ← Nat.zero_add (byteLength other)]
    exact place
  obtain ⟨rfl, rfl⟩ := byteLength_unique (whole.symm.trans split) same
  exact parted

/-- No longer range from the same place holds the spelling of a token. -/
theorem Occurs.longest {source text back longer : List Char} {span : Span} {stop : Nat}
    (occurs : Occurs 0 source span text back) (longest : Longest text back)
    (after : span.stop < stop)
    (sliced : Span.slice? ⟨span.start, stop⟩ source = some longer) :
    ∀ kind, ¬Spelling kind longer := by
  obtain ⟨front, whole, rfl⟩ := occurs
  obtain ⟨before, later, split, place⟩ := Span.slice?_some.mp sliced
  obtain ⟨start, rfl⟩ := Span.mk.inj place
  rw [Nat.zero_add] at start
  obtain ⟨rfl, same⟩ := byteLength_unique (whole.symm.trans split) start
  rcases List.append_eq_append_iff.mp same with ⟨more, rfl, rest⟩ | ⟨more, rfl, _⟩
  · apply longest more _ ⟨later, rest.symm⟩
    intro empty
    rw [empty, List.append_nil] at after
    simp only at after
    omega
  · rw [byteLength_append] at after
    simp only at after
    omega

/-- The tokens of a source are the longest texts at their places, and spelled by them. Integers that
are too large are runs of digits that nothing goes on with. -/
theorem tokens_longest (source : String) :
    match tokens source with
    | .ok found => ∀ token ∈ found, ∃ text, token.span.slice? source.toList = some text ∧
        Spelling token.kind text ∧
        ∀ stop longer, token.span.stop < stop →
          Span.slice? ⟨token.span.start, stop⟩ source.toList = some longer →
          ∀ kind, ¬Spelling kind longer
    | .error errors => ∀ error ∈ errors, error.cause = .integerTooLarge →
        ∃ before digits after, source.toList = before ++ (digits ++ after) ∧
          error.span = ⟨byteLength before, byteLength before + byteLength digits⟩ ∧
          (∀ last ∈ before.getLast?, last.isDigit = false) ∧ Overlong digits after := by
  cases cut : tokens source with
  | ok found =>
      intro token member
      obtain ⟨text, back, occurs, isCut⟩ := tokens_occurs cut token member
      exact ⟨text, occurs.slice?, isCut.spelling,
        fun stop longer after sliced => occurs.longest isCut.longest after sliced⟩
  | error errors =>
      intro error member large
      obtain ⟨text, back, ⟨front, whole, place⟩, isCut⟩ := errors_occurs cut error member
      rw [large] at isCut
      rw [Nat.zero_add] at place
      have overlong := isCut.overlong
      refine ⟨front, text, back, whole, place, ?_, overlong⟩
      intro last isLast
      by_contra isDigit
      obtain ⟨digit, others, rfl⟩ := List.exists_cons_of_ne_nil overlong.nonempty
      have parted := errors_parted cut error member whole (by rw [place])
      have noDigit := parted last isLast (by simpa using isDigit) digit rfl
      cases (overlong.digits digit List.mem_cons_self).symm.trans noDigit

end Cpl
