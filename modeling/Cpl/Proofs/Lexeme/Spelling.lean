import Cpl.Proofs.Decimal.Positional
import Cpl.Proofs.Lexeme.Layout

namespace Cpl

section Separators

/-- A separator starts with a blank or with the slash of a comment. -/
def separates (character : Char) : Prop := isBlank character = true ∨ character = '/'

/-- Nothing follows, or a separator does. -/
def Separated (rest : List Char) : Prop := ∀ character ∈ rest.head?, separates character

/-- Filler at the end separates what stands before it. -/
theorem Filler.separated {gap : List Char} (filler : Filler gap) : Separated gap := by
  cases filler with
  | nil => simp [Separated]
  | blank blank => simp [Separated, separates, blank]
  | comment =>
      rw [comment_append]
      simp [Separated, separates]

/-- Filler that is not empty separates what stands before it. -/
theorem Filler.separates {gap : List Char} (filler : Filler gap) (some : gap ≠ [])
    (rest : List Char) : Separated (gap ++ rest) := by
  cases gap with
  | nil => contradiction
  | cons character gap => exact filler.separated

/-- A separator ends everything that does not go on at blanks or slashes. -/
theorem Separated.ends {condition : Char → Bool} {rest : List Char} (separated : Separated rest)
    (visible : ∀ character, condition character = true → isBlank character = false)
    (slash : condition '/' = false) : ∀ character ∈ rest.head?, condition character = false := by
  intro character member
  rw [← Bool.not_eq_true]
  intro goesOn
  obtain blank | rfl := separated character member
  · rw [visible character goesOn] at blank
    cases blank
  · rw [slash] at goesOn
    cases goesOn

/-- A text that fulfils a condition is cut off where the condition fails. -/
theorem takeWhile_dropWhile_append {condition : Char → Bool} {text rest : List Char}
    (all : ∀ character ∈ text, condition character = true)
    (ends : ∀ character ∈ rest.head?, condition character = false) :
    (text ++ rest).takeWhile condition = text ∧ (text ++ rest).dropWhile condition = rest := by
  rw [List.takeWhile_append_of_pos all, List.dropWhile_append_of_pos all]
  cases rest with
  | nil => exact ⟨List.append_nil text, rfl⟩
  | cons character rest =>
      have stop := ends character rfl
      simp [stop]

end Separators

section Steps
variable {position : Nat} {character : Char} {rest : List Char}

/-- A character that opens no comment is blank, or starts a lexeme. -/
theorem scan_cons (noComment : ¬['/', '*'] <+: character :: rest) :
    scan position (character :: rest) =
      if isBlank character then scan (position + character.utf8Size) rest
      else
        .ofPiece (Piece.first character rest)
          ⟨position, position + byteLength (Piece.first character rest).text⟩ ::
        scan (position + byteLength (Piece.first character rest).text)
          (Piece.first character rest).rest := by
  rw [scan.eq_def]
  split
  next => contradiction
  next body same => exact absurd ⟨body, same.symm⟩ noComment
  next other later _ same =>
    obtain ⟨rfl, rfl⟩ := List.cons.inj same
    rfl

/-- Blanks are passed over. -/
theorem scan_blank (blank : isBlank character = true) :
    scan position (character :: rest) = scan (position + character.utf8Size) rest := by
  rw [scan_cons, if_pos blank]
  rintro ⟨body, same⟩
  obtain ⟨rfl, _⟩ := List.cons.inj same
  cases blank

/-- Comments are passed over. -/
theorem scan_comment {body : List Char} (unclosed : Unclosed body) :
    scan position (comment body ++ rest) = scan (position + byteLength (comment body)) rest := by
  have closed : closeComment? (position + 2) (body ++ '*' :: '/' :: rest) =
      some (position + byteLength (comment body), rest) :=
    closeComment?_some.mpr ⟨body, rfl, unclosed, (comment_stop position body).symm⟩
  rw [comment_append, scan.eq_def]
  split
  next same => cases same
  next source inner same =>
    cases same
    split
    next stop later found =>
      obtain ⟨rfl, rfl⟩ := Prod.mk.inj (Option.some.inj (closed.symm.trans found))
      rfl
    next none => cases closed.symm.trans none
  next source other later different same =>
    obtain ⟨rfl, rfl⟩ := List.cons.inj same
    exact (different _ rfl rfl).elim

/-- Cutting passes over filler. -/
theorem scan_filler {gap : List Char} (filler : Filler gap) :
    scan position (gap ++ rest) = scan (position + byteLength gap) rest := by
  induction filler generalizing position with
  | nil => rfl
  | blank blank _ ih => rw [List.cons_append, scan_blank blank, ih, byteLength, Nat.add_assoc]
  | comment unclosed _ ih =>
      rw [List.append_assoc, scan_comment unclosed, ih, byteLength_append, Nat.add_assoc]

end Steps

namespace Symbol

/-- No symbol starts with a letter, a digit or a blank. -/
theorem spelling_head (symbol : Symbol) :
    ∃ character more, symbol.spelling = character :: more ∧ character.isAlpha = false ∧
      character.isDigit = false ∧ isBlank character = false := by
  cases symbol <;> exact ⟨_, _, rfl, by decide, by decide, by decide⟩

/-- No symbol starts with a digit. -/
theorem first?_digit {character : Char} (digit : character.isDigit = true) (source : List Char) :
    first? (character :: source) = none := by
  rw [first?, List.find?_eq_none]
  intro symbol _ spelled
  obtain ⟨start, more, spelling, _, noDigit, _⟩ := symbol.spelling_head
  rw [spelling, List.isPrefixOf_iff_prefix] at spelled
  obtain ⟨rest, same⟩ := spelled
  obtain ⟨rfl, _⟩ := List.cons.inj same
  rw [digit] at noDigit
  cases noDigit

/-- A symbol is the longest one at its place if something separates it from what follows. -/
theorem first?_spelling (symbol : Symbol) {rest : List Char} (separated : Separated rest) :
    first? (symbol.spelling ++ rest) = some symbol := by
  cases rest with
  | nil => cases symbol <;> rfl
  | cons character rest =>
      have different : ('=' == character) = false := by
        rw [beq_eq_false_iff_ne]
        rintro rfl
        simp [Separated, separates, isBlank] at separated
      cases symbol <;> simp [first?, all, spelling, List.find?, List.isPrefixOf, different]

end Symbol

namespace Keyword

/-- Each keyword is found by its spelling. -/
theorem ofWord?_spelling (word : Keyword) : ofWord? word.spelling = some word := by
  cases word <;> decide

/-- Keywords are letters only. -/
theorem spelling_letters (word : Keyword) :
    ∃ letter others, word.spelling.toList = letter :: others ∧ letter.isAlpha = true ∧
      ∀ character ∈ others, character.isAlphanum = true := by
  cases word <;> exact ⟨_, _, rfl, rfl, List.all_eq_true.mp rfl⟩

end Keyword

/-- The texts that spell a token. The value of a float is the nearest to its digits. -/
inductive Spelling : TokenKind → List Char → Prop
  | keyword (word : Keyword) : Spelling (.keyword word) word.spelling.toList
  | identifier {letter : Char} {others : List Char} (isLetter : letter.isAlpha = true)
      (alphanumeric : ∀ character ∈ others, character.isAlphanum = true)
      (free : ∀ word : Keyword, word.spelling.toList ≠ letter :: others) :
      Spelling (.identifier (String.ofList (letter :: others))) (letter :: others)
  | symbol (mark : Symbol) : Spelling (.symbol mark) mark.spelling
  | integer {value : Nat} (zeros : Nat) (fits : value ≤ 2147483647) :
      Spelling (.literal (.integer (Int32.ofNat value)))
        (List.replicate zeros '0' ++ Nat.toDigits 10 value)
  | float {whole fraction : List Char} (wholeSome : whole ≠ []) (fractionSome : fraction ≠ [])
      (digits : ∀ character ∈ whole ++ fraction, character.isDigit = true) {value : Binary64}
      (nearest : value = .nearest (Nat.ofDigitChars 10 (whole ++ fraction) 0)
        (tenTo fraction.length)) (finite : value.isInfinite = false) :
      Spelling (.literal (.float value)) (whole ++ '.' :: fraction)

/-- Digits are no letters. -/
theorem isAlpha_digit {character : Char} (digit : character.isDigit = true) :
    character.isAlpha = false := by
  delta Char.isAlpha Char.isUpper Char.isLower
  delta Char.isDigit at digit
  simp [UInt32.le_iff_toNat_le] at digit ⊢
  omega

namespace Piece
variable {text rest : List Char}

/-- Digits before something else than a point are cut as an integer. -/
theorem number_integer (digits : ∀ character ∈ text, character.isDigit = true)
    (ends : ∀ character ∈ rest.head?, character.isDigit = false ∧ character ≠ '.') :
    number (text ++ rest) = ⟨text, rest, integerReading text⟩ := by
  obtain ⟨taken, dropped⟩ := takeWhile_dropWhile_append digits
    fun character member => (ends character member).1
  obtain ⟨_, whole⟩ | ⟨after, pointed, _⟩ := number_cases (text ++ rest)
  · rw [whole, taken, dropped]
  · rw [dropped] at pointed
    rw [pointed] at ends
    exact absurd rfl (ends '.' rfl).2

/-- Digits around a point are cut as a float. -/
theorem number_float {whole fraction : List Char} (some : fraction ≠ [])
    (digits : ∀ character ∈ whole ++ fraction, character.isDigit = true)
    (ends : ∀ character ∈ rest.head?, character.isDigit = false) :
    number (whole ++ '.' :: (fraction ++ rest)) =
      ⟨whole ++ '.' :: fraction, rest, floatReading whole fraction⟩ := by
  obtain ⟨wholeDigits, fractionDigits⟩ := List.forall_mem_append.mp digits
  obtain ⟨taken, dropped⟩ := takeWhile_dropWhile_append wholeDigits
    (show ∀ character ∈ ('.' :: (fraction ++ rest)).head?, character.isDigit = false by simp)
  obtain ⟨more, left⟩ := takeWhile_dropWhile_append fractionDigits ends
  rw [number, dropped, taken]
  simp only [more, left]
  rw [if_neg (by simpa using some)]

/-- A word is cut off where no letter or digit follows. -/
theorem first_word {letter : Char} {others : List Char} (isLetter : letter.isAlpha = true)
    (alphanumeric : ∀ character ∈ others, character.isAlphanum = true)
    (ends : ∀ character ∈ rest.head?, character.isAlphanum = false) :
    first letter (others ++ rest) =
      ⟨letter :: others, rest, .ok (.ofWord (String.ofList (letter :: others)))⟩ := by
  have all : ∀ character ∈ letter :: others, character.isAlphanum = true :=
    List.forall_mem_cons.mpr ⟨by rw [Char.isAlphanum, isLetter, Bool.true_or], alphanumeric⟩
  obtain ⟨taken, dropped⟩ := takeWhile_dropWhile_append all ends
  rw [first, if_pos isLetter, word, ← List.cons_append, taken, dropped]

/-- A symbol that is found first is cut off. -/
theorem first_symbol {mark : Symbol} (found : Symbol.first? (mark.spelling ++ rest) = some mark)
    {character : Char} {more : List Char} (spelled : mark.spelling = character :: more) :
    first character (more ++ rest) = ⟨mark.spelling, rest, .ok (.symbol mark)⟩ := by
  obtain ⟨start, others, spelling, noLetter, _⟩ := mark.spelling_head
  obtain ⟨rfl, rfl⟩ := List.cons.inj (spelled.symm.trans spelling)
  rw [first, if_neg (by rw [noLetter]; decide), ← List.cons_append, ← spelled, found]
  simp only [List.drop_left]

/-- A digit starts a number. -/
theorem first_digit {character : Char} (digit : character.isDigit = true) (source : List Char) :
    first character source = number (character :: source) := by
  rw [first, if_neg (by rw [isAlpha_digit digit]; decide), Symbol.first?_digit digit,
    if_pos digit]

end Piece

section Cutting
variable {kind : TokenKind} {text rest : List Char}

/-- A slash and a separator do not start a comment. -/
theorem symbol_noComment (mark : Symbol) (separated : Separated rest) :
    ¬['/', '*'] <+: mark.spelling ++ rest := by
  rintro ⟨body, same⟩
  by_cases slash : mark = .slash
  · subst slash
    obtain ⟨_, rfl⟩ := List.cons.inj same
    simp [Separated, separates, isBlank] at separated
  · cases mark <;> simp [Symbol.spelling] at same slash

/-- What follows is no part of a token, since it does not go on as the token does. -/
def Apart : TokenKind → List Char → Prop
  | .keyword _, rest | .identifier _, rest =>
      ∀ character ∈ rest.head?, character.isAlphanum = false
  | .literal _, rest => ∀ character ∈ rest.head?, character.isDigit = false ∧ character ≠ '.'
  | .symbol mark, rest => Symbol.first? (mark.spelling ++ rest) = some mark ∧
      ¬['/', '*'] <+: mark.spelling ++ rest

/-- A separator is no part of any token. -/
theorem Separated.apart (separated : Separated rest) (kind : TokenKind) : Apart kind rest := by
  have word := separated.ends (fun _ => isBlank_alphanum) rfl
  cases kind with
  | keyword | identifier => exact word
  | symbol mark => exact ⟨mark.first?_spelling separated, symbol_noComment mark separated⟩
  | literal =>
      intro character member
      refine ⟨separated.ends (fun _ => isBlank_digit) rfl character member, ?_⟩
      rintro rfl
      simpa [separates, isBlank] using separated '.' member

/-- Digits are read as an integer with or without zeros before them. -/
theorem integerReading_zeros {value : Nat} (zeros : Nat) (fits : value ≤ 2147483647) :
    Piece.integerReading (List.replicate zeros '0' ++ Nat.toDigits 10 value) =
      .ok (.literal (.integer (Int32.ofNat value))) := by
  have same : Nat.ofDigitChars 10 (List.replicate zeros '0' ++ Nat.toDigits 10 value) 0 = value := by
    rw [Nat.ofDigitChars_append, Nat.ofDigitChars_replicate_zero, Nat.mul_zero,
      Nat.ofDigitChars_ten_toDigits]
  rw [Piece.integerReading]
  simp only [same]
  exact if_pos fits

/-- A word that is no keyword is a name. -/
theorem ofWord_free {text : List Char} (free : ∀ word : Keyword, word.spelling.toList ≠ text) :
    TokenKind.ofWord (String.ofList text) = .identifier (String.ofList text) := by
  have none : Keyword.ofWord? (String.ofList text) = none := by
    rw [Keyword.ofWord?, List.find?_eq_none]
    intro word _ same
    apply free word
    rw [of_decide_eq_true same, String.toList_ofList]
  rw [TokenKind.ofWord, none]

/-- Cutting starts with a token that a text spells, and goes on after the text. -/
def CutFirst (kind : TokenKind) (text rest : List Char) : Prop :=
  ∀ position, scan position (text ++ rest) =
    .token ⟨kind, ⟨position, position + byteLength text⟩⟩ :: scan (position + byteLength text) rest

section Pieces
variable {character : Char} {more : List Char}
  (cut : Piece.first character (more ++ rest) = ⟨character :: more, rest, .ok kind⟩)
include cut

/-- A visible character outside of comments starts a piece. -/
theorem cutFirst_piece (visible : isBlank character = false)
    (noComment : ¬['/', '*'] <+: character :: (more ++ rest)) :
    CutFirst kind (character :: more) rest := by
  intro position
  rw [List.cons_append, scan_cons noComment, if_neg (by rw [visible]; decide), cut]
  rfl

/-- A letter or a digit starts a piece. -/
theorem cutFirst_alphanum (alphanumeric : character.isAlphanum = true) :
    CutFirst kind (character :: more) rest := by
  apply cutFirst_piece cut (isBlank_alphanum alphanumeric)
  rintro ⟨body, same⟩
  obtain ⟨rfl, _⟩ := List.cons.inj same
  cases alphanumeric

end Pieces

/-- A word is cut first if no letter or digit follows it. -/
theorem cutFirst_word {letter : Char} {others : List Char} (isLetter : letter.isAlpha = true)
    (alphanumeric : ∀ character ∈ others, character.isAlphanum = true)
    (meaning : TokenKind.ofWord (String.ofList (letter :: others)) = kind)
    (ends : ∀ character ∈ rest.head?, character.isAlphanum = false) :
    CutFirst kind (letter :: others) rest := by
  have cut := Piece.first_word isLetter alphanumeric ends
  rw [meaning] at cut
  exact cutFirst_alphanum cut (by rw [Char.isAlphanum, isLetter, Bool.true_or])

/-- A number is cut first if it is the first piece. -/
theorem cutFirst_number {digit : Char} {more : List Char} (isDigit : digit.isDigit = true)
    (cut : Piece.number (digit :: more ++ rest) = ⟨digit :: more, rest, .ok kind⟩) :
    CutFirst kind (digit :: more) rest := by
  rw [List.cons_append, ← Piece.first_digit isDigit] at cut
  exact cutFirst_alphanum cut (by rw [Char.isAlphanum, isDigit, Bool.or_true])

/-- A spelling is cut off as the token that it spells, from what is no part of the token. -/
theorem Spelling.cutFirst (spelling : Spelling kind text) (apart : Apart kind rest) :
    CutFirst kind text rest := by
  cases spelling with
  | keyword word =>
      obtain ⟨letter, others, spelled, isLetter, alphanumeric⟩ := word.spelling_letters
      rw [spelled]
      apply cutFirst_word isLetter alphanumeric _ apart
      rw [← spelled, String.ofList_toList, TokenKind.ofWord, word.ofWord?_spelling]
  | identifier isLetter alphanumeric free =>
      exact cutFirst_word isLetter alphanumeric (ofWord_free free) apart
  | symbol mark =>
      obtain ⟨found, noComment⟩ := apart
      obtain ⟨start, more, spelled, _, _, visible⟩ := mark.spelling_head
      have cut := Piece.first_symbol found spelled
      rw [spelled] at cut noComment ⊢
      exact cutFirst_piece cut visible noComment
  | @integer value zeros fits =>
      have digits := zeros_digits zeros value
      have cut := Piece.number_integer digits apart
      rw [integerReading_zeros zeros fits] at cut
      have some : Nat.toDigits 10 value ≠ [] := Nat.toDigits_ne_nil
      obtain ⟨digit, more, whole⟩ := List.exists_cons_of_ne_nil
        (List.append_ne_nil_of_right_ne_nil (List.replicate zeros '0') some)
      rw [whole] at digits cut ⊢
      exact cutFirst_number (digits digit List.mem_cons_self) cut
  | @float whole fraction wholeSome fractionSome digits value nearest finite =>
      have cut := Piece.number_float fractionSome digits
        fun character member => (apart character member).1
      have reading : Piece.floatReading whole fraction = .ok (.literal (.float value)) := by
        rw [Piece.floatReading, ← nearest]
        exact if_neg (by rw [finite]; decide)
      obtain ⟨digit, more, rfl⟩ := List.exists_cons_of_ne_nil wholeSome
      rw [reading, ← List.cons_append, ← List.append_assoc] at cut
      exact cutFirst_number (digits digit List.mem_cons_self) cut

end Cutting

/-- A token as it is written, with what separates it from the next one. -/
structure Word where
  kind : TokenKind
  text : List Char
  gap : List Char
  spelling : Spelling kind text
  filler : Filler gap

namespace Word

def source (word : Word) : List Char := word.text ++ word.gap

/-- The tokens that are written from a byte position on. -/
def place (position : Nat) : List Word → List Token
  | [] => []
  | word :: later =>
      ⟨word.kind, ⟨position, position + byteLength word.text⟩⟩ ::
        place (position + byteLength word.source) later

/-- Written tokens are cut into lexemes again. -/
theorem scan_place {position : Nat} {words : List Word}
    (apart : ∀ word ∈ words.dropLast, word.gap ≠ []) :
    scan position (words.flatMap source) = (place position words).map .token := by
  induction words generalizing position with
  | nil =>
      rw [List.flatMap_nil, scan.eq_def]
      rfl
  | cons word later ih =>
      have separated : Separated (word.gap ++ later.flatMap source) := by
        cases later with
        | nil =>
            rw [List.flatMap_nil, List.append_nil]
            exact word.filler.separated
        | cons next others => exact word.filler.separates (apart word List.mem_cons_self) _
      have others : ∀ word ∈ later.dropLast, word.gap ≠ [] := by
        cases later with
        | nil => simp
        | cons next others => exact (List.forall_mem_cons.mp apart).2
      rw [List.flatMap_cons, source, List.append_assoc, word.spelling.cutFirst (separated.apart word.kind),
        scan_filler word.filler, ih others, place, source, byteLength_append, Nat.add_assoc]
      rfl

end Word

/-- Tokens are read from a source as they are written there, whatever separates them. -/
theorem tokens_words {start : List Char} (leading : Filler start) {words : List Word}
    (apart : ∀ word ∈ words.dropLast, word.gap ≠ []) :
    tokens (String.ofList (start ++ words.flatMap Word.source)) =
      .ok (Word.place (byteLength start) words) := by
  rw [tokens_ok, lexemes, String.toList_ofList, scan_filler leading, Nat.zero_add,
    Word.scan_place apart]
  constructor
  · simp [Lexeme.error?]
  · rw [List.filterMap_map]
    exact List.filterMap_some

/-- A slash right before a comment, leading zeros, and a float at the end. -/
theorem quotient_tokens :
    tokens (String.ofList ['\t', 'x', ' ', '/', '/', '*', '*', '*', '/', '0', '0', '7', '\n', '1', '.',
      '5']) = .ok [⟨.identifier "x", ⟨1, 2⟩⟩, ⟨.symbol .slash, ⟨3, 4⟩⟩,
        ⟨.literal (.integer 7), ⟨9, 12⟩⟩, ⟨.literal (.float (.nearest 15 10)), ⟨13, 16⟩⟩] := by
  have name : Spelling (.identifier "x") ['x'] :=
    .identifier rfl (by simp) (by intro word; cases word <;> decide)
  have seven : Spelling (.literal (.integer 7)) ['0', '0', '7'] :=
    .integer 2 (show 7 ≤ 2147483647 by decide)
  have half : Spelling (.literal (.float (.nearest 15 10))) ['1', '.', '5'] :=
    .float (List.cons_ne_nil '1' []) (List.cons_ne_nil '5' []) (List.all_eq_true.mp rfl)
      (congrArg₂ Binary64.nearest rfl rfl) (by decide +kernel)
  have unclosed : Unclosed ['*'] := by simp [Unclosed, List.infix_cons_iff]
  have leading : Filler ['\t'] := .blank rfl .nil
  let words : List Word := [⟨_, _, [' '], name, .blank rfl .nil⟩,
    ⟨_, _, comment ['*'], .symbol .slash, comment_filler unclosed⟩,
    ⟨_, _, ['\n'], seven, .blank rfl .nil⟩, ⟨_, _, [], half, .nil⟩]
  have cut := tokens_words leading (show ∀ word ∈ words.dropLast, word.gap ≠ [] by
    simp [words, comment])
  simpa [words, Word.place, Word.source, Symbol.spelling, comment, byteLength, Char.utf8Size] using cut

end Cpl
