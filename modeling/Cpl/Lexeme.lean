/-
Lexemes: a source text cut into tokens and faults. Blanks and closed comments stand between
them. Cutting goes on after a fault, so that all faults of a source are known at once.
-/

import Cpl.Text.Blank
import Cpl.Token

namespace Cpl

inductive LexicalCause where
  | integerTooLarge
  | floatTooLarge
  | unterminatedComment
  | unknownCharacter
deriving DecidableEq

def LexicalCause.message : LexicalCause → String
  | integerTooLarge => "invalid integer literal: number too large to fit in target type"
  | floatTooLarge => "invalid float literal: number too large"
  | unterminatedComment => "unterminated comment"
  | unknownCharacter => "invalid symbol"

structure LexicalError where
  cause : LexicalCause
  span : Span
deriving DecidableEq

/-- The first characters of a source, what they mean, and what follows them. -/
structure Piece where
  text : List Char
  rest : List Char
  reading : Except LexicalCause TokenKind

namespace Piece

/-- A word goes on as long as there are letters and digits. -/
def word (source : List Char) : Piece :=
  let text := source.takeWhile Char.isAlphanum
  ⟨text, source.dropWhile Char.isAlphanum, .ok (.ofWord (String.ofList text))⟩

/-- The largest integer constant. -/
def integerLimit : Nat := 2147483647

def integerReading (digits : List Char) : Except LexicalCause TokenKind :=
  let value := Nat.ofDigitChars 10 digits 0
  if value ≤ integerLimit then .ok (.literal (.integer (Int32.ofNat value)))
  else .error .integerTooLarge

def floatReading (whole fraction : List Char) : Except LexicalCause TokenKind :=
  let value := Binary64.nearest (Nat.ofDigitChars 10 (whole ++ fraction) 0) (tenTo fraction.length)
  if value.isInfinite then .error .floatTooLarge else .ok (.literal (.float value))

/-- Digits are an integer, unless a point and another digit follow them. -/
def number (source : List Char) : Piece :=
  let whole := source.takeWhile Char.isDigit
  let integer : Piece := ⟨whole, source.dropWhile Char.isDigit, integerReading whole⟩
  match source.dropWhile Char.isDigit with
  | '.' :: after =>
      let fraction := after.takeWhile Char.isDigit
      if fraction.isEmpty then integer
      else ⟨whole ++ '.' :: fraction, after.dropWhile Char.isDigit, floatReading whole fraction⟩
  | _ => integer

/-- The piece that a character and the source after it start with. -/
def first (character : Char) (source : List Char) : Piece :=
  if character.isAlpha then word (character :: source)
  else
    match Symbol.first? (character :: source) with
    | some symbol =>
        ⟨symbol.spelling, (character :: source).drop symbol.spelling.length, .ok (.symbol symbol)⟩
    | none =>
        if character.isDigit then number (character :: source)
        else ⟨[character], source, .error .unknownCharacter⟩

theorem dropWhileLength (condition : Char → Bool) (source : List Char) :
    (source.dropWhile condition).length ≤ source.length :=
  (List.dropWhile_suffix condition).length_le

theorem numberRestLength (character : Char) (source : List Char) (digit : character.isDigit) :
    (number (character :: source)).rest.length ≤ source.length := by
  have whole := dropWhileLength Char.isDigit source
  have dropped : (character :: source).dropWhile Char.isDigit = source.dropWhile Char.isDigit :=
    List.dropWhile_cons_of_pos digit
  simp only [number, dropped]
  split
  · rename_i after equation
    have fraction := dropWhileLength Char.isDigit after
    split
    · exact whole
    · rw [equation, List.length_cons] at whole
      simp only
      omega
  · exact whole

theorem firstRestLength (character : Char) (source : List Char) :
    (first character source).rest.length ≤ source.length := by
  unfold first
  split
  · rename_i letter
    have alphanumeric : character.isAlphanum := by rw [Char.isAlphanum, letter, Bool.true_or]
    rw [word, List.dropWhile_cons_of_pos alphanumeric]
    exact dropWhileLength Char.isAlphanum source
  · split
    · rename_i symbol _
      have positive : 0 < symbol.spelling.length := by cases symbol <;> decide
      simp only [List.length_drop, List.length_cons]
      omega
    · split
      · rename_i digit
        exact numberRestLength character source digit
      · exact Nat.le_refl _

end Piece

inductive Lexeme where
  | token (found : Token)
  | fault (error : LexicalError)
deriving DecidableEq

namespace Lexeme

def ofPiece (piece : Piece) (span : Span) : Lexeme :=
  match piece.reading with
  | .ok kind => .token ⟨kind, span⟩
  | .error cause => .fault ⟨cause, span⟩

def token? : Lexeme → Option Token
  | token found => some found
  | fault _ => none

def error? : Lexeme → Option LexicalError
  | token _ => none
  | fault error => some error

end Lexeme

/-- The position and the source after the end of the comment that a text is inside of. -/
def closeComment? (position : Nat) : List Char → Option (Nat × List Char)
  | [] => none
  | '*' :: '/' :: rest => some (position + 2, rest)
  | character :: rest => closeComment? (position + character.utf8Size) rest

theorem closeCommentLength (position : Nat) (source : List Char) (stop : Nat) (rest : List Char)
    (equation : closeComment? position source = some (stop, rest)) :
    rest.length < source.length := by
  fun_induction closeComment? position source with
  | case1 => cases equation
  | case2 =>
      cases equation
      simp only [List.length_cons]
      omega
  | case3 position character source _ inductionHypothesis =>
      have := inductionHypothesis equation
      simp only [List.length_cons]
      omega

/-- The lexemes of a source that starts at a byte position. A comment that nothing closes takes
the rest of the source, and its opening is the fault. -/
def scan (position : Nat) (source : List Char) : List Lexeme :=
  match source with
  | [] => []
  | '/' :: '*' :: body =>
      match equation : closeComment? (position + 2) body with
      | some (stop, rest) => scan stop rest
      | none => [.fault ⟨.unterminatedComment, ⟨position, position + 2⟩⟩]
  | character :: rest =>
      if isBlank character then scan (position + character.utf8Size) rest
      else
        let piece := Piece.first character rest
        let stop := position + byteLength piece.text
        .ofPiece piece ⟨position, stop⟩ :: scan stop piece.rest
termination_by source.length
decreasing_by
  · have := closeCommentLength _ _ _ _ equation
    simp only [List.length_cons]
    omega
  · exact Nat.lt_add_one _
  · have := Piece.firstRestLength character rest
    simp only [List.length_cons]
    omega

def lexemes (source : String) : List Lexeme := scan 0 source.toList

/-- The tokens of a source, or all its faults if there are any. -/
def tokens (source : String) : Except (List LexicalError) (List Token) :=
  let found := lexemes source
  match found.filterMap Lexeme.error? with
  | [] => .ok (found.filterMap Lexeme.token?)
  | errors => .error errors

end Cpl
