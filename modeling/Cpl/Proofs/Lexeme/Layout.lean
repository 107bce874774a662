import Cpl.Proofs.Lexeme.Order
import Cpl.Proofs.Source.Slices
import Mathlib.Data.List.TakeWhile

namespace Cpl

section Comments
variable {position stop : Nat} {source body rest : List Char}

/-- Nothing in a text closes a comment. -/
def Unclosed (body : List Char) : Prop := ¬['*', '/'] <:+: body

/-- A text does not close a comment if it does not start with the mark and the rest does not close
it. -/
theorem unclosed_cons {character : Char} :
    Unclosed (character :: rest) ↔ ¬['*', '/'] <+: character :: rest ∧ Unclosed rest := by
  rw [Unclosed, Unclosed, List.infix_cons_iff, not_or]

/-- The end of a comment is sought one character further on. -/
theorem closeComment?_cons {character : Char} (goesOn : ¬['*', '/'] <+: character :: rest) :
    closeComment? position (character :: rest) =
      closeComment? (position + character.utf8Size) rest := by
  rw [closeComment?]
  intro later isStar isSlash
  exact goesOn ⟨later, by rw [isStar, isSlash]; rfl⟩

/-- A comment ends at the first place where something closes it. -/
theorem closeComment?_some :
    closeComment? position source = some (stop, rest) ↔
      ∃ body, source = body ++ '*' :: '/' :: rest ∧ Unclosed body ∧
        stop = position + byteLength body + 2 := by
  constructor
  · intro closed
    fun_induction closeComment? position source with
    | case1 => cases closed
    | case2 position later =>
        cases closed
        exact ⟨[], rfl, by simp [Unclosed], rfl⟩
    | case3 position character later different ih =>
        obtain ⟨body, rfl, unclosed, rfl⟩ := ih closed
        refine ⟨character :: body, rfl, unclosed_cons.mpr ⟨?_, unclosed⟩, ?_⟩
        · rintro ⟨more, same⟩
          obtain ⟨rfl, rfl⟩ := List.cons.inj same
          exact different _ rfl rfl
        · rw [byteLength]
          omega
  · rintro ⟨body, rfl, unclosed, rfl⟩
    induction body generalizing position with
    | nil => rfl
    | cons character body ih =>
        obtain ⟨goesOn, later⟩ := unclosed_cons.mp unclosed
        rw [List.cons_append, closeComment?_cons, ih later, byteLength, Nat.add_assoc, Nat.add_assoc,
          Nat.add_assoc, Nat.add_assoc]
        rintro ⟨more, same⟩
        obtain ⟨rfl, next⟩ := List.cons.inj same
        cases body with
        | nil => cases next
        | cons second body =>
            obtain ⟨rfl, _⟩ := List.cons.inj next
            exact goesOn ⟨body, rfl⟩

/-- A comment whose end is not found is not closed. -/
theorem unclosed_of_none (open_ : closeComment? position source = none) : Unclosed source := by
  fun_induction closeComment? position source with
  | case1 => simp [Unclosed]
  | case2 => cases open_
  | case3 position character later different ih =>
      refine unclosed_cons.mpr ⟨?_, ih open_⟩
      rintro ⟨more, same⟩
      obtain ⟨rfl, rfl⟩ := List.cons.inj same
      exact different _ rfl rfl

end Comments

/-- A comment with its marks. -/
def comment (body : List Char) : List Char := '/' :: '*' :: (body ++ ['*', '/'])

/-- A comment is a text between two marks of two characters. -/
theorem comment_append (body rest : List Char) :
    comment body ++ rest = '/' :: '*' :: (body ++ '*' :: '/' :: rest) := by
  simp [comment]

/-- The bytes of a comment are those of its text and its marks. -/
theorem comment_stop (position : Nat) (body : List Char) :
    position + 2 + byteLength body + 2 = position + byteLength (comment body) := by
  rw [comment, byteLength, byteLength, byteLength_append]
  change _ = position + (1 + (1 + (byteLength body + 2)))
  omega

/-- Blanks and closed comments. -/
inductive Filler : List Char → Prop
  | nil : Filler []
  | blank {character : Char} {rest : List Char} (blank : isBlank character = true)
      (later : Filler rest) : Filler (character :: rest)
  | comment {body rest : List Char} (unclosed : Unclosed body) (later : Filler rest) :
      Filler (comment body ++ rest)

/-- Filler after filler is filler. -/
theorem Filler.append {first second : List Char} (filler : Filler first) (other : Filler second) :
    Filler (first ++ second) := by
  induction filler with
  | nil => exact other
  | blank blank _ ih => exact .blank blank ih
  | comment unclosed _ ih =>
      rw [List.append_assoc]
      exact .comment unclosed ih

/-- A comment is filler. -/
theorem comment_filler {body : List Char} (unclosed : Unclosed body) : Filler (comment body) := by
  rw [← List.append_nil (comment body)]
  exact .comment unclosed .nil

/-- Letters and digits are no blanks. -/
theorem isBlank_alphanum {character : Char} (alphanumeric : character.isAlphanum = true) :
    isBlank character = false := by
  delta Char.isAlphanum Char.isAlpha Char.isUpper Char.isLower Char.isDigit at alphanumeric
  simp [UInt32.le_iff_toNat_le] at alphanumeric
  simp [isBlank]
  omega

/-- Digits are not blank. -/
theorem isBlank_digit {character : Char} (digit : character.isDigit = true) :
    isBlank character = false :=
  isBlank_alphanum (by rw [Char.isAlphanum, digit, Bool.or_true])

/-- Symbols have no blanks in them. -/
theorem Symbol.isBlank_spelling (symbol : Symbol) :
    ∀ character ∈ symbol.spelling, isBlank character = false := by
  have visible : symbol.spelling.all (fun character => !isBlank character) = true := by
    cases symbol <;> rfl
  intro character member
  simpa using List.all_eq_true.mp visible character member

/-- The symbol that is found stands at the start. -/
theorem Symbol.first?_isPrefix {symbol : Symbol} {source : List Char}
    (found : first? source = some symbol) : symbol.spelling <+: source := by
  rw [first?] at found
  have spelled := List.find?_some found
  exact List.isPrefixOf_iff_prefix.mp spelled

namespace Piece

/-- A number is digits, or digits with a point and more digits if these follow. -/
theorem number_cases (source : List Char) :
    (∀ after, source.dropWhile Char.isDigit = '.' :: after → after.takeWhile Char.isDigit = []) ∧
        number source = ⟨source.takeWhile Char.isDigit, source.dropWhile Char.isDigit,
          integerReading (source.takeWhile Char.isDigit)⟩ ∨
      ∃ after, source.dropWhile Char.isDigit = '.' :: after ∧ after.takeWhile Char.isDigit ≠ [] ∧
        number source = ⟨source.takeWhile Char.isDigit ++ '.' :: after.takeWhile Char.isDigit,
          after.dropWhile Char.isDigit,
          floatReading (source.takeWhile Char.isDigit) (after.takeWhile Char.isDigit)⟩ := by
  rw [number]
  split
  next after pointed =>
    dsimp only
    split
    next none => exact .inl ⟨by simpa [pointed] using none, by rw [pointed]⟩
    next more => exact .inr ⟨after, pointed, by simpa using more, rfl⟩
  next different => exact .inl ⟨fun after pointed => absurd pointed (different after), rfl⟩

/-- A number and what is left make up the source. -/
theorem number_split (source : List Char) : (number source).text ++ (number source).rest = source := by
  obtain ⟨_, whole⟩ | ⟨after, pointed, _, whole⟩ := number_cases source
  · rw [whole]
    exact List.takeWhile_append_dropWhile
  · rw [whole]
    simp only [List.append_assoc, List.cons_append, List.takeWhile_append_dropWhile]
    rw [← pointed, List.takeWhile_append_dropWhile]

/-- Numbers have no blanks in them. -/
theorem number_visible (source : List Char) :
    ∀ character ∈ (number source).text, isBlank character = false := by
  intro character member
  obtain ⟨_, whole⟩ | ⟨after, pointed, _, whole⟩ := number_cases source
  · rw [whole] at member
    exact isBlank_digit (List.mem_takeWhile_imp member)
  · rw [whole] at member
    obtain digit | point | digit := by simpa only [List.mem_append, List.mem_cons] using member
    · exact isBlank_digit (List.mem_takeWhile_imp digit)
    · rw [point]
      decide
    · exact isBlank_digit (List.mem_takeWhile_imp digit)

/-- A number that is at fault is too large. -/
theorem number_fault {source : List Char} {cause : LexicalCause}
    (fault : (number source).reading = .error cause) :
    cause = .integerTooLarge ∨ cause = .floatTooLarge := by
  obtain ⟨_, whole⟩ | ⟨after, _, _, whole⟩ := number_cases source
  · rw [whole] at fault
    dsimp only [integerReading] at fault
    split at fault
    · cases fault
    · cases fault
      exact .inl rfl
  · rw [whole] at fault
    dsimp only [floatReading] at fault
    split at fault
    · cases fault
      exact .inr rfl
    · cases fault

/-- A piece and what follows it are the source that it is cut off from. -/
theorem first_split (character : Char) (source : List Char) :
    (first character source).text ++ (first character source).rest = character :: source := by
  rw [first]
  split
  · exact List.takeWhile_append_dropWhile
  · split
    next symbol found =>
      obtain ⟨rest, whole⟩ := Symbol.first?_isPrefix found
      rw [← whole, List.drop_left]
    next =>
      split
      · exact number_split _
      · rfl

/-- There are no blanks in a piece that does not start with one. -/
theorem first_visible {character : Char} (source : List Char) (visible : isBlank character = false) :
    ∀ inside ∈ (first character source).text, isBlank inside = false := by
  rw [first]
  split
  · exact fun inside member => isBlank_alphanum (List.mem_takeWhile_imp member)
  · split
    next symbol _ => exact symbol.isBlank_spelling
    next =>
      split
      · exact number_visible _
      · exact List.forall_mem_singleton.mpr visible

/-- A piece that is at fault is a number that is too large, or one unknown character. -/
theorem first_fault {character : Char} {source : List Char} {cause : LexicalCause}
    (fault : (first character source).reading = .error cause) :
    cause = .unknownCharacter ∧ (first character source).text = [character] ∨
      cause = .integerTooLarge ∨ cause = .floatTooLarge := by
  rw [first] at fault ⊢
  split at fault
  · cases fault
  · split at fault
    · cases fault
    · split at fault
      · exact .inr (number_fault fault)
      · cases fault
        simp_all

end Piece

/-- A text that is cut off from a source as a lexeme, what follows it, and how it is read. -/
inductive Cut : List Char → List Char → Except LexicalCause TokenKind → Prop
  | piece {character : Char} {source : List Char} (visible : isBlank character = false) :
      Cut (Piece.first character source).text (Piece.first character source).rest
        (Piece.first character source).reading
  | comment {body : List Char} (unclosed : Unclosed body) :
      Cut ['/', '*'] body (.error .unterminatedComment)

section Cuts
variable {text back : List Char} {reading : Except LexicalCause TokenKind}

/-- No empty text is cut. -/
theorem Cut.nonempty (cut : Cut text back reading) : text ≠ [] := by
  cases cut with
  | piece => exact Piece.first_nonempty _ _
  | comment => exact List.cons_ne_nil _ _

/-- No blank is cut. -/
theorem Cut.visible (cut : Cut text back reading) :
    ∀ character ∈ text, isBlank character = false := by
  cases cut with
  | piece visible => exact Piece.first_visible _ visible
  | comment => simp [isBlank]

/-- An unknown character is cut alone. -/
theorem Cut.unknown (cut : Cut text back (.error .unknownCharacter)) :
    ∃ character, text = [character] := by
  generalize same : Except.error LexicalCause.unknownCharacter = reading at cut
  cases cut with
  | @piece character source =>
      obtain ⟨_, single⟩ | other := Piece.first_fault same.symm
      · exact ⟨character, single⟩
      · simp at other
  | comment => cases same

/-- Of an open comment the mark is cut, and nothing after it closes it. -/
theorem Cut.unterminated (cut : Cut text back (.error .unterminatedComment)) :
    text = ['/', '*'] ∧ Unclosed back := by
  generalize same : Except.error LexicalCause.unterminatedComment = reading at cut
  cases cut with
  | piece => simpa using Piece.first_fault same.symm
  | comment unclosed => exact ⟨rfl, unclosed⟩

end Cuts

/-- What a lexeme is read as. -/
def Lexeme.reading : Lexeme → Except LexicalCause TokenKind
  | token found => .ok found.kind
  | fault error => .error error.cause

/-- A lexeme is read like the piece that it is made of. -/
theorem Lexeme.ofPiece_reading (piece : Piece) (span : Span) :
    (ofPiece piece span).reading = piece.reading := by
  rw [ofPiece]
  split
  next kind read => exact read.symm
  next cause fault => exact fault.symm

/-- The lexemes of a source that starts at a byte position, with filler around them. Nothing follows
a comment that is not closed. -/
inductive Layout : Nat → List Char → List Lexeme → Prop
  | nil {position : Nat} : Layout position [] []
  | filler {position : Nat} {gap rest : List Char} {found : List Lexeme} (filler : Filler gap)
      (later : Layout (position + byteLength gap) rest found) : Layout position (gap ++ rest) found
  | piece {position : Nat} {character : Char} {source : List Char} {found : List Lexeme}
      (visible : isBlank character = false)
      (later : Layout (position + byteLength (Piece.first character source).text)
        (Piece.first character source).rest found) :
      Layout position (character :: source)
        (.ofPiece (Piece.first character source)
          ⟨position, position + byteLength (Piece.first character source).text⟩ :: found)
  | comment {position : Nat} {body : List Char} (unclosed : Unclosed body) :
      Layout position ('/' :: '*' :: body)
        [.fault ⟨.unterminatedComment, ⟨position, position + 2⟩⟩]

/-- Cutting lays out the source. -/
theorem scan_layout (position : Nat) (source : List Char) :
    Layout position source (scan position source) := by
  fun_induction scan position source with
  | case1 => exact .nil
  | case2 position body stop rest closed ih =>
      obtain ⟨body, rfl, unclosed, rfl⟩ := closeComment?_some.mp closed
      rw [← comment_append]
      rw [comment_stop] at ih ⊢
      exact .filler (comment_filler unclosed) ih
  | case3 position body unclosed => exact .comment (unclosed_of_none unclosed)
  | case4 position character rest _ blank ih => exact .filler (.blank blank .nil) ih
  | case5 position character rest _ visible piece stop ih => exact .piece (by simpa using visible) ih

/-- A text stands at a place in a source that starts at a byte position, before another. -/
def Occurs (position : Nat) (source : List Char) (span : Span) (text back : List Char) : Prop :=
  ∃ front, source = front ++ (text ++ back) ∧
    span = ⟨position + byteLength front, position + byteLength front + byteLength text⟩

section Places
variable {position : Nat} {source text back : List Char} {span : Span}

/-- A text occurs where it starts. -/
theorem occurs_start (position : Nat) (text back : List Char) :
    Occurs position (text ++ back) ⟨position, position + byteLength text⟩ text back :=
  ⟨[], rfl, rfl⟩

/-- A text occurs as well with more before it. -/
theorem Occurs.after {before : List Char}
    (occurs : Occurs (position + byteLength before) source span text back) :
    Occurs position (before ++ source) span text back := by
  obtain ⟨front, rfl, rfl⟩ := occurs
  refine ⟨before ++ front, (List.append_assoc _ _ _).symm, ?_⟩
  rw [byteLength_append, Nat.add_assoc]

/-- A text that occurs is cut out by its range. -/
theorem Occurs.slice? (occurs : Occurs 0 source span text back) : span.slice? source = some text := by
  obtain ⟨front, whole, rfl⟩ := occurs
  rw [Nat.zero_add]
  exact Span.slice?_some.mpr ⟨front, back, whole, rfl⟩

/-- Each lexeme stands where its text was cut off. -/
theorem Layout.occurs {found : List Lexeme} (layout : Layout position source found) :
    ∀ lexeme ∈ found, ∃ text back, Occurs position source lexeme.span text back ∧
      Cut text back lexeme.reading := by
  induction layout with
  | nil => simp
  | filler _ _ ih =>
      intro lexeme member
      obtain ⟨text, back, occurs, cut⟩ := ih lexeme member
      exact ⟨text, back, occurs.after, cut⟩
  | @piece position character source found visible later ih =>
      rw [← Piece.first_split character source]
      intro lexeme member
      obtain rfl | member := List.mem_cons.mp member
      · rw [Lexeme.ofPiece_span, Lexeme.ofPiece_reading]
        exact ⟨_, _, occurs_start _ _ _, .piece visible⟩
      · obtain ⟨text, back, occurs, cut⟩ := ih lexeme member
        exact ⟨text, back, occurs.after, cut⟩
  | @comment position body unclosed =>
      intro lexeme member
      cases List.mem_singleton.mp member
      exact ⟨['/', '*'], body, occurs_start position ['/', '*'] body, .comment unclosed⟩

end Places

end Cpl
