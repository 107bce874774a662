import Cpl.Proofs.Lexeme.Cover
import Cpl.Proofs.Lexeme.Spelling

namespace Cpl

section Blanks
variable {blank : Char} (isBlanked : isBlank blank = true) (source rest : List Char)
include isBlanked

/-- A text without blanks that starts before a blank ends there. -/
theorem prefix_before_blank {text : List Char}
    (visible : ∀ character ∈ text, isBlank character = false) :
    text <+: source ++ blank :: rest ↔ text <+: source := by
  induction source generalizing text with
  | nil =>
      cases text with
      | nil => simp
      | cons character text =>
          have different : character ≠ blank := by
            intro same
            have shown := visible character List.mem_cons_self
            rw [same, isBlanked] at shown
            cases shown
          simp [different]
  | cons start source ih =>
      cases text with
      | nil => simp
      | cons character text =>
          rw [List.cons_append, List.cons_prefix_cons, List.cons_prefix_cons,
            ih (List.forall_mem_cons.mp visible).2]

/-- A run of visible characters ends before a blank at the latest. -/
theorem takeWhile_before_blank {condition : Char → Bool}
    (visible : ∀ character, condition character = true → isBlank character = false) :
    (source ++ blank :: rest).takeWhile condition = source.takeWhile condition ∧
      (source ++ blank :: rest).dropWhile condition =
        source.dropWhile condition ++ blank :: rest := by
  have stops : condition blank = false := by
    by_contra goesOn
    have shown := visible blank (by simpa using goesOn)
    cases isBlanked.symm.trans shown
  induction source with
  | nil => simp [stops]
  | cons character source ih =>
      by_cases goesOn : condition character = true
      · simp only [List.cons_append, List.takeWhile_cons_of_pos goesOn,
          List.dropWhile_cons_of_pos goesOn, ih, and_self]
      · simp only [List.cons_append, List.takeWhile_cons_of_neg goesOn,
          List.dropWhile_cons_of_neg goesOn, and_self]

/-- The first symbol is found without what follows a blank. -/
theorem Symbol.first?_before_blank : first? (source ++ blank :: rest) = first? source := by
  unfold first?
  congr 1
  funext symbol
  rw [Bool.eq_iff_iff, List.isPrefixOf_iff_prefix, List.isPrefixOf_iff_prefix]
  exact prefix_before_blank isBlanked source rest symbol.isBlank_spelling

end Blanks

namespace Piece

/-- The same piece, with more after it. -/
def before (piece : Piece) (more : List Char) : Piece := { piece with rest := piece.rest ++ more }

/-- A number without digits after a point is its digits. -/
theorem number_unpointed {source : List Char} (unpointed : ∀ after,
      source.dropWhile Char.isDigit = '.' :: after → after.takeWhile Char.isDigit = []) :
    number source = ⟨source.takeWhile Char.isDigit, source.dropWhile Char.isDigit,
      integerReading (source.takeWhile Char.isDigit)⟩ := by
  rcases number_cases source with ⟨_, whole⟩ | ⟨after, pointed, some, _⟩
  · exact whole
  · exact absurd (unpointed after pointed) some

/-- A number with digits after a point is the digits on both sides of it. -/
theorem number_pointed {source after : List Char}
    (pointed : source.dropWhile Char.isDigit = '.' :: after)
    (some : after.takeWhile Char.isDigit ≠ []) :
    number source = ⟨source.takeWhile Char.isDigit ++ '.' :: after.takeWhile Char.isDigit,
      after.dropWhile Char.isDigit,
      floatReading (source.takeWhile Char.isDigit) (after.takeWhile Char.isDigit)⟩ := by
  rcases number_cases source with ⟨unpointed, _⟩ | ⟨other, same, _, whole⟩
  · exact absurd (unpointed after pointed) some
  · rw [pointed, List.cons.injEq] at same
    rw [whole, ← same.2]

section Blanks
variable {blank : Char} (isBlanked : isBlank blank = true) (source rest : List Char)
include isBlanked

/-- A word is cut off before a blank. -/
theorem word_before_blank :
    word (source ++ blank :: rest) = (word source).before (blank :: rest) := by
  have cut := takeWhile_before_blank isBlanked source rest fun _ => isBlank_alphanum
  rw [word, cut.1, cut.2]
  rfl

/-- A number is cut off before a blank. -/
theorem number_before_blank :
    number (source ++ blank :: rest) = (number source).before (blank :: rest) := by
  have cut (text : List Char) := takeWhile_before_blank isBlanked text rest fun _ => isBlank_digit
  rcases number_cases source with ⟨unpointed, whole⟩ | ⟨after, pointed, some, whole⟩
  · rw [whole, number_unpointed, (cut source).1, (cut source).2]
    · rfl
    · rw [(cut source).2]
      intro later same
      cases found : source.dropWhile Char.isDigit with
      | nil =>
          rw [found, List.nil_append, List.cons.injEq] at same
          rw [same.1] at isBlanked
          cases isBlanked
      | cons character after =>
          rw [found, List.cons_append, List.cons.injEq] at same
          rw [← same.2, (cut after).1]
          exact unpointed after (by rw [found, same.1])
  · have goesOn : (source ++ blank :: rest).dropWhile Char.isDigit =
        '.' :: (after ++ blank :: rest) := by
      rw [(cut source).2, pointed, List.cons_append]
    rw [whole, number_pointed goesOn (by rwa [(cut after).1]), (cut source).1, (cut after).1,
      (cut after).2]
    rfl

/-- A piece that starts before a blank ends there. -/
theorem first_before_blank (character : Char) :
    first character (source ++ blank :: rest) =
      (first character source).before (blank :: rest) := by
  unfold first
  rw [← List.cons_append, Symbol.first?_before_blank isBlanked (character :: source) rest,
    word_before_blank isBlanked (character :: source) rest,
    number_before_blank isBlanked (character :: source) rest]
  split
  · rfl
  · split
    next symbol found =>
      have short := (Symbol.first?_isPrefix found).length_le
      rw [List.drop_append_of_le_length short]
      rfl
    next => split <;> rfl

end Blanks

end Piece

section Scans

/-- No comment starts where the two characters of its opening do not stand. -/
theorem noComment_of_ne {character : Char} {source : List Char}
    (different : ∀ body, character = '/' → source = '*' :: body → False) :
    ¬['/', '*'] <+: character :: source := by
  intro opened
  obtain ⟨body, same⟩ := opened
  obtain ⟨rfl, rfl⟩ := List.cons.inj same
  exact different body rfl rfl

/-- A comment that nothing closes is one fault. -/
theorem scan_unclosed {position : Nat} {body : List Char} (unclosed : Unclosed body) :
    scan position ('/' :: '*' :: body) =
      [.fault ⟨.unterminatedComment, ⟨position, position + 2⟩⟩] := by
  rw [scan.eq_def]
  split
  next same => cases same
  next source inner same =>
    cases same
    split
    next stop later found =>
      obtain ⟨inner, rfl, _⟩ := closeComment?_some.mp found
      exact absurd ⟨inner, later, by simp⟩ unclosed
    next => rfl
  next source other later different same =>
    obtain ⟨rfl, rfl⟩ := List.cons.inj same
    exact (different _ rfl rfl).elim

/-- The lexemes of a source with a blank in it are those before the blank and those after it, unless
a comment is open at the blank. -/
theorem scan_blank_between {blank : Char} (isBlanked : isBlank blank = true) (rest : List Char)
    {position : Nat} {source : List Char}
    (closed : ∀ lexeme ∈ scan position source, lexeme.reading ≠ .error .unterminatedComment) :
    scan position (source ++ blank :: rest) =
      scan position source ++ scan (position + byteLength (source ++ [blank])) rest := by
  fun_induction scan position source with
  | case1 position =>
      rw [List.nil_append, scan_blank isBlanked]
      rfl
  | case2 position body stop later found ih =>
      obtain ⟨body, rfl, unclosed, rfl⟩ := closeComment?_some.mp found
      rw [comment_stop] at ih closed ⊢
      rw [← comment_append, List.append_assoc, scan_comment unclosed, ih closed, List.append_assoc,
        byteLength_append (comment body), Nat.add_assoc]
  | case3 position body open_ => exact absurd rfl (closed _ List.mem_cons_self)
  | case4 position character source _ blanked ih =>
      rw [List.cons_append, scan_blank blanked, ih closed, List.cons_append, byteLength,
        Nat.add_assoc]
  | case5 position character source different visible piece stop ih =>
      have noComment : ¬['/', '*'] <+: character :: (source ++ blank :: rest) := by
        rw [← List.cons_append, prefix_before_blank isBlanked _ _ (by simp [isBlank])]
        exact noComment_of_ne different
      have later := ih (List.forall_mem_cons.mp closed).2
      have split : byteLength (character :: source ++ [blank]) =
          byteLength piece.text + byteLength (piece.rest ++ [blank]) := by
        rw [← byteLength_append, ← List.append_assoc, Piece.first_split]
      rw [List.cons_append, scan_cons noComment, if_neg visible,
        Piece.first_before_blank isBlanked, List.cons_append, split, ← Nat.add_assoc]
      exact congrArg _ later

end Scans

section Shifts

/-- The range that lies further behind. -/
def Span.shift (offset : Nat) (span : Span) : Span := ⟨span.start + offset, span.stop + offset⟩

def Token.shift (offset : Nat) (token : Token) : Token := ⟨token.kind, token.span.shift offset⟩

def LexicalError.shift (offset : Nat) (error : LexicalError) : LexicalError :=
  ⟨error.cause, error.span.shift offset⟩

def Lexeme.shift (offset : Nat) : Lexeme → Lexeme
  | token found => token (found.shift offset)
  | fault error => fault (error.shift offset)

/-- A lexeme further on is made of the same piece. -/
theorem Lexeme.ofPiece_shift (offset : Nat) (piece : Piece) (span : Span) :
    (ofPiece piece span).shift offset = ofPiece piece (span.shift offset) := by
  unfold ofPiece
  split <;> rfl

/-- A source that starts further behind has its lexemes further behind. -/
theorem scan_shift (offset position : Nat) (source : List Char) :
    scan (position + offset) source = (scan position source).map (Lexeme.shift offset) := by
  fun_induction scan position source with
  | case1 => rw [scan.eq_def]; rfl
  | case2 position body stop later found ih =>
      obtain ⟨body, rfl, unclosed, rfl⟩ := closeComment?_some.mp found
      rw [comment_stop] at ih ⊢
      rw [← comment_append, scan_comment unclosed, ← ih, Nat.add_right_comm]
  | case3 position body open_ =>
      rw [scan_unclosed (unclosed_of_none open_), Nat.add_right_comm]
      rfl
  | case4 position character source _ blanked ih =>
      rw [scan_blank blanked, ← ih, Nat.add_right_comm]
  | case5 position character source different visible piece stop ih =>
      have place : position + offset + byteLength piece.text = stop + offset :=
        Nat.add_right_comm _ _ _
      rw [scan_cons (noComment_of_ne different), if_neg visible, List.map_cons,
        Lexeme.ofPiece_shift, ← ih, place]
      rfl

/-- The tokens among lexemes further on are further on. -/
theorem filterMap_token_shift (offset : Nat) (found : List Lexeme) :
    (found.map (Lexeme.shift offset)).filterMap Lexeme.token? =
      (found.filterMap Lexeme.token?).map (Token.shift offset) := by
  rw [List.filterMap_map, List.map_filterMap]
  congr 1
  funext lexeme
  cases lexeme <;> rfl

/-- The errors among lexemes further on are further on. -/
theorem filterMap_error_shift (offset : Nat) (found : List Lexeme) :
    (found.map (Lexeme.shift offset)).filterMap Lexeme.error? =
      (found.filterMap Lexeme.error?).map (LexicalError.shift offset) := by
  rw [List.filterMap_map, List.map_filterMap]
  congr 1
  funext lexeme
  cases lexeme <;> rfl

end Shifts

section Joins
variable {first second : String} {blank : Char}

/-- A source that reports no open comment has none among its lexemes. -/
theorem lexemes_closed (closed : ∀ errors, tokens first = .error errors →
      ∀ error ∈ errors, error.cause ≠ .unterminatedComment) :
    ∀ lexeme ∈ lexemes first, lexeme.reading ≠ .error .unterminatedComment := by
  intro lexeme member unterminated
  cases lexeme with
  | token found => cases unterminated
  | fault error =>
      have isError : error ∈ (lexemes first).filterMap Lexeme.error? :=
        List.mem_filterMap.mpr ⟨.fault error, member, rfl⟩
      have cut : tokens first = .error ((lexemes first).filterMap Lexeme.error?) :=
        tokens_error.mpr ⟨rfl, List.ne_nil_of_mem isError⟩
      exact closed _ cut error isError (Except.error.inj unterminated)

/-- The lexemes after a blank are cut as if the source started there, unless a comment is open. -/
theorem lexemes_join (isBlanked : isBlank blank = true)
    (closed : ∀ lexeme ∈ lexemes first, lexeme.reading ≠ .error .unterminatedComment) :
    lexemes (first.push blank ++ second) = lexemes first ++
      (lexemes second).map (Lexeme.shift (byteLength (first.push blank).toList)) := by
  have between := scan_blank_between isBlanked second.toList closed
  rw [Nat.zero_add, ← Nat.zero_add (byteLength _), scan_shift] at between
  unfold lexemes
  rw [String.toList_append, String.toList_push, List.append_assoc]
  exact between

end Joins

/-- Cutting a source with a blank in it is cutting what is before the blank and what is after it,
unless a comment is open at the blank. If both parts have tokens, the whole has them all; otherwise
it has the faults of both. What is found in the second part is moved behind the first. -/
theorem tokens_join {first : String} (second : String) {blank : Char}
    (isBlanked : isBlank blank = true)
    (closed : ∀ errors, tokens first = .error errors →
      ∀ error ∈ errors, error.cause ≠ .unterminatedComment) :
    let offset := byteLength (first.push blank).toList
    tokens (first.push blank ++ second) =
      match tokens first, tokens second with
      | .ok found, .ok others => .ok (found ++ others.map (Token.shift offset))
      | .ok _, .error faults => .error (faults.map (LexicalError.shift offset))
      | .error errors, .ok _ => .error errors
      | .error errors, .error faults =>
          .error (errors ++ faults.map (LexicalError.shift offset)) := by
  intro offset
  have joined : lexemes (first.push blank ++ second) =
      lexemes first ++ (lexemes second).map (Lexeme.shift offset) :=
    lexemes_join isBlanked (lexemes_closed closed)
  have errors : (lexemes (first.push blank ++ second)).filterMap Lexeme.error? =
      (lexemes first).filterMap Lexeme.error? ++
        ((lexemes second).filterMap Lexeme.error?).map (LexicalError.shift offset) := by
    rw [joined, List.filterMap_append, filterMap_error_shift]
  cases cut : tokens first with
  | ok found =>
      obtain ⟨clean, rfl⟩ := tokens_ok.mp cut
      rw [clean, List.nil_append] at errors
      cases cutOther : tokens second with
      | ok others =>
          obtain ⟨cleanOther, rfl⟩ := tokens_ok.mp cutOther
          rw [cleanOther] at errors
          refine tokens_ok.mpr ⟨errors, ?_⟩
          rw [joined, List.filterMap_append, filterMap_token_shift]
      | error faults =>
          obtain ⟨rfl, some⟩ := tokens_error.mp cutOther
          exact tokens_error.mpr ⟨errors, by simpa using some⟩
  | error ownErrors =>
      obtain ⟨rfl, some⟩ := tokens_error.mp cut
      cases cutOther : tokens second with
      | ok others =>
          obtain ⟨cleanOther, _⟩ := tokens_ok.mp cutOther
          rw [cleanOther, List.map_nil, List.append_nil] at errors
          exact tokens_error.mpr ⟨errors, some⟩
      | error faults =>
          obtain ⟨rfl, _⟩ := tokens_error.mp cutOther
          exact tokens_error.mpr ⟨errors, List.append_ne_nil_of_left_ne_nil some _⟩

/-- A point after digits before a wide blank, and a comment that is open after it. -/
theorem point_join :
    let first := "3."
    let second := "/*"
    let blank := '\u3000'
    isBlank blank = true ∧ tokens first = .error [⟨.unknownCharacter, ⟨1, 2⟩⟩] ∧
      tokens second = .error [⟨.unterminatedComment, ⟨0, 2⟩⟩] ∧
      tokens (first.push blank ++ second) =
        .error [⟨.unknownCharacter, ⟨1, 2⟩⟩, ⟨.unterminatedComment, ⟨5, 7⟩⟩] := by
  intro first second blank
  have cut : tokens first = .error [⟨.unknownCharacter, ⟨1, 2⟩⟩] :=
    tokens_error.mpr (by decide +kernel)
  have cutOther : tokens second = .error [⟨.unterminatedComment, ⟨0, 2⟩⟩] :=
    tokens_error.mpr (by decide +kernel)
  have isBlanked : isBlank blank = true := by decide
  have offset : byteLength (first.push blank).toList = 5 := by decide +kernel
  have joined := tokens_join second isBlanked (by
    intro errors failed
    cases cut.symm.trans failed
    decide)
  rw [cut, cutOther, offset] at joined
  exact ⟨isBlanked, cut, cutOther, joined⟩

end Cpl
