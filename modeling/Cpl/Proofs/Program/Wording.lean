import Cpl.Program.Text
import Cpl.Proofs.Grammar.Literals
import Cpl.Proofs.Grammar.Programs
import Cpl.Proofs.Lexeme.Words

namespace Cpl

section Runs
variable {kind : TokenKind} {kinds others : List TokenKind} {text later rest : List Char}

/-- A text is cut into tokens of some kinds, and cutting goes on with what follows it. -/
def CutAs (kinds : List TokenKind) (text rest : List Char) : Prop :=
  ∀ position, ∃ found : List Token, found.map Token.kind = kinds ∧
    scan position (text ++ rest) = found.map .token ++ scan (position + byteLength text) rest

/-- Blanks and comments are cut into no tokens. -/
theorem cutAs_filler {gap : List Char} (filler : Filler gap) : CutAs [] gap rest :=
  fun _ => ⟨[], rfl, scan_filler filler⟩

/-- A spelling is cut into the token that it spells. -/
theorem Spelling.cutAs (spelling : Spelling kind text) (apart : Apart kind rest) :
    CutAs [kind] text rest :=
  fun position => ⟨[_], rfl, spelling.cutFirst apart position⟩

/-- Texts that follow each other are cut one after the other. -/
theorem CutAs.append (first : CutAs kinds text (later ++ rest)) (second : CutAs others later rest) :
    CutAs (kinds ++ others) (text ++ later) rest := by
  intro position
  obtain ⟨found, rfl, cut⟩ := first position
  obtain ⟨more, rfl, cutMore⟩ := second (position + byteLength text)
  refine ⟨found ++ more, List.map_append, ?_⟩
  rw [List.append_assoc, cut, cutMore, List.map_append, List.append_assoc, byteLength_append,
    Nat.add_assoc]

/-- A blank in front adds no token. -/
theorem CutAs.blank (after : CutAs kinds later rest) : CutAs kinds (' ' :: later) rest :=
  (cutAs_filler (.blank rfl .nil)).append after

/-- A spelling in front adds the token that it spells. -/
theorem CutAs.word (spelling : Spelling kind text) (apart : Apart kind (later ++ rest))
    (after : CutAs kinds later rest) : CutAs (kind :: kinds) (text ++ later) rest :=
  (spelling.cutAs apart).append after

theorem cutAs_nil : CutAs [] [] rest := cutAs_filler .nil

/-- A symbol before a blank. -/
theorem CutAs.sign (mark : Symbol) (after : CutAs kinds later rest) :
    CutAs (.symbol mark :: kinds) (mark.spelling ++ ' ' :: later) rest := by
  have separated : Separated (' ' :: later ++ rest) := by simp [Separated, separates, isBlank]
  exact .word (.symbol mark) (separated.apart _) after.blank

/-- No symbol starts with this one, and no comment does. -/
def Symbol.solitary : Symbol → Bool
  | openParen | closeParen | openBrace | closeBrace | comma | colon | semicolon => true
  | _ => false

/-- A symbol that no other starts with, before anything. -/
theorem CutAs.mark {mark : Symbol} (solitary : mark.solitary = true)
    (after : CutAs kinds later rest) :
    CutAs (.symbol mark :: kinds) (mark.spelling ++ later) rest := by
  apply CutAs.word (.symbol mark) _ after
  cases mark with
  | openParen | closeParen | openBrace | closeBrace | comma | colon | semicolon =>
      exact ⟨rfl, by simp [Symbol.spelling]⟩
  | _ => cases solitary

/-- Nothing follows that a word or a number goes on with. -/
def Closing (rest : List Char) : Prop :=
  ∀ character ∈ rest.head?, character.isAlphanum = false ∧ character ≠ '.'

/-- Words and numbers end at a character that is no part of them. -/
theorem closing_cons {character : Char}
    (stops : character.isAlphanum = false ∧ character ≠ '.') : Closing (character :: rest) := by
  intro next isNext
  cases isNext
  exact stops

/-- An identifier ends where nothing goes on with it. -/
theorem Closing.identifier (closing : Closing rest) (name : String) :
    Apart (.identifier name) rest :=
  fun character member => (closing character member).1

/-- A keyword ends where nothing goes on with it. -/
theorem Closing.keyword (closing : Closing rest) (word : Keyword) : Apart (.keyword word) rest :=
  fun character member => (closing character member).1

/-- A number ends where nothing goes on with it. -/
theorem Closing.literal (closing : Closing rest) (value : Literal) :
    Apart (.literal value) rest := by
  intro character member
  obtain ⟨noWord, noPoint⟩ := closing character member
  rw [Char.isAlphanum, Bool.or_eq_false_iff] at noWord
  exact ⟨noWord.2, noPoint⟩

/-- A part in parentheses. -/
theorem CutAs.enclosed (inside : ∀ {more}, Closing more → CutAs kinds text more)
    (after : CutAs others later rest) :
    CutAs (.symbol .openParen :: (kinds ++ .symbol .closeParen :: others))
      ('(' :: (text ++ ')' :: later)) rest := by
  apply CutAs.mark rfl
  apply (inside (closing_cons (by decide))).append
  exact .mark rfl after

/-- Two parts with a sign between them, in parentheses. -/
theorem CutAs.operation {left right : List Char} (mark : Symbol)
    (before : ∀ {more}, Closing more → CutAs kinds left more)
    (after : ∀ {more}, Closing more → CutAs others right more) :
    CutAs (.symbol .openParen :: (kinds ++ .symbol mark :: (others ++ [.symbol .closeParen])))
      ('(' :: (left ++ ' ' :: (mark.spelling ++ ' ' :: (right ++ [')'])))) rest := by
  apply CutAs.mark rfl
  apply (before (closing_cons (by decide))).append
  apply CutAs.blank
  apply CutAs.sign mark
  apply (after (closing_cons (by decide))).append
  exact .mark rfl cutAs_nil

end Runs

/-- Names and constants that have texts which spell them. -/
structure Worded (idents : List Ident) (constants : List Literal) : Prop where
  names : ∀ ident ∈ idents, Spelling (.identifier ident.name) ident.name.toList
  constants : ∀ constant ∈ constants, constant.Spelled

/-- Names and constants can be worded together if they can apart. -/
theorem worded_append {idents others : List Ident} {constants more : List Literal} :
    Worded (idents ++ others) (constants ++ more) ↔
      Worded idents constants ∧ Worded others more := by
  constructor
  · intro worded
    obtain ⟨names, otherNames⟩ := List.forall_mem_append.mp worded.names
    obtain ⟨own, other⟩ := List.forall_mem_append.mp worded.constants
    exact ⟨⟨names, own⟩, ⟨otherNames, other⟩⟩
  · intro ⟨first, second⟩
    exact ⟨List.forall_mem_append.mpr ⟨first.names, second.names⟩,
      List.forall_mem_append.mpr ⟨first.constants, second.constants⟩⟩

/-- The names and constants of a program that was read from a source have texts. -/
theorem program_worded {source : String} {found : List Token} {program : Program}
    (cut : tokens source = .ok found) (read : Program.ofTokens found = .ok program) :
    Worded program.idents program.literals := by
  have spelled := tokens_spelled cut
  rw [Grammar.ofTokens_ok, Grammar.program_iff_phrase] at read
  rw [← read.idents, ← read.literals]
  constructor
  · intro ident named
    obtain ⟨token, isFound, isIdent⟩ := List.mem_filterMap.mp named
    obtain ⟨name, kind, rfl⟩ := Grammar.ident?_some.mp isIdent
    have spelling := spelled token isFound
    rwa [kind] at spelling
  · intro constant written
    obtain ⟨token, isFound, isLiteral⟩ := List.mem_filterMap.mp written
    have spelling := spelled token isFound
    rwa [Grammar.literal?_some.mp isLiteral] at spelling

section Expressions

/-- An arithmetic operator is written as its sign. -/
theorem ArithOp.text_sign (op : ArithOp) : op.text.toList = op.sign.spelling := by
  cases op <;> rfl

/-- A relation is written as its sign. -/
theorem RelOp.text_sign (op : RelOp) : op.text.toList = op.sign.spelling := by
  cases op <;> rfl

namespace Expr

/-- The tokens of an expression as it is shown. -/
def kinds : Expr → List TokenKind
  | literal value => [.literal value]
  | identifier ident => [.identifier ident.name]
  | binary op left right =>
      .symbol .openParen ::
        (left.kinds ++ .symbol op.sign :: (right.kinds ++ [.symbol .closeParen]))
  | cast target operand =>
      .keyword target.castWord :: .symbol .openParen :: (operand.kinds ++ [.symbol .closeParen])

/-- The text of a cast, in characters. -/
theorem cast_text (target : Scalar) (operand : Expr) :
    (cast target operand).text.toList =
      target.castWord.spelling.toList ++ '(' :: (operand.text.toList ++ [')']) := by
  cases target with
  | int =>
      show ("staticcastint(" ++ operand.text ++ ")").toList = _
      simp [Scalar.castWord, Keyword.spelling]
  | float =>
      show ("staticcastfloat(" ++ operand.text ++ ")").toList = _
      simp [Scalar.castWord, Keyword.spelling]

/-- The text of an operation, in characters. -/
theorem binary_text (op : ArithOp) (left right : Expr) :
    (binary op left right).text.toList =
      '(' :: (left.text.toList ++ ' ' :: (op.sign.spelling ++
        ' ' :: (right.text.toList ++ [')']))) := by
  show ("(" ++ left.text ++ " " ++ op.text ++ " " ++ right.text ++ ")").toList = _
  simp [op.text_sign]

/-- The text of an expression is cut into its tokens. -/
theorem cutAs (value : Expr) (worded : Worded value.idents value.literals) {rest : List Char}
    (closing : Closing rest) : CutAs value.kinds value.text.toList rest := by
  induction value generalizing rest with
  | literal constant =>
      exact (worded.constants constant List.mem_cons_self).cutAs (closing.literal constant)
  | identifier ident =>
      exact (worded.names ident List.mem_cons_self).cutAs (closing.identifier ident.name)
  | binary op left right ihLeft ihRight =>
      obtain ⟨first, second⟩ := worded_append.mp worded
      rw [binary_text]
      exact .operation op.sign (ihLeft first) (ihRight second)
  | cast target operand ih =>
      rw [cast_text]
      apply CutAs.word (.keyword target.castWord)
      · exact Closing.keyword (closing_cons (by decide)) _
      · exact .enclosed (ih worded) cutAs_nil

end Expr

namespace Condition

/-- The tokens of a condition as it is shown. -/
def kinds : Condition → List TokenKind
  | or left right =>
      .symbol .openParen :: (left.kinds ++ .symbol .or :: (right.kinds ++ [.symbol .closeParen]))
  | and left right =>
      .symbol .openParen :: (left.kinds ++ .symbol .and :: (right.kinds ++ [.symbol .closeParen]))
  | not operand =>
      .symbol .not :: .symbol .openParen :: (operand.kinds ++ [.symbol .closeParen])
  | relation op left right =>
      .symbol .openParen ::
        (left.kinds ++ .symbol op.sign :: (right.kinds ++ [.symbol .closeParen]))

/-- The text of a condition is cut into its tokens. -/
theorem cutAs (test : Condition) (worded : Worded test.idents test.literals) (rest : List Char) :
    CutAs test.kinds test.text.toList rest := by
  induction test generalizing rest with
  | or left right ihLeft ihRight =>
      obtain ⟨first, second⟩ := worded_append.mp worded
      have shown : (or left right).text.toList =
          '(' :: (left.text.toList ++ ' ' :: (Symbol.or.spelling ++
            ' ' :: (right.text.toList ++ [')']))) := by
        simp [text, Symbol.spelling]
      rw [shown]
      exact .operation .or (fun _ => ihLeft first _) fun _ => ihRight second _
  | and left right ihLeft ihRight =>
      obtain ⟨first, second⟩ := worded_append.mp worded
      have shown : (and left right).text.toList =
          '(' :: (left.text.toList ++ ' ' :: (Symbol.and.spelling ++
            ' ' :: (right.text.toList ++ [')']))) := by
        simp [text, Symbol.spelling]
      rw [shown]
      exact .operation .and (fun _ => ihLeft first _) fun _ => ihRight second _
  | not operand ih =>
      have shown : (not operand).text.toList =
          Symbol.not.spelling ++ '(' :: (operand.text.toList ++ [')']) := by
        simp [text, Symbol.spelling]
      rw [shown]
      apply CutAs.word (.symbol .not)
      · exact ⟨rfl, by simp [Symbol.spelling]⟩
      · exact .enclosed (fun _ => ih worded _) cutAs_nil
  | relation op left right =>
      obtain ⟨first, second⟩ := worded_append.mp worded
      have shown : (relation op left right).text.toList =
          '(' :: (left.text.toList ++ ' ' :: (op.sign.spelling ++
            ' ' :: (right.text.toList ++ [')']))) := by
        simp [text, op.text_sign]
      rw [shown]
      exact .operation op.sign (left.cutAs first) (right.cutAs second)

end Condition

end Expressions

section Statements

mutual

/-- The tokens of a statement as it is shown. -/
def Statement.kinds : Statement → List TokenKind
  | .assign target value =>
      .identifier target.name :: .symbol .assign :: (value.kinds ++ [.symbol .semicolon])
  | .input target => [.keyword .inputWord, .symbol .openParen, .identifier target.name,
      .symbol .closeParen, .symbol .semicolon]
  | .output value => .keyword .outputWord :: .symbol .openParen ::
      (value.kinds ++ [.symbol .closeParen, .symbol .semicolon])
  | .branch test yes no => .keyword .ifWord :: .symbol .openParen ::
      (test.kinds ++ .symbol .closeParen :: (yes.kinds ++ .keyword .elseWord :: no.kinds))
  | .loop test body => .keyword .whileWord :: .symbol .openParen ::
      (test.kinds ++ .symbol .closeParen :: body.kinds)
  | .block body => .symbol .openBrace :: (Statement.kindsOf body ++ [.symbol .closeBrace])

def Statement.kindsOf : List Statement → List TokenKind
  | [] => []
  | first :: later => first.kinds ++ Statement.kindsOf later

end

mutual

/-- A statement is cut into its tokens, whatever follows it. -/
theorem Statement.cutAs : ∀ (statement : Statement),
    Worded statement.idents statement.literals →
      ∀ rest, CutAs statement.kinds statement.text.toList rest
  | .assign target value, worded, rest => by
      have shown : (assign target value).text.toList =
          target.name.toList ++ ' ' :: '=' :: ' ' :: (value.text.toList ++ [';']) := by
        simp [text]
      have name := worded.names target List.mem_cons_self
      have inside : Worded value.idents value.literals :=
        ⟨(List.forall_mem_cons.mp worded.names).2, worded.constants⟩
      rw [shown]
      apply CutAs.word name (Closing.identifier (closing_cons (by decide)) _)
      apply CutAs.blank
      apply CutAs.sign .assign
      apply (value.cutAs inside (closing_cons (by decide))).append
      exact .mark rfl cutAs_nil
  | .input target, worded, rest => by
      have shown : (input target).text.toList =
          Keyword.inputWord.spelling.toList ++ '(' :: (target.name.toList ++ [')', ';']) := by
        simp [text, Keyword.spelling]
      have name := worded.names target List.mem_cons_self
      rw [shown]
      apply CutAs.word (.keyword .inputWord) (Closing.keyword (closing_cons (by decide)) _)
      exact .enclosed (fun closing => name.cutAs (closing.identifier _)) (.mark rfl cutAs_nil)
  | .output value, worded, rest => by
      have shown : (output value).text.toList =
          Keyword.outputWord.spelling.toList ++ '(' :: (value.text.toList ++ [')', ';']) := by
        simp [text, Keyword.spelling]
      rw [shown]
      apply CutAs.word (.keyword .outputWord) (Closing.keyword (closing_cons (by decide)) _)
      exact .enclosed (value.cutAs worded) (.mark rfl cutAs_nil)
  | .branch test yes no, worded, rest => by
      obtain ⟨both, second⟩ := worded_append.mp worded
      obtain ⟨tested, first⟩ := worded_append.mp both
      have shown : (branch test yes no).text.toList =
          Keyword.ifWord.spelling.toList ++ ' ' :: '(' :: (test.text.toList ++ ')' :: ' ' ::
            (yes.text.toList ++ ' ' :: (Keyword.elseWord.spelling.toList ++
              ' ' :: no.text.toList))) := by
        simp [text, Keyword.spelling]
      rw [shown]
      apply CutAs.word (.keyword .ifWord) (Closing.keyword (closing_cons (by decide)) _)
      apply CutAs.blank
      apply CutAs.enclosed fun _ => test.cutAs tested _
      apply CutAs.blank
      apply (yes.cutAs first _).append
      apply CutAs.blank
      apply CutAs.word (.keyword .elseWord) (Closing.keyword (closing_cons (by decide)) _)
      exact (no.cutAs second rest).blank
  | .loop test body, worded, rest => by
      obtain ⟨tested, inside⟩ := worded_append.mp worded
      have shown : (loop test body).text.toList =
          Keyword.whileWord.spelling.toList ++ ' ' :: '(' :: (test.text.toList ++ ')' :: ' ' ::
            body.text.toList) := by
        simp [text, Keyword.spelling]
      rw [shown]
      apply CutAs.word (.keyword .whileWord) (Closing.keyword (closing_cons (by decide)) _)
      apply CutAs.blank
      apply CutAs.enclosed fun _ => test.cutAs tested _
      exact (body.cutAs inside rest).blank
  | .block body, worded, rest => by
      have shown : (block body).text.toList =
          '\x7b' :: ((Statement.spaced body).toList ++ [' ', '\x7d']) := by
        simp [text]
      rw [shown]
      apply CutAs.mark rfl
      apply (Statement.spaced_cutAs body worded _).append
      exact .blank (.mark rfl cutAs_nil)

/-- The text of statements is cut into their tokens. -/
theorem Statement.spaced_cutAs : ∀ (body : List Statement),
    Worded (Statement.identsOf body) (Statement.literalsOf body) →
      ∀ rest, CutAs (Statement.kindsOf body) (Statement.spaced body).toList rest
  | [], _, _ => cutAs_nil
  | first :: later, worded, rest => by
      obtain ⟨own, others⟩ := worded_append.mp worded
      have shown : (Statement.spaced (first :: later)).toList =
          ' ' :: (first.text.toList ++ (Statement.spaced later).toList) := by
        simp [Statement.spaced]
      rw [shown]
      apply CutAs.blank
      exact (first.cutAs own _).append (Statement.spaced_cutAs later others rest)

end

end Statements

section Declarations

/-- The tokens of names as they are shown, with commas between them. -/
def Ident.kindsOf : List Ident → List TokenKind
  | [] => []
  | [ident] => [.identifier ident.name]
  | ident :: next :: later =>
      .identifier ident.name :: .symbol .comma :: Ident.kindsOf (next :: later)

/-- The text of a list of identifiers is cut into its tokens. -/
theorem Ident.cutAs {idents : List Ident}
    (names : ∀ ident ∈ idents, Spelling (.identifier ident.name) ident.name.toList)
    {rest : List Char} (closing : Closing rest) :
    CutAs (Ident.kindsOf idents) (", ".intercalate (idents.map Ident.name)).toList rest := by
  fun_induction Ident.kindsOf idents with
  | case1 => exact cutAs_nil
  | case2 ident => exact (names ident List.mem_cons_self).cutAs (closing.identifier ident.name)
  | case3 ident next later ih =>
      have own := names ident List.mem_cons_self
      have shown : (", ".intercalate ((ident :: next :: later).map Ident.name)).toList =
          ident.name.toList ++ ',' :: ' ' ::
            (", ".intercalate ((next :: later).map Ident.name)).toList := by
        simp
      rw [shown]
      apply CutAs.word own (Closing.identifier (closing_cons (by decide)) _)
      apply CutAs.mark rfl
      exact (ih (List.forall_mem_cons.mp names).2).blank

namespace Declaration

/-- The tokens of a declaration as it is shown. -/
def kinds (declaration : Declaration) : List TokenKind :=
  Ident.kindsOf declaration.idents ++
    [.symbol .colon, .keyword declaration.scalar.word, .symbol .semicolon]

/-- The text of a declaration is cut into its tokens. -/
theorem cutAs (declaration : Declaration)
    (names : ∀ ident ∈ declaration.idents, Spelling (.identifier ident.name) ident.name.toList)
    (rest : List Char) : CutAs declaration.kinds declaration.text.toList rest := by
  have typed : declaration.scalar.text = declaration.scalar.word.spelling := by
    cases declaration.scalar <;> rfl
  have shown : declaration.text.toList =
      (", ".intercalate (declaration.idents.map Ident.name)).toList ++
        ':' :: ' ' :: (declaration.scalar.word.spelling.toList ++ [';']) := by
    simp [text, typed]
  rw [shown]
  apply (Ident.cutAs names (closing_cons (by decide))).append
  apply CutAs.mark rfl
  apply CutAs.blank
  apply CutAs.word (.keyword declaration.scalar.word) (Closing.keyword (closing_cons (by decide)) _)
  exact .mark rfl cutAs_nil

/-- Declarations with blanks between them are cut into their tokens. -/
theorem joined_cutAs {declarations : List Declaration}
    (names : ∀ ident ∈ declarations.flatMap Declaration.idents,
      Spelling (.identifier ident.name) ident.name.toList) (rest : List Char) :
    CutAs (declarations.flatMap kinds) (" ".intercalate (declarations.map text)).toList rest := by
  induction declarations with
  | nil => exact cutAs_nil
  | cons first later ih =>
      rw [List.flatMap_cons, List.forall_mem_append] at names
      have own := first.cutAs names.1
      cases later with
      | nil =>
          rw [List.map_singleton, String.intercalate_singleton, List.flatMap_singleton]
          exact own rest
      | cons next others =>
          have shown : (" ".intercalate ((first :: next :: others).map text)).toList =
              first.text.toList ++ ' ' :: (" ".intercalate ((next :: others).map text)).toList := by
            simp
          rw [shown, List.flatMap_cons]
          exact (own _).append (ih names.2).blank

end Declaration

end Declarations

namespace Program

/-- A program as text: its declarations with blanks between them, something that separates them from
the body or nothing, and the body. -/
def text (program : Program) (gap : String) : String :=
  " ".intercalate (program.declarations.map Declaration.text) ++ gap ++ program.bodyText

/-- The tokens of a program as it is shown. -/
def kinds (program : Program) : List TokenKind :=
  program.declarations.flatMap Declaration.kinds ++ (Statement.block program.body).kinds

/-- The text of a program is cut into the tokens of its parts. -/
theorem tokens_text {program : Program} (worded : Worded program.idents program.literals)
    {gap : String} (filler : Filler gap.toList) :
    ∃ found, tokens (program.text gap) = .ok found ∧ found.map Token.kind = program.kinds := by
  have names := List.forall_mem_append.mp worded.names
  have inside : Worded (Statement.block program.body).idents
      (Statement.block program.body).literals := ⟨names.2, worded.constants⟩
  have shown : (program.text gap).toList =
      (" ".intercalate (program.declarations.map Declaration.text)).toList ++
        (gap.toList ++ (Statement.block program.body).text.toList) := by
    rw [text, bodyText, String.toList_append, String.toList_append, List.append_assoc]
  have cut : CutAs program.kinds (program.text gap).toList [] := by
    rw [shown]
    apply (Declaration.joined_cutAs names.1 _).append
    exact (cutAs_filler filler).append (Statement.cutAs _ inside [])
  obtain ⟨found, sameKinds, scanned⟩ := cut 0
  have ended (position : Nat) : scan position [] = [] := by rw [scan.eq_def]
  rw [List.append_nil, ended, List.append_nil] at scanned
  refine ⟨found, tokens_ok.mpr ⟨?_, ?_⟩, sameKinds⟩
  · rw [lexemes, scanned]
    simp [Lexeme.error?]
  · rw [lexemes, scanned, List.filterMap_map]
    exact List.filterMap_some

end Program

end Cpl
