import Cpl.Proofs.Faults.Statements
import Cpl.Proofs.Grammar.Programs

open Computability

namespace Cpl

namespace Grammar

section Declarations

/-- A token is a comma. -/
def isComma (token : Token) : Prop := token.kind = .symbol .comma

/-- The words that are the name of a type. -/
def typeWord : Language Token :=
  only fun token => ∃ scalar : Scalar, token.kind = .keyword scalar.word

/-- The tokens that spell a declaration. -/
abbrev declarationWords : Language Token := spelled DeclarationPhrase

/-- What follows the names of a declaration. -/
def declarationEnd : Language Token :=
  symbolWord .colon * (typeWord * symbolWord .semicolon)

/-- There are words for types. -/
theorem typeWord_viable : Viable typeWord [] :=
  only_viable ⟨.keyword .intWord, .point 0⟩ ⟨.int, rfl⟩

/-- There are ends of declarations. -/
theorem declarationEnd_viable : Viable declarationEnd [] :=
  (symbolWord_viable .colon).mul (typeWord_viable.mul (symbolWord_viable .semicolon))

/-- Names with commas before them are links of names. -/
theorem LaterIdents.inWords {tokens : List Token} {idents : List Ident}
    (later : LaterIdents tokens idents) : tokens ∈ links isComma nameWord := by
  induction later with
  | nil => exact links_nil
  | cons separated named _ ih =>
      exact (links_cons separated _).mpr (cons_mem_only_mul.mpr ⟨⟨_, named⟩, ih⟩)

/-- Links of names are names with commas before them. -/
theorem laterIdents_of {tokens : List Token} (member : tokens ∈ links isComma nameWord) :
    ∃ idents, LaterIdents tokens idents := by
  obtain ⟨parts, rfl, each⟩ := member
  induction parts with
  | nil => exact ⟨[], .nil⟩
  | cons part parts ih =>
      obtain ⟨member, others⟩ := List.forall_mem_cons.mp each
      obtain ⟨_, ⟨comma, separated, rfl⟩, _, ⟨token, ⟨name, named⟩, rfl⟩, rfl⟩ :=
        Language.mem_mul.mp member
      obtain ⟨idents, later⟩ := ih others
      exact ⟨_, .cons separated named later⟩

/-- A declaration is names with commas between them and what follows them. -/
theorem declarationWords_eq :
    declarationWords = nameWord * (links isComma nameWord * declarationEnd) := by
  ext tokens
  constructor
  · rintro ⟨_, ⟨names, separated, typed, ended⟩⟩
    obtain ⟨token, name, later, others, named, more, rfl, _⟩ := identsPhrase_iff.mp names
    have finish : [_, _, _] ∈ declarationEnd :=
      cons_mem_only_mul.mpr ⟨separated, cons_mem_only_mul.mpr ⟨⟨_, typed⟩, _, ended, rfl⟩⟩
    exact cons_mem_only_mul.mpr ⟨⟨name, named⟩, Language.append_mem_mul more.inWords finish⟩
  · intro member
    obtain ⟨_, ⟨token, ⟨name, named⟩, rfl⟩, _, rest, rfl⟩ := Language.mem_mul.mp member
    obtain ⟨later, commas, _, finish, rfl⟩ := Language.mem_mul.mp rest
    obtain ⟨_, ⟨colon, separated, rfl⟩, _, typing, rfl⟩ := Language.mem_mul.mp finish
    obtain ⟨_, ⟨word, ⟨scalar, typed⟩, rfl⟩, closing, ended, rfl⟩ := mem_mul_only.mp typing
    obtain ⟨others, more⟩ := laterIdents_of commas
    have names := identsPhrase_iff.mpr ⟨token, name, later, others, named, more, rfl, rfl⟩
    exact ⟨_, .declare names separated typed ended⟩

/-- The later names of a declaration pinpoint faults. -/
theorem laterIdents_pinpoints {limit : Nat} {tokens : List Token} (shorter : tokens.length < limit) :
    Pinpoints (links isComma nameWord) commaGoesOn tokens (laterIdents limit tokens shorter) := by
  have follows : Follows (links isComma nameWord) never commaGoesOn := follows_never _ _
  have goes {token : Token} (separated : isComma token) : commaGoesOn token = true :=
    decide_eq_true separated
  fun_induction laterIdents limit tokens shorter with
  | case1 => exact pinpoints_ok rfl links_nil (links_settled (by simp))
  | case2 comma later shorter separated failure failed =>
      exact ((identifier_pinpoints .declaration).before follows links_viable failed).cons
        (links_cons separated) fun _ => goes separated
  | case3 comma later shorter separated first found failure failed _ ih =>
      exact ((identifier_pinpoints .declaration).after follows found (ih.error failed)).cons
        (links_cons separated) fun _ => goes separated
  | case4 comma later shorter separated first found others below _ ih =>
      exact ((identifier_pinpoints .declaration).after follows found (ih.ok below _)).cons
        (links_cons separated) fun _ => goes separated
  | case5 token later shorter ended =>
      exact pinpoints_ok rfl links_nil (links_settled (by simpa [isComma] using ended))

/-- The reader of declarations pinpoints faults. -/
theorem declaration_pinpoints (tokens : List Token) :
    Pinpoints declarationWords never tokens (declaration tokens) := by
  have colonStops (token : Token) (separated : token.kind = .symbol .colon) :
      commaGoesOn token = false := by simp [commaGoesOn, separated]
  rw [declarationWords_eq]
  apply (identifier_pinpoints .declaration).bind (follows_never _ _)
    (links_viable.mul declarationEnd_viable)
  intro first
  apply (laterIdents_pinpoints _).bind ((only_startsWith _).mul.follows colonStops)
    declarationEnd_viable
  intro later
  apply (symbol_pinpoints .colon .declaration).bind (follows_never _ _)
    (typeWord_viable.mul (symbolWord_viable .semicolon))
  intro colon
  apply (single_pinpoints (fun token => by simp [scalar?_some]) typeWord_viable).bind
    (follows_never _ _) (symbolWord_viable .semicolon)
  intro scalar
  exact (symbol_pinpoints .semicolon .statementEnd).map fun _ =>
    Declaration.mk (first.value :: later.value) scalar.value

end Declarations

section Programs

/-- The tokens that spell a block. -/
def blockWords : Language Token := symbolWord .openBrace * bodyWords

/-- The tokens that spell a program. -/
abbrev programWords : Language Token := spelled ProgramPhrase

/-- There are blocks. -/
theorem blockWords_viable : Viable blockWords [] :=
  (symbolWord_viable .openBrace).mul bodyWords_viable

/-- Blocks pinpoint faults. -/
theorem block_pinpoints (tokens : List Token) :
    Pinpoints blockWords never tokens (block tokens) := by
  apply (symbol_pinpoints .openBrace .block).bind (follows_never _ _) bodyWords_viable
  intro opening
  exact (blockRest_pinpoints fun inside _ => statement_pinpoints inside).map id

/-- The words of blocks are those of statements that are blocks. -/
theorem mem_blockWords {tokens : List Token} :
    tokens ∈ blockWords ↔ ∃ body, StatementPhrase tokens (.block body) := by
  constructor
  · intro member
    obtain ⟨_, ⟨opening, opened, rfl⟩, _, body, rfl⟩ := Language.mem_mul.mp member
    obtain ⟨_, inside, closing, closed, rfl⟩ := mem_mul_only.mp body
    obtain ⟨parts, each, rfl⟩ := mem_kstar_spelled.mp inside
    exact ⟨_, .block opened each closed⟩
  · rintro ⟨body, phrase⟩
    cases phrase with
    | @block parts _ _ opened each closed =>
        exact cons_mem_only_mul.mpr ⟨opened, mem_mul_only.mpr
          ⟨_, mem_kstar_spelled.mpr ⟨parts, each, rfl⟩, _, closed, rfl⟩⟩

/-- A program is declarations and a block. -/
theorem programWords_eq : programWords = declarationWords∗ * blockWords := by
  ext tokens
  constructor
  · rintro ⟨_, @⟨parts, used, body, each, phrase⟩⟩
    exact Language.append_mem_mul (mem_kstar_spelled.mpr ⟨parts, each, rfl⟩)
      (mem_blockWords.mpr ⟨body, phrase⟩)
  · intro member
    obtain ⟨_, declared, used, isBlock, rfl⟩ := Language.mem_mul.mp member
    obtain ⟨parts, each, rfl⟩ := mem_kstar_spelled.mp declared
    obtain ⟨body, phrase⟩ := mem_blockWords.mp isBlock
    exact ⟨_, .program each phrase⟩

/-- There are programs. -/
theorem programWords_viable : Viable programWords [] := by
  rw [programWords_eq]
  exact blockWords_viable.mono kstar_mul_last

/-- No program is empty. -/
theorem programWords_nonempty : [] ∉ programWords := by
  intro empty
  rw [programWords_eq] at empty
  obtain ⟨_, _, used, isBlock, same⟩ := Language.mem_mul.mp empty
  obtain ⟨opening, later, rfl, _⟩ := (only_startsWith _).mul used isBlock
  cases (List.append_eq_nil_iff.mp same).2

/-- A declaration before a program makes a program. -/
theorem programWords_more : ∀ word ∈ declarationWords * programWords, word ∈ programWords := by
  rw [programWords_eq]
  exact kstar_mul_more

/-- A program that does not start with the brace of its block starts with a declaration. -/
theorem programWords_open {token : Token} (different : token.kind ≠ .symbol .openBrace)
    (more : List Token) (member : token :: more ∈ programWords) :
    token :: more ∈ declarationWords * programWords := by
  rw [programWords_eq, kstar_mul_eq] at member
  obtain isBlock | member := member
  · exact absurd (cons_mem_only_mul.mp isBlock).1 different
  · rw [programWords_eq]
    exact member

/-- The brace of the block ends the declarations. -/
theorem programWords_closed {token : Token} (opened : token.kind = .symbol .openBrace)
    (more : List Token) (member : token :: more ∈ programWords) : token :: more ∈ blockWords := by
  rw [programWords_eq, kstar_mul_eq] at member
  obtain isBlock | member := member
  · exact isBlock
  · obtain ⟨_, ⟨declaration, phrase⟩, later, _, same⟩ := Language.mem_mul.mp member
    obtain ⟨first, others, rfl, different⟩ := phrase.head
    rw [(List.cons.inj same).1] at different
    exact absurd opened different

section Stuck
variable {token : Token} {later : List Token} {goesOn : Token → Bool} {found : Option Token}

/-- A program that does not start with its block is stuck where its declarations are. -/
theorem Stuck.declares (different : token.kind ≠ .symbol .openBrace)
    (stuck : Stuck (declarationWords * programWords) goesOn (token :: later) found) :
    Stuck programWords goesOn (token :: later) found :=
  stuck.ofHead programWords_more (programWords_open different) fun empty =>
    absurd empty programWords_nonempty

/-- A program is stuck after its first declaration where the rest is. -/
theorem Stuck.declared {first : Parsed Declaration (token :: later).length}
    (different : token.kind ≠ .symbol .openBrace) (read : declaration (token :: later) = .ok first)
    (stuck : Stuck programWords goesOn first.rest found) :
    Stuck programWords goesOn (token :: later) found := by
  obtain ⟨used, word, whole, settled⟩ := (declaration_pinpoints _).reads ⟨first.shorter, read⟩
  apply Stuck.declares different
  rw [whole]
  exact stuck.inSecond word settled (follows_never _ _)

/-- Where declarations are not read, no program is. -/
theorem declarations_fails {tokens : List Token} {failure : Failure}
    (failed : declarations tokens = .error failure) :
    Stuck programWords never tokens failure.found := by
  fun_induction declarations tokens with
  | case1 =>
      cases failed
      exact programWords_viable
  | case2 => cases failed
  | case3 token later different failure wrong =>
      cases failed
      exact .declares different
        (((declaration_pinpoints _).fails wrong).inFirst (follows_never _ _) programWords_viable)
  | case4 token later different first read failure wrong ih =>
      cases failed
      exact .declared different read (ih wrong)
  | case5 => cases failed

/-- Where the block after the declarations is stuck, the program is. -/
theorem declarations_then {tokens rest : List Token} {declared : List Declaration}
    (read : declarations tokens = .ok (declared, rest)) (stuck : Stuck blockWords goesOn rest found) :
    Stuck programWords goesOn tokens found := by
  fun_induction declarations tokens generalizing declared with
  | case1 => cases read
  | case2 token later opened =>
      cases read
      apply stuck.ofHead _ (programWords_closed opened) fun empty =>
        absurd empty programWords_nonempty
      rw [programWords_eq]
      exact kstar_mul_last
  | case3 => cases read
  | case4 => cases read
  | case5 token later different first done others body below ih =>
      cases read
      exact .declared different done (ih below)

end Stuck

/-- Every token goes on: nothing may follow. -/
def always (_ : Token) : Bool := true

/-- Only the end of all tokens stops what goes on with every token. -/
theorem stops_always {rest : List Token} (stopped : Stops always rest) : rest = [] := by
  cases rest with
  | nil => rfl
  | cons token later => cases stopped token rfl

/-- A token after a whole word. -/
theorem Settled.leftover {words : Language Token} {used rest : List Token} {token : Token}
    (member : used ∈ words) (settled : Settled words never used (token :: rest)) :
    Stuck words always (used ++ token :: rest) (some token) := by
  refine ⟨used, rest, rfl, ⟨[], by rwa [List.append_nil]⟩, ?_⟩
  intro more read later same word stopped
  have sameHead : (token :: more).head? = (token :: rest).head? := rfl
  have whole : used = read := settled sameHead word (stops_never later) same
  subst whole
  rw [stops_always stopped] at same
  cases List.append_cancel_left same

/-- Where reading a program fails, no program is spelled. -/
theorem program_fails {tokens : List Token} {failure : Failure}
    (failed : Grammar.program tokens = .error failure) :
    Stuck programWords always tokens failure.found := by
  rw [Grammar.program] at failed
  cases read : declarations tokens with
  | error wrong =>
      rw [read] at failed
      cases failed
      exact (declarations_fails read).mono fun rest _ => stops_never rest
  | ok pair =>
      obtain ⟨declared, rest⟩ := pair
      apply declarations_then read
      rw [read] at failed
      change (block rest >>= _) = _ at failed
      cases body : block rest with
      | error wrong =>
          rw [body] at failed
          cases failed
          exact ((block_pinpoints rest).fails body).mono fun rest _ => stops_never rest
      | ok parsed =>
          obtain ⟨statements, left, shorter⟩ := parsed
          obtain ⟨used, member, whole, settled⟩ := (block_pinpoints rest).reads ⟨shorter, body⟩
          rw [body] at failed
          cases left with
          | nil => cases failed
          | cons token more =>
              cases failed
              rw [whole]
              exact settled.leftover member

end Programs

/-- Tokens make no program exactly if the reader of programs fails. -/
theorem ofTokens_error {tokens : List Token} {error : SyntaxError} :
    Program.ofTokens tokens = .error error ↔
      ∃ failure, Grammar.program tokens = .error failure ∧
        SyntaxError.ofFailure tokens failure = error := by
  rw [Program.ofTokens]
  cases Grammar.program tokens <;> simp [Except.mapError]

/-- Where the last token stops. -/
def lastStop (tokens : List Token) : Nat := (tokens.getLast?.map fun last => last.span.stop).getD 0

/-- A failure at the end of the tokens is placed where they stop. -/
theorem ofFailure_end {tokens : List Token} {failure : Failure} (ended : failure.found = none) :
    (SyntaxError.ofFailure tokens failure).span = .point (lastStop tokens) := by
  rw [SyntaxError.ofFailure, ended, lastStop]
  cases tokens.getLast? <;> rfl

/-- A failure at a token is reported at its place. -/
theorem ofFailure_token {tokens : List Token} {failure : Failure} {token : Token}
    (found : failure.found = some token) : (SyntaxError.ofFailure tokens failure).span = token.span := by
  rw [SyntaxError.ofFailure, found]

/-- A syntax error is placed at one of the tokens, or where they stop. -/
theorem ofTokens_span {tokens : List Token} {error : SyntaxError}
    (failed : Program.ofTokens tokens = .error error) :
    (∃ token ∈ tokens, error.span = token.span) ∨ error.span = .point (lastStop tokens) := by
  obtain ⟨failure, wrong, rfl⟩ := ofTokens_error.mp failed
  cases found : failure.found with
  | none => exact .inr (ofFailure_end found)
  | some token =>
      have stuck := program_fails wrong
      rw [found] at stuck
      obtain ⟨before, after, rfl, _⟩ := stuck
      exact .inl ⟨token, List.mem_append_right _ List.mem_cons_self, ofFailure_token found⟩

/-- Some program starts with the tokens. -/
def StartsProgram (tokens : List Token) : Prop :=
  ∃ more program, ProgramPhrase (tokens ++ more) program

/-- Tokens that are no program are at fault from the first one on with which no program starts, or
end before a program that they start does. -/
theorem ofTokens_fault {tokens : List Token} {error : SyntaxError}
    (failed : Program.ofTokens tokens = .error error) :
    match error.found with
    | some token => error.span = token.span ∧ ∃ index, tokens[index]? = some token ∧
        StartsProgram (tokens.take index) ∧ ¬StartsProgram (tokens.take (index + 1))
    | none => error.span = .point (lastStop tokens) ∧ StartsProgram tokens ∧
        ∀ program, ¬ProgramPhrase tokens program := by
  obtain ⟨failure, wrong, rfl⟩ := ofTokens_error.mp failed
  have stuck := program_fails wrong
  rw [show (SyntaxError.ofFailure tokens failure).found = failure.found from rfl]
  cases found : failure.found with
  | some token =>
      rw [found] at stuck
      obtain ⟨before, after, rfl, viable, blocks⟩ := stuck
      refine ⟨ofFailure_token found, before.length, by simp, ?_, ?_⟩
      · rw [List.take_left]
        exact viable
      · rw [List.take_append, List.take_of_length_le (Nat.le_succ _), Nat.add_sub_cancel_left]
        rintro ⟨more, program, phrase⟩
        have whole : before ++ token :: more = (before ++ [token] ++ more) ++ [] := by simp
        exact blocks whole ⟨program, phrase⟩ stops_nil
  | none =>
      rw [found] at stuck
      refine ⟨ofFailure_end found, stuck, ?_⟩
      intro program phrase
      cases wrong.symm.trans (program_iff_phrase.mpr phrase)

/-- A statement without its semicolon, before the brace that closes the block and at the end. -/
theorem missingSemicolon_fault :
    let mark (symbol : Symbol) (place : Nat) : Token := ⟨.symbol symbol, ⟨place, place + 1⟩⟩
    let start := [mark .openBrace 0, ⟨.keyword .inputWord, ⟨1, 6⟩⟩, mark .openParen 6,
      ⟨.identifier "x", ⟨7, 8⟩⟩, mark .closeParen 8]
    let closing := mark .closeBrace 9
    Program.ofTokens (start ++ [closing]) = .error ⟨.statementEnd, some closing, ⟨9, 10⟩⟩ ∧
      (∃ index, (start ++ [closing])[index]? = some closing ∧
        StartsProgram ((start ++ [closing]).take index) ∧
        ¬StartsProgram ((start ++ [closing]).take (index + 1))) ∧
      Program.ofTokens start = .error ⟨.statementEnd, none, .point 9⟩ ∧ StartsProgram start := by
  intro mark start closing
  have stopped : Program.ofTokens (start ++ [closing]) =
    .error ⟨.statementEnd, some closing, ⟨9, 10⟩⟩ := by cbv
  have ended : Program.ofTokens start = .error ⟨.statementEnd, none, .point 9⟩ := by cbv
  exact ⟨stopped, (ofTokens_fault stopped).2, ended, (ofTokens_fault ended).2.1⟩

end Grammar

end Cpl
