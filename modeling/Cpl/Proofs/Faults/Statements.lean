import Cpl.Proofs.Faults.Expressions
import Cpl.Proofs.Grammar.Statements

open Computability

namespace Cpl

namespace Grammar

section Statements

/-- The tokens that spell a statement. -/
abbrev statementWords : Language Token := spelled StatementPhrase

/-- Statements and the brace after them. -/
def bodyWords : Language Token := statementWords∗ * symbolWord .closeBrace

/-- What follows the first token of a statement. -/
def statementRest : TokenKind → Language Token
  | .identifier _ => symbolWord .assign * (exprWords * symbolWord .semicolon)
  | .keyword .inputWord => inParens nameWord * symbolWord .semicolon
  | .keyword .outputWord => inParens exprWords * symbolWord .semicolon
  | .keyword .ifWord =>
      inParens conditionWords * (statementWords * (keywordWord .elseWord * statementWords))
  | .keyword .whileWord => inParens conditionWords * statementWords
  | .symbol .openBrace => bodyWords
  | _ => 0

/-- What follows the first token of a statement is what its kind asks for. -/
theorem statementRest_of {token : Token} {more : List Token} {statement : Statement}
    (phrase : StatementPhrase (token :: more) statement) : more ∈ statementRest token.kind := by
  generalize whole : token :: more = tokens at phrase
  cases phrase with
  | assign named signed phrase ended =>
      obtain ⟨rfl, rfl⟩ := List.cons.inj whole
      rw [named]
      exact cons_mem_only_mul.mpr
        ⟨signed, mem_mul_only.mpr ⟨_, mem_spelled phrase, _, ended, rfl⟩⟩
  | input worded opened named closed ended =>
      obtain ⟨rfl, rfl⟩ := List.cons.inj whole
      have name : [_] ∈ nameWord := ⟨_, ⟨_, named⟩, rfl⟩
      rw [worded]
      exact mem_mul_only.mpr ⟨_, mem_inParens.mpr ⟨_, _, _, opened, name, closed, rfl⟩, _, ended, rfl⟩
  | output worded opened phrase closed ended =>
      obtain ⟨rfl, rfl⟩ := List.cons.inj whole
      have inside := mem_inParens.mpr ⟨_, _, _, opened, mem_spelled phrase, closed, rfl⟩
      rw [worded]
      exact mem_mul_only.mpr ⟨_, inside, _, ended, by simp⟩
  | branch worded opened phrase closed yesPhrase separated noPhrase =>
      obtain ⟨rfl, rfl⟩ := List.cons.inj whole
      have inside := mem_inParens.mpr ⟨_, _, _, opened, mem_spelled phrase, closed, rfl⟩
      have otherwise : _ ∈ keywordWord .elseWord * statementWords :=
        cons_mem_only_mul.mpr ⟨separated, mem_spelled noPhrase⟩
      have branches := Language.append_mem_mul (mem_spelled yesPhrase) otherwise
      rw [worded]
      exact Language.mem_mul.mpr ⟨_, inside, _, branches, by simp⟩
  | loop worded opened phrase closed bodyPhrase =>
      obtain ⟨rfl, rfl⟩ := List.cons.inj whole
      have inside := mem_inParens.mpr ⟨_, _, _, opened, mem_spelled phrase, closed, rfl⟩
      rw [worded]
      exact Language.mem_mul.mpr ⟨_, inside, _, mem_spelled bodyPhrase, by simp⟩
  | @block parts _ _ opened each closed =>
      obtain ⟨rfl, rfl⟩ := List.cons.inj whole
      rw [opened]
      exact mem_mul_only.mpr ⟨_, mem_kstar_spelled.mpr ⟨parts, each, rfl⟩, _, closed, rfl⟩

/-- A token with what its kind asks for is a statement. -/
theorem mem_statementWords {token : Token} {more : List Token}
    (member : more ∈ statementRest token.kind) : token :: more ∈ statementWords := by
  rw [statementRest.eq_def] at member
  split at member
  next name named =>
    obtain ⟨_, ⟨sign, signed, rfl⟩, _, rest, rfl⟩ := Language.mem_mul.mp member
    obtain ⟨inner, ⟨value, phrase⟩, closing, ended, rfl⟩ := mem_mul_only.mp rest
    exact ⟨_, .assign named signed phrase ended⟩
  next worded =>
    obtain ⟨_, inside, ending, ended, rfl⟩ := mem_mul_only.mp member
    obtain ⟨opening, _, closing, opened, ⟨target, ⟨name, named⟩, rfl⟩, closed, rfl⟩ :=
      mem_inParens.mp inside
    exact ⟨_, .input worded opened named closed ended⟩
  next worded =>
    obtain ⟨_, inside, ending, ended, rfl⟩ := mem_mul_only.mp member
    obtain ⟨opening, inner, closing, opened, ⟨value, phrase⟩, closed, rfl⟩ := mem_inParens.mp inside
    have output := StatementPhrase.output worded opened phrase closed ended
    exact ⟨_, by simpa using output⟩
  next worded =>
    obtain ⟨_, inside, _, branches, rfl⟩ := Language.mem_mul.mp member
    obtain ⟨opening, tests, closing, opened, ⟨test, phrase⟩, closed, rfl⟩ := mem_inParens.mp inside
    obtain ⟨first, ⟨yes, yesPhrase⟩, _, rest, rfl⟩ := Language.mem_mul.mp branches
    obtain ⟨_, ⟨otherwise, separated, rfl⟩, second, ⟨no, noPhrase⟩, rfl⟩ := Language.mem_mul.mp rest
    have branch := StatementPhrase.branch worded opened phrase closed yesPhrase separated noPhrase
    exact ⟨_, by simpa using branch⟩
  next worded =>
    obtain ⟨_, inside, inner, ⟨body, bodyPhrase⟩, rfl⟩ := Language.mem_mul.mp member
    obtain ⟨opening, tests, closing, opened, ⟨test, phrase⟩, closed, rfl⟩ := mem_inParens.mp inside
    have loop := StatementPhrase.loop worded opened phrase closed bodyPhrase
    exact ⟨_, by simpa using loop⟩
  next opened =>
    obtain ⟨_, inside, closing, closed, rfl⟩ := mem_mul_only.mp member
    obtain ⟨parts, each, rfl⟩ := mem_kstar_spelled.mp inside
    exact ⟨_, .block opened each closed⟩
  next => cases member

/-- What may follow the first token of a statement depends on its kind alone. -/
theorem statementWords_cons {token : Token} {kind : TokenKind} (same : token.kind = kind)
    (more : List Token) : token :: more ∈ statementWords ↔ more ∈ statementRest kind := by
  subst same
  exact ⟨fun ⟨_, phrase⟩ => statementRest_of phrase, mem_statementWords⟩

/-- Statements start with the tokens after which they can go on. -/
theorem statementWords_startsWith :
    StartsWith statementWords fun token => ∃ more, more ∈ statementRest token.kind := by
  rintro word ⟨statement, phrase⟩
  obtain ⟨token, more, rfl, _⟩ := phrase.head
  exact ⟨token, more, rfl, more, statementRest_of phrase⟩

/-- There are bodies. -/
theorem bodyWords_viable : Viable bodyWords [] :=
  (symbolWord_viable .closeBrace).mono kstar_mul_last

/-- There are statements. -/
theorem statementWords_viable : Viable statementWords [] := by
  obtain ⟨more, word⟩ := bodyWords_viable
  exact ⟨⟨.symbol .openBrace, .point 0⟩ :: more, mem_statementWords word⟩

/-- No body is empty, for it ends with a brace. -/
theorem bodyWords_nonempty : [] ∉ bodyWords := by
  intro empty
  obtain ⟨_, _, _, _, impossible⟩ := mem_mul_only.mp empty
  simp at impossible

/-- A reader with a semicolon after it pinpoints faults if a semicolon stops it. -/
theorem ended_pinpoints {Value : Type} {limit : Nat} {words : Language Token}
    {goesOn : Token → Bool} {tokens : List Token} {outcome : Outcome Value tokens.length}
    {below : ∀ (parsed : Parsed Value tokens.length) (closing : Parsed Unit parsed.rest.length),
      closing.rest.length < limit} (pinpoints : Pinpoints words goesOn tokens outcome)
    (stopped : ∀ token : Token, token.kind = .symbol .semicolon → goesOn token = false)
    (make : Value → Statement) :
    Pinpoints (words * symbolWord .semicolon) never tokens (show Outcome Statement limit from do
      let parsed ← outcome
      let closing ← symbol .semicolon .statementEnd parsed.rest
      return ⟨make parsed.value, closing.rest, below parsed closing⟩) := by
  apply pinpoints.bind ((only_startsWith _).follows stopped) (symbolWord_viable _)
  intro parsed
  exact (symbol_pinpoints .semicolon .statementEnd).map fun _ => make parsed.value

/-- Assignments pinpoint faults after their target. -/
theorem assignment_pinpoints (target : Ident) (tokens : List Token) :
    Pinpoints (symbolWord .assign * (exprWords * symbolWord .semicolon)) never tokens
      (assignment target tokens) := by
  apply (symbol_pinpoints .assign .assignment).bind (follows_never _ _)
    (exprWords_viable.mul (symbolWord_viable _))
  intro sign
  exact ended_pinpoints (expression_pinpoints sign.rest) (fun _ => semicolon_stops) (.assign target)

/-- Inputs pinpoint faults after their word. -/
theorem inputArgument_pinpoints (tokens : List Token) :
    Pinpoints (inParens nameWord * symbolWord .semicolon) never tokens (inputArgument tokens) :=
  ended_pinpoints (enclosed_pinpoints (fun _ _ => identifier_pinpoints .argument) (fun _ _ => rfl)
    nameWord_viable) (fun _ _ => rfl) .input

/-- Outputs pinpoint faults after their word. -/
theorem outputArgument_pinpoints (tokens : List Token) :
    Pinpoints (inParens exprWords * symbolWord .semicolon) never tokens (outputArgument tokens) :=
  ended_pinpoints (enclosed_pinpoints (fun inside _ => expression_pinpoints inside) expr_parenStops
    exprWords_viable) (fun _ _ => rfl) .output

/-- The brace ends a body. -/
theorem bodyWords_closed {token : Token} (closed : token.kind = .symbol .closeBrace)
    (more : List Token) : token :: more ∈ bodyWords ↔ more ∈ (1 : Language Token) := by
  rw [bodyWords, kstar_mul_eq]
  constructor
  · rintro (⟨_, _, same⟩ | member)
    · exact (List.cons.inj same).2
    · obtain ⟨word, ⟨statement, phrase⟩, later, _, same⟩ := Language.mem_mul.mp member
      obtain ⟨start, others, rfl, different⟩ := phrase.head
      obtain ⟨rfl, _⟩ := List.cons.inj same
      exact absurd closed different
  · rintro rfl
    exact .inl ⟨token, closed, rfl⟩

/-- Any other token goes on with a statement. -/
theorem bodyWords_open {token : Token} (different : token.kind ≠ .symbol .closeBrace)
    (more : List Token) (member : token :: more ∈ bodyWords) :
    token :: more ∈ statementWords * bodyWords := by
  rw [bodyWords, kstar_mul_eq] at member
  obtain ⟨_, closed, same⟩ | member := member
  · obtain ⟨rfl, _⟩ := List.cons.inj same
    exact absurd closed different
  · exact member

/-- Bodies pinpoint faults if the statements in them do. -/
theorem blockRest_pinpoints {limit : Nat} {item : Reader Statement limit} {tokens : List Token}
    {within : tokens.length ≤ limit}
    (each : ∀ inside within, Pinpoints statementWords never inside (item inside within)) :
    Pinpoints bodyWords never tokens (blockRest limit item tokens within) := by
  have nonempty (token : Token) (empty : [] ∈ bodyWords) : never token = true :=
    absurd empty bodyWords_nonempty
  have follows := follows_never bodyWords never
  fun_induction blockRest limit item tokens within with
  | case1 => exact pinpoints_error bodyWords_viable
  | case2 token later within closed =>
      exact (pinpoints_one never later _).cons (bodyWords_closed closed) (nonempty token)
  | case3 token later within different failure failed =>
      exact ((each _ _).before follows bodyWords_viable failed).ofHead kstar_mul_more
        (bodyWords_open different) (nonempty token)
  | case4 token later within different first found failure failed _ ih =>
      exact ((each _ _).after follows found (ih.error failed)).ofHead kstar_mul_more
        (bodyWords_open different) (nonempty token)
  | case5 token later within different first found body below _ ih =>
      exact ((each _ _).after follows found (ih.ok below _)).ofHead kstar_mul_more
        (bodyWords_open different) (nonempty token)

section Step
variable {token : Token} {later : List Token}
  (smaller : ∀ inside : List Token, inside.length ≤ later.length →
    Pinpoints statementWords never inside (statement inside))
include smaller

/-- Branches pinpoint faults after their word. -/
theorem branch_pinpoints (worded : token.kind = .keyword .ifWord) :
    Pinpoints (statementRest (.keyword .ifWord)) never later (statement (token :: later)) := by
  have otherwise := (keywordWord_viable .elseWord).mul statementWords_viable
  rw [statement]
  simp only [worded]
  apply (condition_pinpoints later).bind (follows_never _ _) (statementWords_viable.mul otherwise)
  intro test
  apply (smaller test.rest (Nat.le_of_lt test.shorter)).bind (follows_never _ _) otherwise
  intro yes
  apply (keyword_pinpoints .elseWord .elseBranch).bind (follows_never _ _) statementWords_viable
  intro word
  have below := Nat.lt_trans word.shorter (Nat.lt_trans yes.shorter test.shorter)
  exact (smaller word.rest (Nat.le_of_lt below)).map (Statement.branch test.value yes.value)

/-- Loops pinpoint faults after their word. -/
theorem loop_pinpoints (worded : token.kind = .keyword .whileWord) :
    Pinpoints (statementRest (.keyword .whileWord)) never later (statement (token :: later)) := by
  rw [statement]
  simp only [worded]
  apply (condition_pinpoints later).bind (follows_never _ _) statementWords_viable
  intro test
  exact (smaller test.rest (Nat.le_of_lt test.shorter)).map (Statement.loop test.value)

/-- A statement pinpoints faults if all statements in it do. -/
theorem statement_pinpoints_step :
    Pinpoints statementWords never (token :: later) (statement (token :: later)) := by
  have nonempty (empty : [] ∈ statementWords) : never token = true :=
    absurd empty statementWords_startsWith.nonempty
  by_cases branch : token.kind = .keyword .ifWord
  · exact (branch_pinpoints smaller branch).cons (statementWords_cons branch) nonempty
  by_cases loop : token.kind = .keyword .whileWord
  · exact (loop_pinpoints smaller loop).cons (statementWords_cons loop) nonempty
  rw [statement]
  split
  next name named =>
    exact ((assignment_pinpoints _ later).map id).cons (statementWords_cons named) nonempty
  next worded =>
    exact ((inputArgument_pinpoints later).map id).cons (statementWords_cons worded) nonempty
  next worded =>
    exact ((outputArgument_pinpoints later).map id).cons (statementWords_cons worded) nonempty
  next worded => exact absurd worded branch
  next worded => exact absurd worded loop
  next opened =>
    exact ((blockRest_pinpoints smaller).map Statement.block).cons (statementWords_cons opened)
      nonempty
  next noName noInput noOutput _ _ noBlock =>
    apply pinpoints_error
    apply stuck_start statementWords_viable statementWords_startsWith
    rintro ⟨more, member⟩
    rw [statementRest.eq_def] at member
    split at member
    next name named => exact noName name named
    next worded => exact noInput worded
    next worded => exact noOutput worded
    next worded => exact branch worded
    next worded => exact loop worded
    next opened => exact noBlock opened
    next => cases member

end Step

/-- The reader of statements pinpoints faults. -/
theorem statement_pinpoints : ∀ tokens, Pinpoints statementWords never tokens (statement tokens)
  | [] => by
      rw [statement]
      exact pinpoints_error statementWords_viable
  | token :: later => statement_pinpoints_step fun inside _ => statement_pinpoints inside
termination_by tokens => tokens.length
decreasing_by simp only [List.length_cons]; omega

end Statements

end Grammar

end Cpl
