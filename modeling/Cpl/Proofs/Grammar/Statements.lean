import Cpl.Proofs.Grammar.Expressions

namespace Cpl

namespace Grammar

/-- A name is read if an identifier is the first token. -/
theorem reads_identifier {stage : Stage} {tokens rest : List Token} {ident : Ident} :
    Reads (identifier stage tokens) ident rest ↔
      ∃ token name, tokens = token :: rest ∧ token.kind = .identifier name ∧
        ident = ⟨name, token.span⟩ := by
  simp only [identifier, reads_single, ident?_some]
  constructor
  · intro ⟨token, whole, name, named, same⟩
    exact ⟨token, name, whole, named, same⟩
  · intro ⟨token, name, whole, named, same⟩
    exact ⟨token, whole, name, named, same⟩

/-- One name. -/
def NamePhrase (tokens : List Token) (ident : Ident) : Prop :=
  ∃ token name, token.kind = .identifier name ∧ tokens = [token] ∧ ident = ⟨name, token.span⟩

/-- The reader of names reads all names and nothing else. -/
theorem identifier_exact (stage : Stage) (tokens : List Token) :
    Exact NamePhrase never tokens (identifier stage tokens) where
  sound read := by
    obtain ⟨token, name, rfl, named, rfl⟩ := reads_identifier.mp read
    exact ⟨[token], rfl, token, name, named, rfl, rfl⟩
  complete whole phrase _ := by
    obtain ⟨token, name, named, rfl, rfl⟩ := phrase
    exact reads_identifier.mpr ⟨token, name, whole, named, rfl⟩

/-- A semicolon ends an expression. -/
theorem semicolon_stops {token : Token} (ended : token.kind = .symbol .semicolon) :
    exprGoesOn token = false := by
  simp [exprGoesOn, termGoesOn, chainGoesOn, sumJoin?, productJoin?, ended, never]

section Parts
variable {Value : Type} {Phrase : List Token → Value → Prop} {goesOn : Token → Bool}

/-- A phrase and the semicolon after it, as a statement. -/
def EndedPhrase (Phrase : List Token → Value → Prop) (make : Value → Statement)
    (tokens : List Token) (statement : Statement) : Prop :=
  ∃ inner closing value, Phrase inner value ∧ closing.kind = .symbol .semicolon ∧
    tokens = inner ++ [closing] ∧ statement = make value

/-- A reader with a semicolon after it is exact if a semicolon stops it. -/
theorem ended_exact {limit : Nat} {tokens : List Token} {outcome : Outcome Value tokens.length}
    {below : ∀ (parsed : Parsed Value tokens.length) (closing : Parsed Unit parsed.rest.length),
      closing.rest.length < limit}
    (exact : Exact Phrase goesOn tokens outcome)
    (stopped : ∀ token : Token, token.kind = .symbol .semicolon → goesOn token = false)
    (make : Value → Statement) :
    Exact (EndedPhrase Phrase make) never tokens (show Outcome Statement limit from do
      let parsed ← outcome
      let closing ← symbol .semicolon .statementEnd parsed.rest
      return ⟨make parsed.value, closing.rest, below parsed closing⟩) where
  sound {statement rest} read := by
    obtain ⟨value, _, _, valueRead, read⟩ := reads_bind read
    obtain ⟨_, _, _, closeRead, read⟩ := reads_bind read
    obtain ⟨rfl, rfl⟩ := reads_pure.mp read
    obtain ⟨closing, rfl, ended⟩ := reads_symbol.mp closeRead
    obtain ⟨inner, whole, phrase⟩ := exact.sound valueRead
    exact ⟨inner ++ [closing], by simp [whole], inner, closing, value, phrase, ended, rfl, rfl⟩
  complete {statement read rest} whole phrase _ := by
    obtain ⟨inner, closing, value, phrase, ended, rfl, rfl⟩ := phrase
    rw [List.append_assoc] at whole
    apply (exact.complete whole phrase (stops_cons.mpr (stopped closing ended))).bind
    intro _
    apply (reads_symbol.mpr ⟨closing, rfl, ended⟩).bind
    exact fun _ => reads_pure.mpr ⟨rfl, rfl⟩

/-- The reader of inputs reads a name in parentheses. -/
theorem inputArgument_exact (tokens : List Token) :
    Exact (EndedPhrase (Enclosed NamePhrase) .input) never tokens (inputArgument tokens) :=
  ended_exact (enclosed_exact (fun inside _ => identifier_exact .argument inside) fun _ _ => rfl)
    (fun _ _ => rfl) .input

/-- The reader of outputs reads an expression in parentheses. -/
theorem outputArgument_exact (tokens : List Token) :
    Exact (EndedPhrase (Enclosed (ExprPhrase .expression)) .output) never tokens
      (outputArgument tokens) :=
  ended_exact (enclosed_exact (fun inside _ => expression_exact inside) expr_parenStops)
    (fun _ _ => rfl) .output

/-- What follows the target of an assignment. -/
def AssignmentPhrase (target : Ident) (tokens : List Token) (statement : Statement) : Prop :=
  ∃ sign later, sign.kind = .symbol .assign ∧
    EndedPhrase (ExprPhrase .expression) (.assign target) later statement ∧ tokens = sign :: later

/-- The reader of assignments reads an expression after the sign. -/
theorem assignment_exact (target : Ident) (tokens : List Token) :
    Exact (AssignmentPhrase target) never tokens (assignment target tokens) where
  sound {statement rest} read := by
    obtain ⟨_, _, _, signRead, read⟩ := reads_bind read
    obtain ⟨sign, rfl, signed⟩ := reads_symbol.mp signRead
    obtain ⟨later, rfl, phrase⟩ :=
      (ended_exact (expression_exact _) (fun _ => semicolon_stops) (.assign target)).sound read
    exact ⟨sign :: later, rfl, sign, later, signed, phrase, rfl⟩
  complete {statement read rest} whole phrase stopped := by
    obtain ⟨sign, later, signed, phrase, rfl⟩ := phrase
    apply (reads_symbol.mpr ⟨sign, whole, signed⟩).bind
    exact fun _ => (ended_exact (expression_exact _) (fun _ => semicolon_stops)
      (.assign target)).complete rfl phrase stopped

end Parts

section Blocks

/-- A statement starts with a token, and not with the brace that closes a block. -/
theorem StatementPhrase.head {tokens : List Token} {statement : Statement}
    (phrase : StatementPhrase tokens statement) :
    ∃ first more, tokens = first :: more ∧ first.kind ≠ .symbol .closeBrace := by
  cases phrase with
  | assign start | input start | output start | branch start | loop start | block start =>
      exact ⟨_, _, rfl, by simp [start]⟩

/-- Statements and the brace after them. -/
def BodyPhrase (tokens : List Token) (body : List Statement) : Prop :=
  ∃ (parts : List (List Token × Statement)) (closing : Token),
    (∀ part ∈ parts, StatementPhrase part.1 part.2) ∧ closing.kind = .symbol .closeBrace ∧
    tokens = (parts.map Prod.fst).flatten ++ [closing] ∧ body = parts.map Prod.snd

section Items
variable {limit : Nat} {item : Reader Statement limit}

/-- A block goes on with its next statement. -/
theorem blockRest_more {token : Token} {later middle rest : List Token}
    {within : (token :: later).length ≤ limit} {first : Statement} {body : List Statement}
    (different : token.kind ≠ .symbol .closeBrace)
    (read : Reads (item (token :: later) within) first middle)
    (more : ∀ below, Reads (blockRest limit item middle below) body rest) :
    Reads (blockRest limit item (token :: later) within) (first :: body) rest := by
  obtain ⟨shorter, done⟩ := read
  obtain ⟨_, below⟩ := more (Nat.le_trans (Nat.le_of_lt shorter) within)
  rw [blockRest, if_neg different]
  simp [done, below]

variable (each : ∀ inside within, Exact StatementPhrase never inside (item inside within))
include each

/-- Statements that are read to the end of a block are spelled by the tokens that are used. -/
theorem blockRest_sound {tokens rest : List Token} {within : tokens.length ≤ limit}
    {body : List Statement} (read : Reads (blockRest limit item tokens within) body rest) :
    ∃ used, tokens = used ++ rest ∧ BodyPhrase used body := by
  fun_induction blockRest limit item tokens within generalizing body rest with
  | case1 => exact absurd read reads_error
  | case2 token later within closed _ =>
      obtain ⟨rfl, rfl⟩ := reads_ok.mp read
      exact ⟨[token], rfl, [], token, by simp, closed, rfl, rfl⟩
  | case3 => exact absurd read reads_error
  | case4 => exact absurd read reads_error
  | case5 token later within different first found more below _ ih =>
      obtain ⟨rfl, rfl⟩ := reads_ok.mp read
      obtain ⟨used, whole, phrase⟩ := (each (token :: later) within).sound ⟨first.shorter, found⟩
      obtain ⟨_, rest, parts, closing, phrases, closed, rfl, same⟩ := ih ⟨more.shorter, below⟩
      refine ⟨(((used, first.value) :: parts).map Prod.fst).flatten ++ [closing], ?_,
        (used, first.value) :: parts, closing, ?_, closed, rfl, ?_⟩
      · simp [whole, rest]
      · exact List.forall_mem_cons.mpr ⟨phrase, phrases⟩
      · simp [same]

/-- Statements that are spelled before a closing brace are read to the end of a block, as none of
them starts with the brace. -/
theorem blockRest_complete (parts : List (List Token × Statement)) {closing : Token}
    {tokens rest : List Token} (phrases : ∀ part ∈ parts, StatementPhrase part.1 part.2)
    (closed : closing.kind = .symbol .closeBrace)
    (whole : tokens = (parts.map Prod.fst).flatten ++ closing :: rest)
    (within : tokens.length ≤ limit) :
    Reads (blockRest limit item tokens within) (parts.map Prod.snd) rest := by
  induction parts generalizing tokens with
  | nil =>
      have layout : tokens = closing :: rest := whole
      subst layout
      rw [blockRest, if_pos closed]
      exact reads_ok.mpr ⟨rfl, rfl⟩
  | cons part parts ih =>
      obtain ⟨phrase, others⟩ := List.forall_mem_cons.mp phrases
      obtain ⟨first, more, start, different⟩ := phrase.head
      rw [List.map_cons, List.flatten_cons, List.append_assoc] at whole
      have firstRead := (each tokens within).complete whole phrase (stops_never _)
      rw [start] at whole
      subst whole
      exact blockRest_more different firstRead fun below => ih others rfl below

/-- The reader of statements up to a brace is exact. -/
theorem blockRest_exact {tokens : List Token} (within : tokens.length ≤ limit) :
    Exact BodyPhrase never tokens (blockRest limit item tokens within) where
  sound := blockRest_sound each
  complete {body read rest} whole phrase _ := by
    obtain ⟨parts, closing, phrases, closed, rfl, rfl⟩ := phrase
    rw [List.append_assoc] at whole
    exact blockRest_complete each parts phrases closed whole within

end Items

section Step
variable {token : Token} {later rest : List Token} {result : Statement}
  (smaller : ∀ inside : List Token, inside.length ≤ later.length →
    Exact StatementPhrase never inside (statement inside))
include smaller

/-- What is read as a statement is one, if that holds for the statements inside it. -/
theorem statement_sound_step (read : Reads (statement (token :: later)) result rest) :
    ∃ used, token :: later = used ++ rest ∧ StatementPhrase used result := by
  rw [statement] at read
  split at read
  next name named =>
    obtain ⟨_, assignRead, rfl⟩ := (reads_map id).mp read
    obtain ⟨_, rfl, phrase⟩ := (assignment_exact _ _).sound assignRead
    obtain ⟨sign, _, signed, ⟨inner, closing, value, phrase, ended, rfl, rfl⟩, rfl⟩ := phrase
    exact ⟨_, rfl, .assign named signed phrase ended⟩
  next worded =>
    obtain ⟨_, inputRead, rfl⟩ := (reads_map id).mp read
    obtain ⟨_, rfl, _, ending, _, phrase, ended, rfl, rfl⟩ :=
      (inputArgument_exact _).sound inputRead
    obtain ⟨opening, _, closing, opened, ⟨target, name, named, rfl, rfl⟩, closed, rfl⟩ := phrase
    exact ⟨_, rfl, .input worded opened named closed ended⟩
  next worded =>
    obtain ⟨_, outputRead, rfl⟩ := (reads_map id).mp read
    obtain ⟨_, rfl, _, ending, _, phrase, ended, rfl, rfl⟩ :=
      (outputArgument_exact _).sound outputRead
    obtain ⟨opening, inner, closing, opened, phrase, closed, rfl⟩ := phrase
    refine ⟨token :: opening :: (inner ++ [closing, ending]), by simp, ?_⟩
    exact .output worded opened phrase closed ended
  next worded =>
    obtain ⟨test, afterTest, testShorter, testRead, read⟩ := reads_bind read
    obtain ⟨yes, afterYes, yesShorter, yesRead, read⟩ := reads_bind read
    obtain ⟨_, afterElse, elseShorter, elseRead, read⟩ := reads_bind read
    obtain ⟨no, _, _, noRead, read⟩ := reads_bind read
    obtain ⟨rfl, rfl⟩ := reads_pure.mp read
    have yesExact := smaller afterTest (Nat.le_of_lt testShorter)
    have noExact := smaller afterElse
      (Nat.le_of_lt (Nat.lt_trans elseShorter (Nat.lt_trans yesShorter testShorter)))
    obtain ⟨otherwise, rfl, separated⟩ := reads_keyword.mp elseRead
    obtain ⟨second, rfl, noPhrase⟩ := noExact.sound noRead
    obtain ⟨first, rfl, yesPhrase⟩ := yesExact.sound yesRead
    obtain ⟨_, rfl, opening, tests, closing, opened, phrase, closed, rfl⟩ :=
      (condition_exact _).sound testRead
    refine ⟨token :: opening :: (tests ++ closing :: (first ++ otherwise :: second)), by simp, ?_⟩
    exact .branch worded opened phrase closed yesPhrase separated noPhrase
  next worded =>
    obtain ⟨test, _, testShorter, testRead, read⟩ := reads_bind read
    obtain ⟨body, _, _, bodyRead, read⟩ := reads_bind read
    obtain ⟨rfl, rfl⟩ := reads_pure.mp read
    obtain ⟨inner, rfl, bodyPhrase⟩ := (smaller _ (Nat.le_of_lt testShorter)).sound bodyRead
    obtain ⟨_, rfl, opening, tests, closing, opened, phrase, closed, rfl⟩ :=
      (condition_exact _).sound testRead
    refine ⟨token :: opening :: (tests ++ closing :: inner), by simp, ?_⟩
    exact .loop worded opened phrase closed bodyPhrase
  next opened =>
    obtain ⟨_, bodyRead, rfl⟩ := (reads_map Statement.block).mp read
    obtain ⟨_, rfl, parts, closing, phrases, closed, rfl, rfl⟩ := blockRest_sound smaller bodyRead
    exact ⟨_, rfl, .block opened phrases closed⟩
  next => exact absurd read reads_error

/-- A statement is read as such, if that holds for the statements inside it. -/
theorem statement_complete_step {used : List Token} (whole : token :: later = used ++ rest)
    (phrase : StatementPhrase used result) : Reads (statement (token :: later)) result rest := by
  cases phrase with
  | @assign _ _ _ _ name _ named signed phrase ended =>
      obtain ⟨rfl, rfl⟩ := List.cons.inj whole
      have assignRead := (assignment_exact ⟨name, token.span⟩ _).complete rfl
        ⟨_, _, signed, ⟨_, _, _, phrase, ended, rfl, rfl⟩, rfl⟩ (stops_never rest)
      rw [statement]
      simp only [named]
      exact (reads_map id).mpr ⟨_, assignRead, rfl⟩
  | input worded opened named closed ended =>
      obtain ⟨rfl, rfl⟩ := List.cons.inj whole
      have inputRead := (inputArgument_exact _).complete rfl
        ⟨_, _, _, ⟨_, _, _, opened, ⟨_, _, named, rfl, rfl⟩, closed, rfl⟩, ended, rfl, rfl⟩
        (stops_never rest)
      rw [statement]
      simp only [worded]
      exact (reads_map id).mpr ⟨_, inputRead, rfl⟩
  | @output inner _ opening closing ending value worded opened phrase closed ended =>
      obtain ⟨rfl, rfl⟩ := List.cons.inj whole
      have layout : opening :: (inner ++ [closing, ending]) ++ rest =
          (opening :: (inner ++ [closing]) ++ [ending]) ++ rest := by simp
      have outputRead := (outputArgument_exact _).complete layout
        ⟨_, _, _, ⟨_, _, _, opened, phrase, closed, rfl⟩, ended, rfl, rfl⟩ (stops_never rest)
      rw [statement]
      simp only [worded]
      exact (reads_map id).mpr ⟨_, outputRead, rfl⟩
  | @branch tests first second _ opening closing otherwise _ _ _ worded opened phrase closed
      yesPhrase separated noPhrase =>
      obtain ⟨rfl, rfl⟩ := List.cons.inj whole
      have layout : opening :: (tests ++ closing :: (first ++ otherwise :: second)) ++ rest =
          opening :: (tests ++ [closing]) ++ (first ++ otherwise :: (second ++ rest)) := by simp
      rw [statement]
      simp only [worded]
      apply ((condition_exact _).complete layout ⟨_, _, _, opened, phrase, closed, rfl⟩
        (stops_never _)).bind
      intro testShorter
      apply ((smaller _ (Nat.le_of_lt testShorter)).complete rfl yesPhrase (stops_never _)).bind
      intro yesShorter
      apply (reads_keyword.mpr ⟨otherwise, rfl, separated⟩).bind
      intro elseShorter
      apply ((smaller _ (Nat.le_of_lt (Nat.lt_trans elseShorter
        (Nat.lt_trans yesShorter testShorter)))).complete rfl noPhrase (stops_never _)).bind
      exact fun _ => reads_pure.mpr ⟨rfl, rfl⟩
  | @loop tests inner _ opening closing _ _ worded opened phrase closed bodyPhrase =>
      obtain ⟨rfl, rfl⟩ := List.cons.inj whole
      have layout : opening :: (tests ++ closing :: inner) ++ rest =
          opening :: (tests ++ [closing]) ++ (inner ++ rest) := by simp
      rw [statement]
      simp only [worded]
      apply ((condition_exact _).complete layout ⟨_, _, _, opened, phrase, closed, rfl⟩
        (stops_never _)).bind
      intro testShorter
      apply ((smaller _ (Nat.le_of_lt testShorter)).complete rfl bodyPhrase (stops_never _)).bind
      exact fun _ => reads_pure.mpr ⟨rfl, rfl⟩
  | block opened phrases closed =>
      obtain ⟨rfl, rfl⟩ := List.cons.inj whole
      have bodyRead := (blockRest_exact smaller (Nat.le_refl _)).complete rfl
        ⟨_, _, phrases, closed, rfl, rfl⟩ (stops_never rest)
      rw [statement]
      simp only [opened]
      exact (reads_map Statement.block).mpr ⟨_, bodyRead, rfl⟩

end Step

/-- The reader of statements is exact. -/
theorem statement_exact : ∀ tokens, Exact StatementPhrase never tokens (statement tokens)
  | [] => by
      constructor
      · intro result rest read
        rw [statement] at read
        exact absurd read reads_error
      · intro result used rest whole phrase _
        obtain ⟨first, more, rfl, _⟩ := phrase.head
        cases whole
  | token :: later => by
      have smaller : ∀ inside : List Token, inside.length ≤ later.length →
          Exact StatementPhrase never inside (statement inside) :=
        fun inside _ => statement_exact inside
      exact ⟨statement_sound_step smaller, fun whole phrase _ =>
        statement_complete_step smaller whole phrase⟩
termination_by tokens => tokens.length
decreasing_by simp only [List.length_cons]; omega

end Blocks

end Grammar

end Cpl
