import Cpl.Program.Grammar

namespace Cpl

namespace Grammar

/-- Reading that takes tokens from the front and may fail. There is no answer where a bound is
exhausted. -/
def Descent (Value : Type) : Type := List Token → Option (Except Failure (Value × List Token))

namespace Descent

instance : Monad Descent where
  pure value tokens := some (.ok (value, tokens))
  bind first next tokens :=
    match first tokens with
    | some (.ok (value, rest)) => next value rest
    | some (.error failure) => some (.error failure)
    | none => none

section Steps
variable {Value : Type}

def exhausted : Descent Value := fun _ => none

def fail (failure : Failure) : Descent Value := fun _ => some (.error failure)

/-- The next token, which is left where it is. -/
def peek : Descent (Option Token) := fun tokens => some (.ok (tokens.head?, tokens))

/-- Takes the next token, if there is one. -/
def advance : Descent Unit := fun tokens => some (.ok ((), tokens.tail))

/-- The next token, which has to be there and is left where it is. -/
def required (stage : Stage) : Descent Token := do
  match ← peek with
  | some token => return token
  | none => fail ⟨stage, none⟩

/-- Takes a token that has to be there. -/
def next (stage : Stage) : Descent Token := do
  let token ← required stage
  advance
  return token

def nextIs (mark : Symbol) : Descent Bool := do
  return (← peek).any fun token => token.kind = .symbol mark

/-- Takes the next token if it is a symbol, and says whether it was. -/
def recognise (mark : Symbol) : Descent Bool := do
  if ← nextIs mark then do
    advance
    return true
  else return false

/-- Takes a token that has to fit. -/
def expect (stage : Stage) (read : Token → Option Value) : Descent Value := do
  let token ← next stage
  match read token with
  | some value => return value
  | none => fail ⟨stage, some token⟩

def symbol (mark : Symbol) (stage : Stage) : Descent Unit :=
  expect stage fun token => if token.kind = .symbol mark then some () else none

def keyword (word : Keyword) (stage : Stage) : Descent Unit :=
  expect stage fun token => if token.kind = .keyword word then some () else none

def identifier (stage : Stage) : Descent Ident := expect stage ident?

def enclosed (stage : Stage) (inner : Descent Value) : Descent Value := do
  symbol .openParen stage
  let content ← inner
  symbol .closeParen stage
  return content

/-- The loop over the operators of a chain. -/
def links (join : Token → Option (Value → Value → Value)) (operand : Descent Value) :
    (rounds : Nat) → Value → Descent Value
  | 0, _ => exhausted
  | rounds + 1, left => do
      match (← peek).bind join with
      | none => return left
      | some combine =>
          advance
          let right ← operand
          links join operand rounds (combine left right)

def chain (join : Token → Option (Value → Value → Value)) (operand : Descent Value)
    (rounds : Nat) : Descent Value := do
  let first ← operand
  links join operand rounds first

end Steps

mutual

/-- Expressions. A procedure leaves one depth less to the calls inside it, and its loop may go as
many rounds. -/
def expression : (depth : Nat) → Descent Expr
  | 0 => exhausted
  | depth + 1 => chain sumJoin? (term depth) depth

def term : (depth : Nat) → Descent Expr
  | 0 => exhausted
  | depth + 1 => chain productJoin? (factor depth) depth

def factor : (depth : Nat) → Descent Expr
  | 0 => exhausted
  | depth + 1 => do
      let token ← next .expression
      match token.kind with
      | .identifier name => return .identifier ⟨name, token.span⟩
      | .literal value => return .literal value
      | .symbol .openParen => do
          let inner ← expression depth
          symbol .closeParen .parenthesisEnd
          return inner
      | .keyword .castInt => cast depth .int
      | .keyword .castFloat => cast depth .float
      | _ => fail ⟨.expression, some token⟩

def cast : (depth : Nat) → Scalar → Descent Expr
  | 0, _ => exhausted
  | depth + 1, target => do
      let operand ← enclosed .cast (expression depth)
      return .cast target operand

end

def comparison (depth : Nat) : Descent Condition := do
  let left ← expression depth
  let op ← expect .relation relOp?
  let right ← expression depth
  return .relation op left right

mutual

def disjunction : (depth : Nat) → Descent Condition
  | 0 => exhausted
  | depth + 1 => chain orJoin? (conjunction depth) depth

def conjunction : (depth : Nat) → Descent Condition
  | 0 => exhausted
  | depth + 1 => chain andJoin? (conditionFactor depth) depth

def conditionFactor : (depth : Nat) → Descent Condition
  | 0 => exhausted
  | depth + 1 => do
      if ← recognise .not then do
        let inner ← enclosed .negation (disjunction depth)
        return .not inner
      else comparison depth

end

def condition (depth : Nat) : Descent Condition := enclosed .condition (disjunction depth)

def assignment (depth : Nat) : Descent Statement := do
  let target ← identifier .assignment
  symbol .assign .assignment
  let value ← expression depth
  symbol .semicolon .statementEnd
  return .assign target value

def input : Descent Statement := do
  keyword .inputWord .statement
  let target ← enclosed .argument (identifier .argument)
  symbol .semicolon .statementEnd
  return .input target

def output (depth : Nat) : Descent Statement := do
  keyword .outputWord .statement
  let value ← enclosed .argument (expression depth)
  symbol .semicolon .statementEnd
  return .output value

/-- The loop over the statements of a block. -/
def items (item : Descent Statement) : (rounds : Nat) → Descent (List Statement)
  | 0 => exhausted
  | rounds + 1 => do
      if ← recognise .closeBrace then return []
      else do
        let _ ← required .block
        let first ← item
        let later ← items item rounds
        return first :: later

mutual

def statement : (depth : Nat) → Descent Statement
  | 0 => exhausted
  | depth + 1 => do
      let token ← required .statement
      match token.kind with
      | .identifier _ => assignment depth
      | .keyword .inputWord => input
      | .keyword .outputWord => output depth
      | .keyword .ifWord => do
          keyword .ifWord .statement
          let test ← condition depth
          let yes ← statement depth
          keyword .elseWord .elseBranch
          let no ← statement depth
          return .branch test yes no
      | .keyword .whileWord => do
          keyword .whileWord .statement
          let test ← condition depth
          let body ← statement depth
          return .loop test body
      | .symbol .openBrace => do
          let body ← block depth
          return .block body
      | _ => fail ⟨.statement, some token⟩

def block : (depth : Nat) → Descent (List Statement)
  | 0 => exhausted
  | depth + 1 => do
      symbol .openBrace .block
      items (statement depth) depth

end

/-- The loop over the names of a declaration. -/
def laterIdents : (rounds : Nat) → Descent (List Ident)
  | 0 => exhausted
  | rounds + 1 => do
      if ← recognise .comma then do
        let first ← identifier .declaration
        let later ← laterIdents rounds
        return first :: later
      else return []

def declaration (depth : Nat) : Descent Declaration := do
  let first ← identifier .declaration
  let later ← laterIdents depth
  symbol .colon .declaration
  let scalar ← expect .typeName scalar?
  symbol .semicolon .statementEnd
  return ⟨first :: later, scalar⟩

/-- The loop over the declarations of a program. -/
def declarations (depth : Nat) : (rounds : Nat) → Descent (List Declaration)
  | 0 => exhausted
  | rounds + 1 => do
      if ← nextIs .openBrace then return []
      else do
        let first ← declaration depth
        let later ← declarations depth rounds
        return first :: later

def program (depth : Nat) : Descent Program := do
  let declared ← declarations depth depth
  let body ← block depth
  match ← peek with
  | none => return ⟨declared, body⟩
  | some token => fail ⟨.programEnd, some token⟩

/-- The program that tokens spell, or the first place where they do not, if the depth is enough. -/
def ofTokens (depth : Nat) (tokens : List Token) : Option (Except SyntaxError Program) :=
  (program depth tokens).map fun answer =>
    (answer.map Prod.fst).mapError (SyntaxError.ofFailure tokens)

end Descent

/-- What a reader answers, without the bound on what is left. -/
def result {Value : Type} {limit : Nat} (outcome : Outcome Value limit) :
    Except Failure (Value × List Token) :=
  outcome.map fun parsed => (parsed.value, parsed.rest)

/-- A descent ends with what a reader answers. -/
def Agrees {Value : Type} {limit : Nat} (descent : Descent Value) (tokens : List Token)
    (outcome : Outcome Value limit) : Prop :=
  descent tokens = some (result outcome)

section Steps
variable {First Second : Type} {limit other : Nat} {tokens rest : List Token}

theorem agrees_pure {value : First} {shorter : rest.length < limit} :
    Agrees (pure value) rest (pure ⟨value, rest, shorter⟩ : Outcome First limit) := rfl

/-- Two steps run one after the other, and the first failure or lack of depth ends them. -/
theorem bind_run {first : Descent First} {next : First → Descent Second} :
    (first >>= next) tokens = match first tokens with
      | some (.ok (value, rest)) => next value rest
      | some (.error failure) => some (.error failure)
      | none => none := rfl

/-- Descents agree with readers one step after another. -/
theorem Agrees.bind {first : Descent First} {outcome : Outcome First limit}
    {next : First → Descent Second} {more : Parsed First limit → Outcome Second other}
    (agrees : Agrees first tokens outcome)
    (later : ∀ parsed, Agrees (next parsed.value) parsed.rest (more parsed)) :
    Agrees (first >>= next) tokens (outcome >>= more) := by
  rw [Agrees, bind_run, agrees]
  cases outcome with
  | error failure => rfl
  | ok parsed => exact later parsed

/-- A reader may leave fewer tokens than it has to. -/
theorem Agrees.relax {descent : Descent First} {outcome : Outcome First limit}
    (agrees : Agrees descent tokens outcome)
    {below : ∀ parsed : Parsed First limit, parsed.rest.length < other} :
    Agrees descent tokens (outcome >>= fun parsed =>
      (pure ⟨parsed.value, parsed.rest, below parsed⟩ : Outcome First other)) := by
  rw [Agrees, agrees]
  cases outcome <;> rfl

/-- A step that takes a token agrees if the rest does after it. -/
theorem agrees_next {stage : Stage} {token : Token} {more : Token → Descent First}
    {outcome : Outcome First limit} (agrees : Agrees (more token) rest outcome) :
    Agrees (Descent.next stage >>= more) (token :: rest) outcome := agrees

/-- A step that only looks at a token agrees if the rest does from it on. -/
theorem agrees_required {stage : Stage} {token : Token} {more : Token → Descent First}
    {outcome : Outcome First limit} (agrees : Agrees (more token) (token :: rest) outcome) :
    Agrees (Descent.required stage >>= more) (token :: rest) outcome := agrees

theorem peek_bind {more : Option Token → Descent First} :
    (Descent.peek >>= more) tokens = more tokens.head? tokens := rfl

theorem nextIs_bind {mark : Symbol} {more : Bool → Descent First} :
    (Descent.nextIs mark >>= more) tokens =
      more (tokens.head?.any fun token => token.kind = .symbol mark) tokens := rfl

/-- A symbol is taken if it comes next, and nothing is taken otherwise. -/
theorem recognise_run {mark : Symbol} :
    Descent.recognise mark tokens =
      if tokens.head?.any fun token => token.kind = .symbol mark then some (.ok (true, tokens.tail))
      else some (.ok (false, tokens)) := by
  rw [Descent.recognise, nextIs_bind]
  cases tokens.head?.any fun token => token.kind = .symbol mark <;> rfl

/-- A symbol that is there is taken. -/
theorem agrees_recognise {mark : Symbol} {token : Token} {more : Bool → Descent First}
    {outcome : Outcome First limit} (there : token.kind = .symbol mark)
    (agrees : Agrees (more true) rest outcome) :
    Agrees (Descent.recognise mark >>= more) (token :: rest) outcome := by
  rw [Agrees, bind_run, recognise_run, if_pos (by simpa using there)]
  exact agrees

/-- A symbol that is not there is not taken. -/
theorem agrees_skip {mark : Symbol} {more : Bool → Descent First} {outcome : Outcome First limit}
    (missing : ∀ token ∈ tokens.head?, token.kind ≠ .symbol mark)
    (agrees : Agrees (more false) tokens outcome) :
    Agrees (Descent.recognise mark >>= more) tokens outcome := by
  have absent : tokens.head?.any (fun token => token.kind = .symbol mark) = false := by
    cases tokens with
    | nil => rfl
    | cons token rest => simpa using missing
  rw [Agrees, bind_run, recognise_run, absent]
  exact agrees

/-- Both readers take the same single tokens. -/
theorem agrees_expect (stage : Stage) (read : Token → Option First) (tokens : List Token) :
    Agrees (Descent.expect stage read) tokens (single stage read tokens) := by
  cases tokens with
  | nil => rfl
  | cons token rest =>
      rw [Descent.expect, single]
      refine agrees_next ?_
      cases read token <;> rfl

/-- A token that fits is taken. -/
theorem agrees_take {stage : Stage} {read : Token → Option First} {token : Token} {value : First}
    {next : First → Descent Second} {outcome : Outcome Second limit}
    (fits : read token = some value) (agrees : Agrees (next value) rest outcome) :
    Agrees (Descent.expect stage read >>= next) (token :: rest) outcome := by
  have taken := agrees_expect stage read (token :: rest)
  rw [single, fits] at taken
  rw [Agrees, bind_run, taken]
  exact agrees

end Steps

section Chains
variable {Value : Type} {join : Token → Option (Value → Value → Value)} {descent : Descent Value}

/-- Both readers read the same in parentheses. -/
theorem enclosed_agrees {stage : Stage} {tokens : List Token} {inner : Reader Value tokens.length}
    (each : ∀ inside within, Agrees descent inside (inner inside within)) :
    Agrees (Descent.enclosed stage descent) tokens (enclosed stage tokens inner) := by
  apply (agrees_expect _ _ _).bind
  intro opening
  apply (each _ _).bind
  intro content
  apply (agrees_expect _ _ _).bind
  exact fun _ => agrees_pure

/-- A chain ends before a token that joins nothing. -/
theorem links_end {rounds : Nat} {left : Value} {tokens : List Token}
    (ended : tokens.head?.bind join = none) :
    Descent.links join descent (rounds + 1) left tokens = some (.ok (left, tokens)) := by
  rw [Descent.links, peek_bind, ended]
  rfl

/-- An operator is followed by an operand and the rest of the chain. -/
theorem links_more {rounds : Nat} {left : Value} {token : Token} {rest : List Token}
    {combine : Value → Value → Value} (joined : join token = some combine) :
    Descent.links join descent (rounds + 1) left (token :: rest) =
      (descent >>= fun right => Descent.links join descent rounds (combine left right)) rest := by
  rw [Descent.links, peek_bind, List.head?_cons, Option.bind_some, joined]
  rfl

/-- The rest of a chain is an operand after its operator, and what follows. -/
theorem chainTail_bind {limit : Nat} {operand : Reader Value limit} {left : Value} {token : Token}
    {rest : List Token} {combine : Value → Value → Value} {shorter : (token :: rest).length < limit}
    (joined : join token = some combine) :
    chainTail join limit operand left (token :: rest) shorter =
      operand rest (Nat.le_of_lt (Nat.lt_of_succ_lt shorter)) >>= fun right =>
        chainTail join limit operand (combine left right.value) right.rest
          (Nat.lt_trans right.shorter (Nat.lt_of_succ_lt shorter)) := by
  rw [chainTail]
  simp only [joined]
  cases operand rest (Nat.le_of_lt (Nat.lt_of_succ_lt shorter)) <;> rfl

/-- Both readers read the same rest of a chain, if there are more rounds than tokens. -/
theorem links_agrees {limit rounds : Nat} {operand : Reader Value limit} {left : Value}
    {tokens : List Token} {shorter : tokens.length < limit}
    (each : ∀ inside within, Agrees descent inside (operand inside within))
    (enough : tokens.length < rounds) :
    Agrees (Descent.links join descent rounds left) tokens
      (chainTail join limit operand left tokens shorter) := by
  induction rounds generalizing left tokens with
  | zero => exact absurd enough (Nat.not_lt_zero _)
  | succ rounds ih =>
      cases tokens with
      | nil =>
          rw [Agrees, links_end rfl, chainTail]
          rfl
      | cons token rest =>
          cases joined : join token with
          | none =>
              have ended : (List.head? (token :: rest)).bind join = none := joined
              rw [Agrees, links_end ended, chainTail]
              simp only [joined]
              rfl
          | some combine =>
              rw [Agrees, links_more joined, chainTail_bind joined]
              refine (each _ _).bind fun right => ih ?_
              exact Nat.lt_trans right.shorter (Nat.lt_of_succ_lt_succ enough)

/-- Both readers read the same chain, if there are as many rounds as tokens. -/
theorem chain_agrees {rounds : Nat} {tokens : List Token} {operand : Reader Value tokens.length}
    (each : ∀ inside within, Agrees descent inside (operand inside within))
    (enough : tokens.length ≤ rounds) :
    Agrees (Descent.chain join descent rounds) tokens (chain join tokens operand) :=
  (each _ _).bind fun first => links_agrees each (Nat.lt_of_lt_of_le first.shorter enough)

end Chains

end Grammar

end Cpl
