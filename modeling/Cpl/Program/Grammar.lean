/-
Programs read from tokens. A reader looks at one token at a time and never goes back. Whatever
it reads takes at least one token, so every loop ends.
-/

import Cpl.Program
import Cpl.Token

namespace Cpl

/-- What was being read when a token did not fit. -/
inductive Stage where
  | programEnd
  | declaration
  | typeName
  | statementEnd
  | block
  | statement
  | assignment
  | argument
  | condition
  | elseBranch
  | negation
  | relation
  | expression
  | parenthesisEnd
  | cast
deriving DecidableEq

def Stage.text : Stage → String
  | programEnd => "the end of the program"
  | declaration => "a declaration"
  | typeName => "a type"
  | statementEnd => "the end of a statement"
  | block => "a block"
  | statement => "a statement"
  | assignment => "an assignment"
  | argument => "an input or output statement"
  | condition => "a condition"
  | elseBranch => "the else branch of an if-statement"
  | negation => "a negated condition"
  | relation => "a relational operator"
  | expression => "an expression"
  | parenthesisEnd => "the end of a parenthesised expression"
  | cast => "a cast"

namespace Grammar

/-- The token that did not fit, or none where the tokens ended too early. -/
structure Failure where
  stage : Stage
  found : Option Token
deriving DecidableEq

/-- A value that was read, and the tokens after it. There are fewer of them than `limit`. -/
structure Parsed (Value : Type) (limit : Nat) where
  value : Value
  rest : List Token
  shorter : rest.length < limit

abbrev Outcome (Value : Type) (limit : Nat) := Except Failure (Parsed Value limit)

/-- Reads a value from tokens of a bounded number. -/
abbrev Reader (Value : Type) (limit : Nat) :=
  (tokens : List Token) → tokens.length ≤ limit → Outcome Value tokens.length

/-- Reads one token. -/
def single {Value : Type} (stage : Stage) (read : Token → Option Value) :
    (tokens : List Token) → Outcome Value tokens.length
  | [] => .error ⟨stage, none⟩
  | token :: rest =>
      match read token with
      | some value => .ok ⟨value, rest, Nat.lt_add_one rest.length⟩
      | none => .error ⟨stage, some token⟩

def symbol (mark : Symbol) (stage : Stage) (tokens : List Token) : Outcome Unit tokens.length :=
  single stage (fun token => if token.kind = .symbol mark then some () else none) tokens

def keyword (word : Keyword) (stage : Stage) (tokens : List Token) : Outcome Unit tokens.length :=
  single stage (fun token => if token.kind = .keyword word then some () else none) tokens

def ident? (token : Token) : Option Ident :=
  match token.kind with
  | .identifier name => some ⟨name, token.span⟩
  | _ => none

def identifier (stage : Stage) (tokens : List Token) : Outcome Ident tokens.length :=
  single stage ident? tokens

def scalar? (token : Token) : Option Scalar :=
  match token.kind with
  | .keyword .intWord => some .int
  | .keyword .floatWord => some .float
  | _ => none

def relOp? (token : Token) : Option RelOp :=
  match token.kind with
  | .symbol .eq => some .equal
  | .symbol .neq => some .notEqual
  | .symbol .lt => some .less
  | .symbol .gt => some .greater
  | .symbol .lte => some .lessEqual
  | .symbol .gte => some .greaterEqual
  | _ => none

/-- Reads what stands between parentheses. -/
def enclosed {Value : Type} (stage : Stage) (tokens : List Token)
    (inner : Reader Value tokens.length) : Outcome Value tokens.length := do
  let opening ← symbol .openParen stage tokens
  let content ← inner opening.rest (Nat.le_of_lt opening.shorter)
  let closing ← symbol .closeParen stage content.rest
  return ⟨content.value, closing.rest,
    Nat.lt_trans closing.shorter (Nat.lt_trans content.shorter opening.shorter)⟩

/-- Reads more operands, each after an operator, and joins them from the left. -/
def chainTail {Value : Type} (join : Token → Option (Value → Value → Value)) (limit : Nat)
    (operand : Reader Value limit) (left : Value) (tokens : List Token)
    (shorter : tokens.length < limit) : Outcome Value limit :=
  match tokens with
  | [] => .ok ⟨left, [], shorter⟩
  | token :: rest =>
      match join token with
      | none => .ok ⟨left, token :: rest, shorter⟩
      | some combine =>
          match operand rest (Nat.le_of_lt (Nat.lt_of_succ_lt shorter)) with
          | .error failure => .error failure
          | .ok right =>
              chainTail join limit operand (combine left right.value) right.rest
                (Nat.lt_trans right.shorter (Nat.lt_of_succ_lt shorter))
termination_by tokens.length
decreasing_by exact Nat.lt_succ_of_lt right.shorter

/-- Reads operands with operators between them, and joins them from the left. -/
def chain {Value : Type} (join : Token → Option (Value → Value → Value)) (tokens : List Token)
    (operand : Reader Value tokens.length) : Outcome Value tokens.length := do
  let first ← operand tokens (Nat.le_refl _)
  chainTail join tokens.length operand first.value first.rest first.shorter

def sumJoin? (token : Token) : Option (Expr → Expr → Expr) :=
  match token.kind with
  | .symbol .plus => some (.binary .add)
  | .symbol .minus => some (.binary .subtract)
  | _ => none

def productJoin? (token : Token) : Option (Expr → Expr → Expr) :=
  match token.kind with
  | .symbol .asterisk => some (.binary .multiply)
  | .symbol .slash => some (.binary .divide)
  | _ => none

def orJoin? (token : Token) : Option (Condition → Condition → Condition) :=
  match token.kind with
  | .symbol .or => some .or
  | _ => none

def andJoin? (token : Token) : Option (Condition → Condition → Condition) :=
  match token.kind with
  | .symbol .and => some .and
  | _ => none

/-- Reads a product of factors. -/
def product (tokens : List Token) (factor : Reader Expr tokens.length) :
    Outcome Expr tokens.length :=
  chain productJoin? tokens factor

/-- Reads a sum of products. -/
def sum (tokens : List Token) (factor : Reader Expr tokens.length) :
    Outcome Expr tokens.length :=
  chain sumJoin? tokens fun terms within =>
    product terms fun factors inside => factor factors (Nat.le_trans inside within)

/-- Reads the operand of a cast. -/
def castOperand (target : Scalar) (tokens : List Token) (factor : Reader Expr tokens.length) :
    Outcome Expr tokens.length := do
  let operand ← enclosed .cast tokens fun inner within =>
    sum inner fun factors inside => factor factors (Nat.le_trans inside within)
  return ⟨.cast target operand.value, operand.rest, operand.shorter⟩

/-- Reads a name, a constant, a sum in parentheses or a cast. -/
def factor (tokens : List Token) : Outcome Expr tokens.length :=
  match tokens with
  | [] => .error ⟨.expression, none⟩
  | token :: rest =>
      match token.kind with
      | .identifier name => .ok ⟨.identifier ⟨name, token.span⟩, rest, Nat.lt_add_one _⟩
      | .literal value => .ok ⟨.literal value, rest, Nat.lt_add_one _⟩
      | .symbol .openParen => do
          let inner ← sum rest fun inside _ => factor inside
          let closing ← symbol .closeParen .parenthesisEnd inner.rest
          return ⟨inner.value, closing.rest,
            Nat.lt_succ_of_lt (Nat.lt_trans closing.shorter inner.shorter)⟩
      | .keyword .castInt => do
          let result ← castOperand .int rest fun inside _ => factor inside
          return ⟨result.value, result.rest, Nat.lt_succ_of_lt result.shorter⟩
      | .keyword .castFloat => do
          let result ← castOperand .float rest fun inside _ => factor inside
          return ⟨result.value, result.rest, Nat.lt_succ_of_lt result.shorter⟩
      | _ => .error ⟨.expression, some token⟩
termination_by tokens.length
decreasing_by all_goals simp only [List.length_cons]; omega

def expression (tokens : List Token) : Outcome Expr tokens.length :=
  sum tokens fun inside _ => factor inside

/-- Reads two expressions with a relational operator between them. -/
def comparison (tokens : List Token) : Outcome Condition tokens.length := do
  let left ← expression tokens
  let op ← single .relation relOp? left.rest
  let right ← expression op.rest
  return ⟨.relation op.value left.value right.value, right.rest,
    Nat.lt_trans right.shorter (Nat.lt_trans op.shorter left.shorter)⟩

def conjunction (tokens : List Token) (factor : Reader Condition tokens.length) :
    Outcome Condition tokens.length :=
  chain andJoin? tokens factor

/-- Reads a disjunction of conjunctions. -/
def disjunction (tokens : List Token) (factor : Reader Condition tokens.length) :
    Outcome Condition tokens.length :=
  chain orJoin? tokens fun terms within =>
    conjunction terms fun factors inside => factor factors (Nat.le_trans inside within)

/-- Reads a negation or a comparison. -/
def conditionFactor (tokens : List Token) : Outcome Condition tokens.length :=
  match tokens with
  | [] => comparison []
  | token :: rest =>
      if token.kind = .symbol .not then do
        let inner ← enclosed .negation rest fun operand _ =>
          disjunction operand fun inside _ => conditionFactor inside
        return ⟨.not inner.value, inner.rest, Nat.lt_succ_of_lt inner.shorter⟩
      else comparison (token :: rest)
termination_by tokens.length
decreasing_by simp only [List.length_cons]; omega

/-- Reads the condition of a branch or a loop. -/
def condition (tokens : List Token) : Outcome Condition tokens.length :=
  enclosed .condition tokens fun operand _ =>
    disjunction operand fun inside _ => conditionFactor inside

/-- Reads the rest of an assignment, after its target. -/
def assignment (target : Ident) (tokens : List Token) : Outcome Statement tokens.length := do
  let sign ← symbol .assign .assignment tokens
  let value ← expression sign.rest
  let closing ← symbol .semicolon .statementEnd value.rest
  return ⟨.assign target value.value, closing.rest,
    Nat.lt_trans closing.shorter (Nat.lt_trans value.shorter sign.shorter)⟩

/-- Reads the rest of an input statement, after its keyword. -/
def inputArgument (tokens : List Token) : Outcome Statement tokens.length := do
  let target ← enclosed .argument tokens fun inside _ => identifier .argument inside
  let closing ← symbol .semicolon .statementEnd target.rest
  return ⟨.input target.value, closing.rest, Nat.lt_trans closing.shorter target.shorter⟩

/-- Reads the rest of an output statement, after its keyword. -/
def outputArgument (tokens : List Token) : Outcome Statement tokens.length := do
  let value ← enclosed .argument tokens fun inside _ => expression inside
  let closing ← symbol .semicolon .statementEnd value.rest
  return ⟨.output value.value, closing.rest, Nat.lt_trans closing.shorter value.shorter⟩

/-- Reads statements up to the brace that closes their block. -/
def blockRest (limit : Nat) (item : Reader Statement limit) (tokens : List Token)
    (within : tokens.length ≤ limit) : Outcome (List Statement) tokens.length :=
  match tokens with
  | [] => .error ⟨.block, none⟩
  | token :: rest =>
      if token.kind = .symbol .closeBrace then .ok ⟨[], rest, Nat.lt_add_one _⟩
      else
        match item (token :: rest) within with
        | .error failure => .error failure
        | .ok first =>
            match blockRest limit item first.rest
              (Nat.le_trans (Nat.le_of_lt first.shorter) within) with
            | .error failure => .error failure
            | .ok later =>
                .ok ⟨first.value :: later.value, later.rest,
                  Nat.lt_trans later.shorter first.shorter⟩
termination_by tokens.length
decreasing_by exact first.shorter

def statement (tokens : List Token) : Outcome Statement tokens.length :=
  match tokens with
  | [] => .error ⟨.statement, none⟩
  | token :: rest =>
      match token.kind with
      | .identifier name => do
          let result ← assignment ⟨name, token.span⟩ rest
          return ⟨result.value, result.rest, Nat.lt_succ_of_lt result.shorter⟩
      | .keyword .inputWord => do
          let result ← inputArgument rest
          return ⟨result.value, result.rest, Nat.lt_succ_of_lt result.shorter⟩
      | .keyword .outputWord => do
          let result ← outputArgument rest
          return ⟨result.value, result.rest, Nat.lt_succ_of_lt result.shorter⟩
      | .keyword .ifWord => do
          let test ← condition rest
          have afterTest := Nat.lt_succ_of_lt test.shorter
          let yes ← statement test.rest
          let otherwise ← keyword .elseWord .elseBranch yes.rest
          have afterYes := Nat.lt_trans (Nat.lt_trans otherwise.shorter yes.shorter) afterTest
          let no ← statement otherwise.rest
          return ⟨.branch test.value yes.value no.value, no.rest, Nat.lt_trans no.shorter afterYes⟩
      | .keyword .whileWord => do
          let test ← condition rest
          have afterTest := Nat.lt_succ_of_lt test.shorter
          let body ← statement test.rest
          return ⟨.loop test.value body.value, body.rest, Nat.lt_trans body.shorter afterTest⟩
      | .symbol .openBrace => do
          let body ← blockRest rest.length (fun inside _ => statement inside) rest (Nat.le_refl _)
          return ⟨.block body.value, body.rest, Nat.lt_succ_of_lt body.shorter⟩
      | _ => .error ⟨.statement, some token⟩
termination_by tokens.length
decreasing_by
  · exact afterTest
  · exact afterYes
  · exact afterTest
  · simp only [List.length_cons]; omega

/-- Reads a block with its braces. -/
def block (tokens : List Token) : Outcome (List Statement) tokens.length := do
  let opening ← symbol .openBrace .block tokens
  let body ← blockRest opening.rest.length (fun inside _ => statement inside) opening.rest
    (Nat.le_refl _)
  return ⟨body.value, body.rest, Nat.lt_trans body.shorter opening.shorter⟩

/-- Reads more names, each after a comma. -/
def laterIdents (limit : Nat) (tokens : List Token) (shorter : tokens.length < limit) :
    Outcome (List Ident) limit :=
  match tokens with
  | [] => .ok ⟨[], [], shorter⟩
  | token :: rest =>
      if token.kind = .symbol .comma then
        match identifier .declaration rest with
        | .error failure => .error failure
        | .ok first =>
            match laterIdents limit first.rest
              (Nat.lt_trans first.shorter (Nat.lt_of_succ_lt shorter)) with
            | .error failure => .error failure
            | .ok later => .ok ⟨first.value :: later.value, later.rest, later.shorter⟩
      else .ok ⟨[], token :: rest, shorter⟩
termination_by tokens.length
decreasing_by exact Nat.lt_succ_of_lt first.shorter

def declaration (tokens : List Token) : Outcome Declaration tokens.length := do
  let first ← identifier .declaration tokens
  let later ← laterIdents tokens.length first.rest first.shorter
  let colon ← symbol .colon .declaration later.rest
  let scalar ← single .typeName scalar? colon.rest
  let closing ← symbol .semicolon .statementEnd scalar.rest
  return ⟨⟨first.value :: later.value, scalar.value⟩, closing.rest,
    Nat.lt_trans closing.shorter
      (Nat.lt_trans scalar.shorter (Nat.lt_trans colon.shorter later.shorter))⟩

/-- Reads declarations up to the brace that opens the body. -/
def declarations (tokens : List Token) : Except Failure (List Declaration × List Token) :=
  match tokens with
  | [] => .error ⟨.declaration, none⟩
  | token :: rest =>
      if token.kind = .symbol .openBrace then .ok ([], token :: rest)
      else
        match declaration (token :: rest) with
        | .error failure => .error failure
        | .ok first =>
            match declarations first.rest with
            | .error failure => .error failure
            | .ok (later, body) => .ok (first.value :: later, body)
termination_by tokens.length
decreasing_by exact first.shorter

/-- Reads a whole program, with nothing after it. -/
def program (tokens : List Token) : Except Failure Program := do
  let (declared, bodyTokens) ← declarations tokens
  let body ← block bodyTokens
  match body.rest with
  | [] => return ⟨declared, body.value⟩
  | token :: _ => .error ⟨.programEnd, some token⟩

end Grammar

/-- A failure with its place in the source. -/
structure SyntaxError where
  stage : Stage
  found : Option Token
  span : Span
deriving DecidableEq

namespace SyntaxError

def message (error : SyntaxError) : String :=
  let unexpected :=
    match error.found with
    | some token => token.kind.describe
    | none => "end of input"
  "unexpected " ++ unexpected ++ " when parsing " ++ error.stage.text

/-- A failure at the end of the tokens is placed after the last of them. -/
def ofFailure (tokens : List Token) (failure : Grammar.Failure) : SyntaxError where
  stage := failure.stage
  found := failure.found
  span :=
    match failure.found, tokens.getLast? with
    | some token, _ => token.span
    | none, some last => .point last.span.stop
    | none, none => .point 0

end SyntaxError

/-- The program that tokens spell, or the first place where they do not. -/
def Program.ofTokens (tokens : List Token) : Except SyntaxError Program :=
  (Grammar.program tokens).mapError (SyntaxError.ofFailure tokens)

end Cpl
