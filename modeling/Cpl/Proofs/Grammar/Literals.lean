import Cpl.Proofs.Grammar.Programs
import Cpl.Proofs.Grammar.Yield

namespace Cpl

namespace Expr

/-- The constants in an expression, from left to right. -/
def literals : Expr → List Literal
  | literal value => [value]
  | identifier _ => []
  | binary _ left right => left.literals ++ right.literals
  | cast _ operand => operand.literals

end Expr

namespace Condition

def literals : Condition → List Literal
  | or left right => left.literals ++ right.literals
  | and left right => left.literals ++ right.literals
  | not operand => operand.literals
  | relation _ left right => left.literals ++ right.literals

end Condition

mutual

/-- The constants in a statement, in the order in which they are written. -/
def Statement.literals : Statement → List Literal
  | .assign _ value => value.literals
  | .input _ => []
  | .output value => value.literals
  | .branch test yes no => test.literals ++ yes.literals ++ no.literals
  | .loop test body => test.literals ++ body.literals
  | .block body => Statement.literalsOf body

def Statement.literalsOf : List Statement → List Literal
  | [] => []
  | first :: later => first.literals ++ Statement.literalsOf later

end

/-- The constants in a program. Declarations have none. -/
def Program.literals (program : Program) : List Literal := Statement.literalsOf program.body

namespace Grammar

/-- The constant that a token stands for. -/
def literal? (token : Token) : Option Literal :=
  match token.kind with
  | .literal value => some value
  | _ => none

/-- Only literal tokens stand for constants. -/
theorem literal?_some {token : Token} {value : Literal} :
    literal? token = some value ↔ token.kind = .literal value := by
  unfold literal?
  split <;> simp_all

/-- The constants in a tree are a yield. -/
def literalYield : Yield Literal where
  name _ := []
  constant value := [value]
  expr := Expr.literals
  condition := Condition.literals
  statement := Statement.literals
  body := Statement.literalsOf

/-- The yield of constants takes from each token the constant that it stands for. -/
theorem literalYield_token : literalYield.token = fun token => (literal? token).toList := by
  funext token
  obtain ⟨kind, span⟩ := token
  cases kind <;> rfl

/-- The constants of a program are those of the literal tokens that spell it. -/
theorem ProgramPhrase.literals {tokens : List Token} {program : Program}
    (phrase : ProgramPhrase tokens program) : tokens.filterMap literal? = program.literals := by
  rw [List.filterMap_eq_flatMap_toList, ← literalYield_token, phrase.yields literalYield]
  simp [literalYield, Program.literals]

/-- A program that is read has the names of the identifier tokens, each in its place, and the
constants of the literal tokens, both in the order in which they are written. -/
theorem ofTokens_leaves {tokens : List Token} {program : Program}
    (read : Program.ofTokens tokens = .ok program) :
    program.idents = tokens.filterMap ident? ∧ program.literals = tokens.filterMap literal? := by
  have phrase := program_iff_phrase.mp (ofTokens_ok.mp read)
  exact ⟨phrase.idents.symm, phrase.literals.symm⟩

/-- Parentheses are dropped and operations are grouped from the left, but names and constants stay
where they are. -/
theorem differences_leaves :
    let x (start : Nat) : Token := ⟨.identifier "x", .point start⟩
    let mark (symbol : Symbol) : Token := ⟨.symbol symbol, .point 0⟩
    let word (keyword : Keyword) : Token := ⟨.keyword keyword, .point 0⟩
    let number (value : Int32) : Token := ⟨.literal (.integer value), .point 0⟩
    let tokens := [x 1, mark .comma, x 2, mark .colon, word .floatWord, mark .semicolon,
      mark .openBrace, x 3, mark .assign, number 7, mark .minus, x 4, mark .minus, mark .openParen,
      number 5, mark .minus, x 5, mark .closeParen, mark .semicolon, mark .closeBrace]
    ∃ program, Program.ofTokens tokens = .ok program ∧
      program.idents = [⟨"x", .point 1⟩, ⟨"x", .point 2⟩, ⟨"x", .point 3⟩, ⟨"x", .point 4⟩,
        ⟨"x", .point 5⟩] ∧
      program.literals = [.integer 7, .integer 5] := by
  intro x mark word number tokens
  let ident (start : Nat) : Ident := ⟨"x", .point start⟩
  let inner : Expr := .binary .subtract (.literal (.integer 5)) (.identifier (ident 5))
  let value : Expr := .binary .subtract
    (.binary .subtract (.literal (.integer 7)) (.identifier (ident 4))) inner
  have parsed : Grammar.program tokens =
      .ok ⟨[⟨[ident 1, ident 2], .float⟩], [.assign (ident 3) value]⟩ := by cbv
  have read : Program.ofTokens tokens = .ok _ := congrArg (Except.mapError _) parsed
  exact ⟨_, read, ofTokens_leaves read⟩

end Grammar

end Cpl
