import Cpl.Program.Grammar

namespace Cpl

/-- The sign of an operation. -/
def ArithOp.sign : ArithOp → Symbol
  | add => .plus
  | subtract => .minus
  | multiply => .asterisk
  | divide => .slash

/-- The sign of a relation. -/
def RelOp.sign : RelOp → Symbol
  | equal => .eq
  | notEqual => .neq
  | less => .lt
  | greater => .gt
  | lessEqual => .lte
  | greaterEqual => .gte

/-- The word that declares a type. -/
def Scalar.word : Scalar → Keyword
  | int => .intWord
  | float => .floatWord

/-- The word for a conversion to a type. -/
def Scalar.castWord : Scalar → Keyword
  | int => .castInt
  | float => .castFloat

namespace Grammar

/-- The places in which expressions stand, from sums to single factors. -/
inductive ExprLevel where
  | expression
  | term
  | factor

/-- The expressions that tokens spell at a level. -/
inductive ExprPhrase : ExprLevel → List Token → Expr → Prop
  | sum {left right : List Token} {sign : Token} {op : ArithOp} {first second : Expr}
      (before : ExprPhrase .expression left first) (additive : op = .add ∨ op = .subtract)
      (signed : sign.kind = .symbol op.sign) (after : ExprPhrase .term right second) :
      ExprPhrase .expression (left ++ sign :: right) (.binary op first second)
  | ofTerm {tokens : List Token} {value : Expr} (phrase : ExprPhrase .term tokens value) :
      ExprPhrase .expression tokens value
  | product {left right : List Token} {sign : Token} {op : ArithOp} {first second : Expr}
      (before : ExprPhrase .term left first) (multiplicative : op = .multiply ∨ op = .divide)
      (signed : sign.kind = .symbol op.sign) (after : ExprPhrase .factor right second) :
      ExprPhrase .term (left ++ sign :: right) (.binary op first second)
  | ofFactor {tokens : List Token} {value : Expr} (phrase : ExprPhrase .factor tokens value) :
      ExprPhrase .term tokens value
  | parenthesised {inner : List Token} {opening closing : Token} {value : Expr}
      (opened : opening.kind = .symbol .openParen) (content : ExprPhrase .expression inner value)
      (closed : closing.kind = .symbol .closeParen) :
      ExprPhrase .factor (opening :: (inner ++ [closing])) value
  | identifier {token : Token} {name : String} (named : token.kind = .identifier name) :
      ExprPhrase .factor [token] (.identifier ⟨name, token.span⟩)
  | literal {token : Token} {value : Literal} (written : token.kind = .literal value) :
      ExprPhrase .factor [token] (.literal value)
  | cast {inner : List Token} {word opening closing : Token} {target : Scalar} {operand : Expr}
      (converted : word.kind = .keyword target.castWord)
      (opened : opening.kind = .symbol .openParen)
      (content : ExprPhrase .expression inner operand)
      (closed : closing.kind = .symbol .closeParen) :
      ExprPhrase .factor (word :: opening :: (inner ++ [closing])) (.cast target operand)

/-- The places in which conditions stand. -/
inductive ConditionLevel where
  | expression
  | term
  | factor

/-- The conditions that tokens spell at a level. -/
inductive ConditionPhrase : ConditionLevel → List Token → Condition → Prop
  | or {left right : List Token} {sign : Token} {first second : Condition}
      (before : ConditionPhrase .expression left first) (signed : sign.kind = .symbol .or)
      (after : ConditionPhrase .term right second) :
      ConditionPhrase .expression (left ++ sign :: right) (.or first second)
  | ofTerm {tokens : List Token} {test : Condition} (phrase : ConditionPhrase .term tokens test) :
      ConditionPhrase .expression tokens test
  | and {left right : List Token} {sign : Token} {first second : Condition}
      (before : ConditionPhrase .term left first) (signed : sign.kind = .symbol .and)
      (after : ConditionPhrase .factor right second) :
      ConditionPhrase .term (left ++ sign :: right) (.and first second)
  | ofFactor {tokens : List Token} {test : Condition}
      (phrase : ConditionPhrase .factor tokens test) : ConditionPhrase .term tokens test
  | not {inner : List Token} {sign opening closing : Token} {operand : Condition}
      (signed : sign.kind = .symbol .not) (opened : opening.kind = .symbol .openParen)
      (content : ConditionPhrase .expression inner operand)
      (closed : closing.kind = .symbol .closeParen) :
      ConditionPhrase .factor (sign :: opening :: (inner ++ [closing])) (.not operand)
  | relation {left right : List Token} {sign : Token} {op : RelOp} {first second : Expr}
      (before : ExprPhrase .expression left first) (signed : sign.kind = .symbol op.sign)
      (after : ExprPhrase .expression right second) :
      ConditionPhrase .factor (left ++ sign :: right) (.relation op first second)

/-- The statements that tokens spell. The parts of a block are tokens with the statements that
they spell. -/
inductive StatementPhrase : List Token → Statement → Prop
  | assign {tokens : List Token} {target sign closing : Token} {name : String} {value : Expr}
      (named : target.kind = .identifier name) (signed : sign.kind = .symbol .assign)
      (phrase : ExprPhrase .expression tokens value) (ended : closing.kind = .symbol .semicolon) :
      StatementPhrase (target :: sign :: (tokens ++ [closing]))
        (.assign ⟨name, target.span⟩ value)
  | input {word opening target closing ending : Token} {name : String}
      (worded : word.kind = .keyword .inputWord) (opened : opening.kind = .symbol .openParen)
      (named : target.kind = .identifier name) (closed : closing.kind = .symbol .closeParen)
      (ended : ending.kind = .symbol .semicolon) :
      StatementPhrase [word, opening, target, closing, ending] (.input ⟨name, target.span⟩)
  | output {tokens : List Token} {word opening closing ending : Token} {value : Expr}
      (worded : word.kind = .keyword .outputWord) (opened : opening.kind = .symbol .openParen)
      (phrase : ExprPhrase .expression tokens value) (closed : closing.kind = .symbol .closeParen)
      (ended : ending.kind = .symbol .semicolon) :
      StatementPhrase (word :: opening :: (tokens ++ [closing, ending])) (.output value)
  | branch {tests first second : List Token} {word opening closing otherwise : Token}
      {test : Condition} {yes no : Statement}
      (worded : word.kind = .keyword .ifWord) (opened : opening.kind = .symbol .openParen)
      (phrase : ConditionPhrase .expression tests test)
      (closed : closing.kind = .symbol .closeParen) (yesPhrase : StatementPhrase first yes)
      (separated : otherwise.kind = .keyword .elseWord) (noPhrase : StatementPhrase second no) :
      StatementPhrase (word :: opening :: (tests ++ closing :: (first ++ otherwise :: second)))
        (.branch test yes no)
  | loop {tests tokens : List Token} {word opening closing : Token} {test : Condition}
      {body : Statement}
      (worded : word.kind = .keyword .whileWord) (opened : opening.kind = .symbol .openParen)
      (phrase : ConditionPhrase .expression tests test)
      (closed : closing.kind = .symbol .closeParen) (bodyPhrase : StatementPhrase tokens body) :
      StatementPhrase (word :: opening :: (tests ++ closing :: tokens)) (.loop test body)
  | block {parts : List (List Token × Statement)} {opening closing : Token}
      (opened : opening.kind = .symbol .openBrace)
      (each : ∀ part ∈ parts, StatementPhrase part.1 part.2)
      (closed : closing.kind = .symbol .closeBrace) :
      StatementPhrase (opening :: ((parts.map Prod.fst).flatten ++ [closing]))
        (.block (parts.map Prod.snd))

/-- The lists of names that tokens spell. -/
inductive IdentsPhrase : List Token → List Ident → Prop
  | one {token : Token} {name : String} (named : token.kind = .identifier name) :
      IdentsPhrase [token] [⟨name, token.span⟩]
  | more {tokens : List Token} {token comma : Token} {name : String} {idents : List Ident}
      (named : token.kind = .identifier name) (separated : comma.kind = .symbol .comma)
      (later : IdentsPhrase tokens idents) :
      IdentsPhrase (token :: comma :: tokens) (⟨name, token.span⟩ :: idents)

/-- The declarations that tokens spell. -/
inductive DeclarationPhrase : List Token → Declaration → Prop
  | declare {tokens : List Token} {colon word closing : Token} {idents : List Ident}
      {scalar : Scalar} (names : IdentsPhrase tokens idents)
      (separated : colon.kind = .symbol .colon) (typed : word.kind = .keyword scalar.word)
      (ended : closing.kind = .symbol .semicolon) :
      DeclarationPhrase (tokens ++ [colon, word, closing]) ⟨idents, scalar⟩

/-- The programs that tokens spell: declarations, and a block. -/
inductive ProgramPhrase : List Token → Program → Prop
  | program {parts : List (List Token × Declaration)} {tokens : List Token} {body : List Statement}
      (each : ∀ part ∈ parts, DeclarationPhrase part.1 part.2)
      (bodyPhrase : StatementPhrase tokens (.block body)) :
      ProgramPhrase ((parts.map Prod.fst).flatten ++ tokens) ⟨parts.map Prod.snd, body⟩

end Grammar

end Cpl
