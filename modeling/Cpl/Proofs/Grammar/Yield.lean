import Cpl.Proofs.Grammar.Phrase
import Mathlib.Data.List.Basic

namespace Cpl

namespace Grammar

/-- A yield reads a list off trees, to which their names and constants add in the order in which
they are written. -/
structure Yield (A : Type) where
  name : Ident → List A
  constant : Literal → List A
  expr : Expr → List A
  condition : Condition → List A
  statement : Statement → List A
  body : List Statement → List A
  literal : ∀ value, expr (.literal value) = constant value := by intros; rfl
  identifier : ∀ ident, expr (.identifier ident) = name ident := by intros; rfl
  binary : ∀ op left right, expr (.binary op left right) = expr left ++ expr right := by
    intros; rfl
  cast : ∀ target operand, expr (.cast target operand) = expr operand := by intros; rfl
  or : ∀ left right, condition (.or left right) = condition left ++ condition right := by
    intros; rfl
  and : ∀ left right, condition (.and left right) = condition left ++ condition right := by
    intros; rfl
  not : ∀ operand, condition (.not operand) = condition operand := by intros; rfl
  relation : ∀ op left right, condition (.relation op left right) = expr left ++ expr right := by
    intros; rfl
  assign : ∀ target value, statement (.assign target value) = name target ++ expr value := by
    intros; rfl
  input : ∀ target, statement (.input target) = name target := by intros; rfl
  output : ∀ value, statement (.output value) = expr value := by intros; rfl
  branch : ∀ test yes no, statement (.branch test yes no) =
    condition test ++ statement yes ++ statement no := by intros; rfl
  loop : ∀ test content, statement (.loop test content) =
    condition test ++ statement content := by intros; rfl
  block : ∀ content, statement (.block content) = body content := by intros; rfl
  nil : body [] = [] := by rfl
  cons : ∀ first later, body (first :: later) = statement first ++ body later := by intros; rfl

namespace Yield
variable {A : Type} (yield : Yield A)

/-- Signs and words add nothing to a yield. -/
def token (token : Token) : List A :=
  match token.kind with
  | .identifier name => yield.name ⟨name, token.span⟩
  | .literal value => yield.constant value
  | .symbol _ => []
  | .keyword _ => []

section Tokens
variable {token : Token}

@[simp] theorem token_identifier {name : String} (named : token.kind = .identifier name) :
    yield.token token = yield.name ⟨name, token.span⟩ := by simp [Yield.token, named]

@[simp] theorem token_literal {value : Literal} (written : token.kind = .literal value) :
    yield.token token = yield.constant value := by simp [Yield.token, written]

@[simp] theorem token_symbol {mark : Symbol} (signed : token.kind = .symbol mark) :
    yield.token token = [] := by simp [Yield.token, signed]

@[simp] theorem token_keyword {word : Keyword} (worded : token.kind = .keyword word) :
    yield.token token = [] := by simp [Yield.token, worded]

end Tokens

end Yield

section Phrases
variable {A : Type} (yield : Yield A)

/-- The tokens of an expression have its yield. -/
theorem ExprPhrase.yields {level : ExprLevel} {tokens : List Token} {value : Expr}
    (phrase : ExprPhrase level tokens value) : tokens.flatMap yield.token = yield.expr value := by
  induction phrase with
  | sum _ _ signed _ left right | product _ _ signed _ left right =>
      simp [yield.binary, signed, left, right]
  | ofTerm _ inner | ofFactor _ inner => exact inner
  | parenthesised opened _ closed content => simp [opened, closed, content]
  | identifier named => simp [yield.identifier, named]
  | literal written => simp [yield.literal, written]
  | cast converted opened _ closed content => simp [yield.cast, converted, opened, closed, content]

/-- The tokens of a condition have its yield. -/
theorem ConditionPhrase.yields {level : ConditionLevel} {tokens : List Token} {test : Condition}
    (phrase : ConditionPhrase level tokens test) :
    tokens.flatMap yield.token = yield.condition test := by
  induction phrase with
  | or _ signed _ left right => simp [yield.or, signed, left, right]
  | and _ signed _ left right => simp [yield.and, signed, left, right]
  | ofTerm _ inner | ofFactor _ inner => exact inner
  | not signed opened _ closed content => simp [yield.not, signed, opened, closed, content]
  | relation before signed after =>
      simp [yield.relation, signed, before.yields yield, after.yields yield]

/-- A body has the yields of its statements. -/
theorem Yield.body_eq (body : List Statement) : yield.body body = body.flatMap yield.statement := by
  induction body with
  | nil => exact yield.nil
  | cons first later ih => rw [yield.cons, ih, List.flatMap_cons]

/-- Parts that follow each other have the yields of their tokens. -/
theorem parts_yield {Tree : Type} (list : Tree → List A) {parts : List (List Token × Tree)}
    (each : ∀ part ∈ parts, part.1.flatMap yield.token = list part.2) :
    (parts.map Prod.fst).flatten.flatMap yield.token = (parts.map Prod.snd).flatMap list := by
  induction parts with
  | nil => rfl
  | cons part later ih =>
      have first := each part List.mem_cons_self
      have rest := ih fun other member => each other (List.mem_cons_of_mem part member)
      simp [first, rest]

/-- The tokens of a statement have its yield. -/
theorem StatementPhrase.yields {tokens : List Token} {statement : Statement}
    (phrase : StatementPhrase tokens statement) :
    tokens.flatMap yield.token = yield.statement statement := by
  induction phrase with
  | assign named signed phrase ended =>
      simp [yield.assign, named, signed, phrase.yields yield, ended]
  | input worded opened named closed ended =>
      simp [yield.input, worded, opened, named, closed, ended]
  | output worded opened phrase closed ended =>
      simp [yield.output, worded, opened, phrase.yields yield, closed, ended]
  | branch worded opened phrase closed _ separated _ yes no =>
      simp [yield.branch, worded, opened, phrase.yields yield, closed, yes, separated, no]
  | loop worded opened phrase closed _ body =>
      simp [yield.loop, worded, opened, phrase.yields yield, closed, body]
  | block opened _ closed each =>
      simp [yield.block, yield.body_eq, opened, closed, parts_yield yield yield.statement each]

/-- The tokens of a list of names have the yields of the names. -/
theorem IdentsPhrase.yields {tokens : List Token} {idents : List Ident}
    (phrase : IdentsPhrase tokens idents) :
    tokens.flatMap yield.token = idents.flatMap yield.name := by
  induction phrase with
  | one named => simp [named]
  | more named separated _ later => simp [named, separated, later]

/-- The tokens of a declaration have the yields of its names. -/
theorem DeclarationPhrase.yields {tokens : List Token} {declaration : Declaration}
    (phrase : DeclarationPhrase tokens declaration) :
    tokens.flatMap yield.token = declaration.idents.flatMap yield.name := by
  cases phrase with
  | declare names separated typed ended => simp [names.yields yield, separated, typed, ended]

/-- The tokens of a program have the yields of its declared names and of its body. -/
theorem ProgramPhrase.yields {tokens : List Token} {program : Program}
    (phrase : ProgramPhrase tokens program) :
    tokens.flatMap yield.token =
      (program.declarations.flatMap Declaration.idents).flatMap yield.name ++
        yield.body program.body := by
  cases phrase with
  | program each bodyPhrase =>
      let names (declaration : Declaration) : List A := declaration.idents.flatMap yield.name
      have declared := parts_yield yield names fun part member =>
        (each part member).yields yield
      rw [List.flatMap_append, declared, bodyPhrase.yields yield, yield.block, List.flatMap_assoc]

end Phrases

/-- The names in a tree are a yield. -/
def identYield : Yield Ident where
  name ident := [ident]
  constant _ := []
  expr := Expr.idents
  condition := Condition.idents
  statement := Statement.idents
  body := Statement.identsOf

/-- The yield of names takes from each token the name that it stands for. -/
theorem identYield_token : identYield.token = fun token => (ident? token).toList := by
  funext token
  obtain ⟨kind, span⟩ := token
  cases kind <;> rfl

/-- The names of a program are those of the identifier tokens that spell it. -/
theorem ProgramPhrase.idents {tokens : List Token} {program : Program}
    (phrase : ProgramPhrase tokens program) : tokens.filterMap ident? = program.idents := by
  rw [List.filterMap_eq_flatMap_toList, ← identYield_token, phrase.yields identYield]
  simp [identYield, Program.idents]

end Grammar

end Cpl
