/-
Programs: declarations of variables, and statements over them.
-/

import Cpl.Literal
import Cpl.Source.Span

namespace Cpl

/-- A name and the place where it is written. -/
structure Ident where
  name : String
  span : Span
deriving DecidableEq

inductive ArithOp where
  | add
  | subtract
  | multiply
  | divide
deriving DecidableEq

inductive RelOp where
  | equal
  | notEqual
  | less
  | greater
  | lessEqual
  | greaterEqual
deriving DecidableEq

inductive Expr where
  | literal (value : Literal)
  | identifier (ident : Ident)
  | binary (op : ArithOp) (left right : Expr)
  | cast (target : Scalar) (operand : Expr)
deriving DecidableEq

inductive Condition where
  | or (left right : Condition)
  | and (left right : Condition)
  | not (operand : Condition)
  | relation (op : RelOp) (left right : Expr)
deriving DecidableEq

inductive Statement where
  | assign (target : Ident) (value : Expr)
  | input (target : Ident)
  | output (value : Expr)
  | branch (test : Condition) (yes no : Statement)
  | loop (test : Condition) (body : Statement)
  | block (body : List Statement)

/-- Variables that share a type. -/
structure Declaration where
  idents : List Ident
  scalar : Scalar
deriving DecidableEq

structure Program where
  declarations : List Declaration
  body : List Statement

namespace Expr

/-- The names in an expression, from left to right. -/
def idents : Expr → List Ident
  | literal _ => []
  | identifier ident => [ident]
  | binary _ left right => left.idents ++ right.idents
  | cast _ operand => operand.idents

end Expr

namespace Condition

def idents : Condition → List Ident
  | or left right => left.idents ++ right.idents
  | and left right => left.idents ++ right.idents
  | not operand => operand.idents
  | relation _ left right => left.idents ++ right.idents

end Condition

mutual

/-- The names in a statement, in the order in which they are written. -/
def Statement.idents : Statement → List Ident
  | .assign target value => target :: value.idents
  | .input target => [target]
  | .output value => value.idents
  | .branch test yes no => test.idents ++ yes.idents ++ no.idents
  | .loop test body => test.idents ++ body.idents
  | .block body => Statement.identsOf body

def Statement.identsOf : List Statement → List Ident
  | [] => []
  | first :: later => first.idents ++ Statement.identsOf later

end

/-- The names in a program, in the order in which they are written. -/
def Program.idents (program : Program) : List Ident :=
  program.declarations.flatMap Declaration.idents ++ Statement.identsOf program.body

end Cpl
