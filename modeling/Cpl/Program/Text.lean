/-
Programs as text. Every operation stands in parentheses of its own.
-/

import Cpl.Program

namespace Cpl

def ArithOp.text : ArithOp → String
  | add => "+"
  | subtract => "-"
  | multiply => "*"
  | divide => "/"

def RelOp.text : RelOp → String
  | equal => "=="
  | notEqual => "!="
  | less => "<"
  | greater => ">"
  | lessEqual => "<="
  | greaterEqual => ">="

def Expr.text : Expr → String
  | literal value => value.text
  | identifier ident => ident.name
  | binary op left right => "(" ++ left.text ++ " " ++ op.text ++ " " ++ right.text ++ ")"
  | cast .int operand => "staticcastint(" ++ operand.text ++ ")"
  | cast .float operand => "staticcastfloat(" ++ operand.text ++ ")"

def Condition.text : Condition → String
  | or left right => "(" ++ left.text ++ " || " ++ right.text ++ ")"
  | and left right => "(" ++ left.text ++ " && " ++ right.text ++ ")"
  | not operand => "!(" ++ operand.text ++ ")"
  | relation op left right => "(" ++ left.text ++ " " ++ op.text ++ " " ++ right.text ++ ")"

mutual

def Statement.text : Statement → String
  | .assign target value => target.name ++ " = " ++ value.text ++ ";"
  | .input target => "input(" ++ target.name ++ ");"
  | .output value => "output(" ++ value.text ++ ");"
  | .branch test yes no => "if (" ++ test.text ++ ") " ++ yes.text ++ " else " ++ no.text
  | .loop test body => "while (" ++ test.text ++ ") " ++ body.text
  | .block body => "\x7b" ++ Statement.spaced body ++ " \x7d"

/-- The statements with a blank before each. -/
def Statement.spaced : List Statement → String
  | [] => ""
  | first :: later => " " ++ first.text ++ Statement.spaced later

end

def Declaration.text (declaration : Declaration) : String :=
  ", ".intercalate (declaration.idents.map Ident.name) ++ ": " ++ declaration.scalar.text ++ ";"

/-- The body of a program as one block. -/
def Program.bodyText (program : Program) : String := (Statement.block program.body).text

end Cpl
