/-
Quad code: instructions over variables, temporaries and constants.
-/

import Cpl.Program

namespace Cpl

/-- A place that holds a value. -/
inductive Name where
  | var (name : String)
  | temp (index : Nat)
deriving DecidableEq

def Name.text : Name → String
  | var name => name
  | temp index => "t" ++ toString index

structure Label where
  index : Nat
deriving DecidableEq

def Label.text (label : Label) : String := "L" ++ toString label.index

inductive Value where
  | literal (value : Literal)
  | name (place : Name)
deriving DecidableEq

def Value.text : Value → String
  | literal value => value.text
  | name place => place.text

inductive CmpOp where
  | less
  | greater
  | equal
  | notEqual
deriving DecidableEq

inductive Quad where
  | assign (scalar : Scalar) (target : Name) (value : Value)
  | input (scalar : Scalar) (target : Name)
  | print (scalar : Scalar) (value : Value)
  | arith (scalar : Scalar) (op : ArithOp) (target : Name) (left right : Value)
  | compare (scalar : Scalar) (op : CmpOp) (target : Name) (left right : Value)
  | toReal (target : Name) (value : Value)
  | toInt (target : Name) (value : Value)
  | jump (label : Label)
  | jumpIfZero (label : Label) (value : Value)
  | mark (label : Label)
  | halt
deriving DecidableEq

/-- The first letter of an instruction that has a type. -/
def Scalar.letter : Scalar → String
  | int => "I"
  | float => "R"

def ArithOp.mnemonic : ArithOp → String
  | add => "ADD"
  | subtract => "SUB"
  | multiply => "MLT"
  | divide => "DIV"

def CmpOp.mnemonic : CmpOp → String
  | less => "LSS"
  | greater => "GRT"
  | equal => "EQL"
  | notEqual => "NQL"

/-- The words of an instruction. -/
def Quad.words : Quad → List String
  | assign scalar target value => [scalar.letter ++ "ASN", target.text, value.text]
  | input scalar target => [scalar.letter ++ "INP", target.text]
  | print scalar value => [scalar.letter ++ "PRT", value.text]
  | arith scalar op target left right =>
      [scalar.letter ++ op.mnemonic, target.text, left.text, right.text]
  | compare scalar op target left right =>
      [scalar.letter ++ op.mnemonic, target.text, left.text, right.text]
  | toReal target value => ["ITOR", target.text, value.text]
  | toInt target value => ["RTOI", target.text, value.text]
  | jump label => ["JUMP", label.text]
  | jumpIfZero label value => ["JMPZ", label.text, value.text]
  | mark label => [label.text ++ ":"]
  | halt => ["HALT"]

def Quad.text (quad : Quad) : String := " ".intercalate quad.words

abbrev Listing := List Quad

namespace Listing

/-- A complete program: the code and the final halt. -/
def complete (code : Listing) : Listing := code ++ [.halt]

def lines (code : Listing) : List String := code.map Quad.text

/-- One instruction a line, each line ended. -/
def text (code : Listing) : String := String.join (code.map fun quad => quad.text ++ "\n")

end Listing

end Cpl
