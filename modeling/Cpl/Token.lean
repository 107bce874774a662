/-
Tokens: the words, symbols and constants of a program.
-/

import Cpl.Literal
import Cpl.Source.Span
import Cpl.Text.Quoted

namespace Cpl

inductive Keyword where
  | elseWord
  | floatWord
  | ifWord
  | inputWord
  | intWord
  | outputWord
  | whileWord
  | castInt
  | castFloat
deriving DecidableEq

namespace Keyword

def all : List Keyword :=
  [elseWord, floatWord, ifWord, inputWord, intWord, outputWord, whileWord, castInt, castFloat]

def spelling : Keyword → String
  | elseWord => "else"
  | floatWord => "float"
  | ifWord => "if"
  | inputWord => "input"
  | intWord => "int"
  | outputWord => "output"
  | whileWord => "while"
  | castInt => "staticcastint"
  | castFloat => "staticcastfloat"

/-- The keyword as messages name it. -/
def describe : Keyword → String
  | elseWord => "Else"
  | floatWord => "Float"
  | ifWord => "If"
  | inputWord => "Input"
  | intWord => "Int"
  | outputWord => "Output"
  | whileWord => "While"
  | castInt => "StaticCastInt"
  | castFloat => "StaticCastFloat"

def ofWord? (word : String) : Option Keyword :=
  all.find? fun keyword => keyword.spelling = word

end Keyword

inductive Symbol where
  | openParen
  | closeParen
  | openBrace
  | closeBrace
  | comma
  | colon
  | semicolon
  | assign
  | eq
  | neq
  | lt
  | gt
  | lte
  | gte
  | plus
  | minus
  | asterisk
  | slash
  | or
  | and
  | not
deriving DecidableEq

namespace Symbol

/-- All symbols. One that starts with another stands before it. -/
def all : List Symbol :=
  [eq, neq, lte, gte, or, and, openParen, closeParen, openBrace, closeBrace, comma, colon,
    semicolon, assign, lt, gt, plus, minus, asterisk, slash, not]

def spelling : Symbol → List Char
  | openParen => ['(']
  | closeParen => [')']
  | openBrace => ['{']
  | closeBrace => ['}']
  | comma => [',']
  | colon => [':']
  | semicolon => [';']
  | assign => ['=']
  | eq => ['=', '=']
  | neq => ['!', '=']
  | lt => ['<']
  | gt => ['>']
  | lte => ['<', '=']
  | gte => ['>', '=']
  | plus => ['+']
  | minus => ['-']
  | asterisk => ['*']
  | slash => ['/']
  | or => ['|', '|']
  | and => ['&', '&']
  | not => ['!']

/-- The symbol as messages name it. -/
def describe : Symbol → String
  | openParen => "OpenParen"
  | closeParen => "CloseParen"
  | openBrace => "OpenBrace"
  | closeBrace => "CloseBrace"
  | comma => "Comma"
  | colon => "Colon"
  | semicolon => "Semicolon"
  | assign => "Assign"
  | eq => "Eq"
  | neq => "Neq"
  | lt => "Lt"
  | gt => "Gt"
  | lte => "Lte"
  | gte => "Gte"
  | plus => "Plus"
  | minus => "Minus"
  | asterisk => "Asterisk"
  | slash => "Slash"
  | or => "Or"
  | and => "And"
  | not => "Not"

/-- The longest symbol that a text starts with. -/
def first? (source : List Char) : Option Symbol :=
  all.find? fun symbol => symbol.spelling.isPrefixOf source

/-- The symbol with exactly this spelling. -/
def ofSpelling? (text : List Char) : Option Symbol :=
  all.find? fun symbol => symbol.spelling = text

end Symbol

inductive TokenKind where
  | keyword (word : Keyword)
  | identifier (name : String)
  | symbol (mark : Symbol)
  | literal (value : Literal)
deriving DecidableEq

namespace TokenKind

/-- A word is a keyword if it is spelled as one, and a name otherwise. -/
def ofWord (word : String) : TokenKind :=
  match Keyword.ofWord? word with
  | some found => .keyword found
  | none => .identifier word

/-- The token as messages name it. -/
def describe : TokenKind → String
  | keyword word => s!"Keyword({word.describe})"
  | identifier name => s!"Identifier({quoted name})"
  | symbol mark => s!"Symbol({mark.describe})"
  | literal value => s!"Literal({value.describe})"

end TokenKind

structure Token where
  kind : TokenKind
  span : Span
deriving DecidableEq

end Cpl
