/-
Diagnostics: errors as they are reported, under the line that they are found in.
-/

import Cpl.Lexeme
import Cpl.Program.Grammar
import Cpl.Scope
import Cpl.Source.Line

namespace Cpl

/-- The step of compilation that an error is found in. -/
inductive Phase where
  | lexical
  | grammatical
  | semantic
deriving DecidableEq

def Phase.text : Phase → String
  | lexical => "lexical error"
  | grammatical => "syntax error"
  | semantic => "semantic error"

structure Diagnostic where
  phase : Phase
  message : String
  span : Span
deriving DecidableEq

namespace Diagnostic

def ofLexical (error : LexicalError) : Diagnostic :=
  ⟨.lexical, error.cause.message, error.span⟩

def ofGrammatical (error : SyntaxError) : Diagnostic :=
  ⟨.grammatical, error.message, error.span⟩

def ofSemantic (error : SemanticError) : Diagnostic :=
  ⟨.semantic, error.cause.message, error.span⟩

/-- The line that holds the start of the range, with carets under the range and the message after
them. Columns count characters. Even an empty range has a caret. There is no answer for a range
outside the source or off its character boundaries. -/
def describe? (diagnostic : Diagnostic) (source : List Char) : Option String := do
  let line := Line.find source diagnostic.span.start
  let before ← Span.slice? ⟨line.span.start, diagnostic.span.start⟩ source
  let marked ← diagnostic.span.slice? source
  let number := (toString line.number).toList
  return String.ofList
    (number ++ ['|', ' '] ++ line.display ++ ['\n']
      ++ List.replicate number.length ' ' ++ ['|', ' '] ++ List.replicate before.length ' '
      ++ List.replicate (max marked.length 1) '^')
    ++ "--- " ++ diagnostic.phase.text ++ ": " ++ diagnostic.message

end Diagnostic

end Cpl
