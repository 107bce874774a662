/-
Compilation: from the text of a program to quad code, or to diagnostics.
-/

import Cpl.Diagnostic
import Cpl.Journal

namespace Cpl

/-- What compiling a source gives, and the records made on the way. -/
structure Compilation where
  outcome : Except (List Diagnostic) Listing
  journal : Journal

namespace Compilation

/-- Puts records in front. -/
def after (journal : Journal) (compilation : Compilation) : Compilation :=
  { compilation with journal := journal ++ compilation.journal }

/-- Code is generated even if declarations are at fault, so that all errors are found. They are
reported by their place in the source. -/
def ofProgram (program : Program) : Compilation :=
  let (scope, declarationErrors) := Scope.ofDeclarations program.declarations
  let generated := generate scope program.body
  let journal := Journal.ofScope scope ++ Journal.ofGenerated scope generated
  match declarationErrors ++ generated.errors with
  | [] =>
      let code := generated.program
      ⟨.ok code, journal ++ [⟨.debug, s!"generated {code.length} instruction(s)"⟩]⟩
  | errors =>
      let diagnostics := errors.map Diagnostic.ofSemantic
      let sorted := diagnostics.mergeSort fun first second =>
        decide (first.span.start ≤ second.span.start)
      ⟨.error sorted, journal⟩

/-- Reading stops at the first token that does not fit. -/
def ofTokens (tokens : List Token) : Compilation :=
  match Program.ofTokens tokens with
  | .error error => ⟨.error [.ofGrammatical error], []⟩
  | .ok program =>
      (ofProgram program).after
        (Journal.ofProgram program
          ++ [⟨.debug, s!"parsed {program.declarations.length} declaration(s)"⟩])

/-- All faults of the text are reported together. -/
def ofLexemes (found : List Lexeme) : Compilation :=
  let tokens := found.filterMap Lexeme.token?
  let errors := found.filterMap Lexeme.error?
  let journal := Journal.ofTokens tokens.length errors.length
  match errors with
  | [] =>
      (ofTokens tokens).after
        (journal ++ [⟨.debug, s!"lexer produced {tokens.length} token(s)"⟩])
  | errors => ⟨.error (errors.map Diagnostic.ofLexical), journal⟩

def ofSource (source : String) : Compilation := ofLexemes (lexemes source)

end Compilation

/-- The quad code of a source, or what is wrong with it. -/
def compile (source : String) : Except (List Diagnostic) Listing :=
  (Compilation.ofSource source).outcome

end Cpl
