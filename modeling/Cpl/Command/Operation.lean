/-
Operations: what is asked of the compiler, and where its code goes.
-/

import Cpl.Command.Path

namespace Cpl

inductive Destination where
  | stdout
  | file (path : String)
deriving DecidableEq

/-- The extension of the files that programs are compiled to. -/
def targetExtension : String := "qud"

/-- What is said about the place of the code. -/
structure OutputOptions where
  output : Option String
  stdout : Bool
deriving DecidableEq

/-- Without a path of its own the code goes to a file beside the source. -/
def OutputOptions.destination (options : OutputOptions) (source : String) : Destination :=
  if options.stdout then .stdout
  else .file (options.output.getD (Path.replaceExtension source targetExtension))

inductive Operation where
  | check (file : String)
  | compile (file : String) (options : OutputOptions)
deriving DecidableEq

structure Invocation where
  operation : Operation
  verbose : Nat
deriving DecidableEq

end Cpl
