/-
Reports: what an invocation says on the way and the code that it ends with. The files that it reads
and writes and the stream that it prints to belong to a host.
-/

import Cpl.Command.Host
import Cpl.Command.Operation
import Cpl.Compile

namespace Cpl

/-- What is shown beside the standard output, and the code at the end. -/
structure Report where
  code : Nat
  stderr : String
deriving DecidableEq

/-- Why an invocation fails. -/
inductive RunError where
  | wrongExtension (file : String)
  | unreadable (file : String) (fault : FileFault)
  | unwritable (file : String) (fault : FileFault)
  | unprintable (fault : FileFault)
  | rejected (file : String) (errorCount : Nat)
deriving DecidableEq

/-- The extension of the files that programs are written in. -/
def sourceExtension : String := "ou"

namespace RunError

def cause (fault : FileFault) : String := "\n\nCaused by:\n    " ++ fault.message

def message : RunError → String
  | wrongExtension file =>
      "expected a source file with the '." ++ sourceExtension ++ "' extension, got " ++ file
  | unreadable file fault => "failed to read " ++ file ++ cause fault
  | unwritable file fault => "failed to write " ++ file ++ cause fault
  | unprintable fault => fault.message
  | rejected file errorCount =>
      file ++ " failed to compile due to " ++ toString errorCount ++ " error(s)"

end RunError

/-- The records that a verbosity shows, a line each. -/
def Journal.shown (journal : Journal) (verbosity : Nat) : String :=
  String.join ((journal.filter fun record => decide (record.level.verbosity ≤ verbosity)).map
    fun record => record.text ++ "\n")

namespace Report

def success (stderr : String) : Report := ⟨0, stderr⟩

def failure (stderr : String) (error : RunError) : Report :=
  ⟨1, stderr ++ "Error: " ++ error.message ++ "\n"⟩

/-- The diagnostics, a line ended after each. -/
def diagnosticsText (diagnostics : List Diagnostic) (source : String) : String :=
  String.join (diagnostics.map fun diagnostic =>
    (diagnostic.describe? source.toList).getD "" ++ "\n")

/-- Reads and compiles a file. The text beside the result is what is shown on the way. -/
def compileFile {m : Type → Type} [Monad m] (host : Host m) (verbosity : Nat) (file : String) :
    m (String × Except RunError Listing) := do
  match ← host.read file with
  | .error fault => return ("", .error (.unreadable file fault))
  | .ok source =>
      let compilation := Compilation.ofSource source
      let shown := compilation.journal.shown verbosity
      match compilation.outcome with
      | .ok code => return (shown, .ok code)
      | .error diagnostics =>
          return (shown ++ diagnosticsText diagnostics source,
            .error (.rejected file diagnostics.length))

/-- Carries out an operation. -/
def run {m : Type → Type} [Monad m] (host : Host m) (invocation : Invocation) : m Report := do
  let info (message : String) : String := Journal.shown [⟨.info, message⟩] invocation.verbose
  match invocation.operation with
  | .check file =>
      match ← compileFile host invocation.verbose file with
      | (shown, .error reason) => return failure shown reason
      | (shown, .ok _) => return success (shown ++ info (file ++ " is a valid program"))
  | .compile file options =>
      if Path.extension? file ≠ some sourceExtension then
        return failure "" (.wrongExtension file)
      else
        match ← compileFile host invocation.verbose file with
        | (shown, .error reason) => return failure shown reason
        | (shown, .ok code) =>
            match options.destination file with
            | .stdout =>
                match ← host.print code.text with
                | .error fault => return failure shown (.unprintable fault)
                | .ok () => return success shown
            | .file path =>
                match ← host.write path code.text with
                | .error fault => return failure shown (.unwritable path fault)
                | .ok () => return success (shown ++ info ("wrote " ++ path))

end Report

end Cpl
