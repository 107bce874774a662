/-
The command line on the files of a disk.
-/

import Cpl.Command.Invocation
import Cpl.Command.Report

namespace Cpl

/-- The fault that an error of the operating system stands for. -/
def FileFault.ofError : IO.Error → FileFault
  | .noFileOrDirectory .. => .missing
  | .inappropriateType _ 20 _ => .notDirectory
  | .inappropriateType _ 21 _ => .isDirectory
  | .resourceExhausted _ 28 _ => .noSpace
  | error => .other (toString error)

/-- Does something that may fail with an error of the operating system. -/
def attempt {A : Type} (action : IO A) : IO (Except FileFault A) := do
  try
    return .ok (← action)
  catch error => return .error (.ofError error)

def diskHost : Host IO where
  read path := do return (← attempt (IO.FS.readBinFile path)) >>= decodeText
  write path text := attempt (IO.FS.writeFile path text)
  print text := attempt do
    let stdout ← IO.getStdout
    stdout.putStr text
    stdout.flush

end Cpl

def main (words : List String) : IO UInt32 := do
  match Cpl.Invocation.ofWords words with
  | .error refusal => return UInt32.ofNat refusal.code
  | .ok invocation =>
      let report ← Cpl.Report.run Cpl.diskHost invocation
      IO.eprint report.stderr
      return UInt32.ofNat report.code
