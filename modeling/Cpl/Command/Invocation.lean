/-
Invocations: what a command line asks for. Options stand before the operation or after it,
depending on what they belong to. An option takes its value from the same word or from the next
one. A value in a word of its own is looked at only when the next option or file is met, or when
all words have been read.
-/

import Cpl.Command.Operation

namespace Cpl

/-- Why there is no invocation. -/
inductive Refusal where
  | help
  | version
  | nothingGiven
  | missingOperation
  | unknownOperation
  | missingFile
  | unknownArgument
  | missingValue
  | unexpectedValue
  | invalidNumber
  | conflict
deriving DecidableEq

/-- Help and the version are asked for; all else is a mistake. -/
def Refusal.code : Refusal → Nat
  | help | version => 0
  | _ => 2

namespace CommandLine

/-- Where words are read: before the operation, or after it. -/
inductive Section where
  | start
  | check
  | compile
deriving DecidableEq

inductive Switch where
  | verbose
  | output
  | stdout
  | help
  | version
deriving DecidableEq

namespace Switch

def long : Switch → String
  | verbose => "verbose"
  | output => "output"
  | stdout => "stdout"
  | help => "help"
  | version => "version"

def short? : Switch → Option Char
  | verbose => some 'v'
  | output => some 'o'
  | stdout => none
  | help => some 'h'
  | version => some 'V'

def takesValue : Switch → Bool
  | verbose | output => true
  | stdout | help | version => false

end Switch

def Section.switches : Section → List Switch
  | start => [.verbose, .help, .version]
  | check => [.help]
  | compile => [.output, .stdout, .help]

def Section.takesFile : Section → Bool
  | start => false
  | check | compile => true

/-- The words that stand for operations. -/
inductive Operator where
  | check
  | compile
  | help

def Operator.ofString? : String → Option Operator
  | "check" => some .check
  | "compile" => some .compile
  | "help" => some .help
  | _ => none

/-- Why an ordinary word is refused where no more of them fit. -/
def Section.refuse (part : Section) (escaped : Bool) (text : String) : Refusal :=
  match part with
  | check | compile => .unknownArgument
  | start =>
      if escaped && (Operator.ofString? text).isSome then .unknownArgument else .unknownOperation

/-- The shapes of words. A dash alone is an ordinary word. -/
inductive Word where
  | escape
  | long (name : String) (value : Option String)
  | short (letters : List Char)
  | plain (text : String)

namespace Word

/-- The name of an option, and its value after the first equals sign. -/
def cutLong (text : List Char) : Word :=
  let name := String.ofList (text.takeWhile (· ≠ '='))
  match text.dropWhile (· ≠ '=') with
  | [] => .long name none
  | _ :: value => .long name (some (String.ofList value))

def ofString (text : String) : Word :=
  match text.toList with
  | ['-', '-'] => .escape
  | '-' :: '-' :: rest => cutLong rest
  | ['-'] => .plain text
  | '-' :: letters => .short letters
  | _ => .plain text

end Word

/-- What a value belongs to. -/
inductive Slot where
  | switch (switch : Switch)
  | file
deriving DecidableEq

/-- The options and the file that have been settled. -/
structure Settled where
  verbose : Option Nat
  output : Option String
  stdout : Bool
  file : Option String
deriving DecidableEq

def Settled.empty : Settled := ⟨none, none, false, none⟩

/-- The largest number of 64 bits. -/
def numberLimit : Nat := 18446744073709551615

/-- A decimal number of at most 64 bits, with or without a plus sign. -/
def number? (text : String) : Option Nat :=
  let digits :=
    match text.toList with
    | '+' :: rest => rest
    | characters => characters
  if digits.isEmpty || !digits.all Char.isDigit then none
  else
    let value := Nat.ofDigitChars 10 digits 0
    if value ≤ numberLimit then some value else none

namespace Settled

/-- Settles an option or the file with the value found for it, if one was found. No option can be
given twice. -/
def settle (settled : Settled) : Slot → Option String → Except Refusal Settled
  | .switch .help, _ => .error .help
  | .switch .version, _ => .error .version
  | .switch .stdout, _ =>
      if settled.stdout then .error .conflict else .ok { settled with stdout := true }
  | .switch .verbose, none => .error .missingValue
  | .switch .verbose, some text =>
      if settled.verbose.isSome then .error .conflict
      else
        match number? text with
        | some value => .ok { settled with verbose := some value }
        | none => .error .invalidNumber
  | .switch .output, none => .error .missingValue
  | .switch .output, some path =>
      if settled.output.isSome then .error .conflict
      else if path.isEmpty then .error .missingValue
      else .ok { settled with output := some path }
  | .file, none => .error .missingFile
  | .file, some path =>
      if path.isEmpty then .error .missingValue else .ok { settled with file := some path }

end Settled

/-- How far the words of a section have been read. -/
structure Progress where
  settled : Settled
  /-- What is settled next, and its value. -/
  pending : Option (Slot × Option String)
  /-- Whether the next word is the value of the pending option. -/
  awaiting : Bool
  /-- Whether all words left are ordinary ones. -/
  escaped : Bool
  /-- Whether the file was met. -/
  fileMet : Bool

namespace Progress

def start : Progress := ⟨.empty, none, false, false, false⟩

/-- Settles what is pending. -/
def flush (progress : Progress) : Except Refusal Progress :=
  match progress.pending with
  | none => .ok progress
  | some (slot, value) => do
      let settled ← progress.settled.settle slot value
      return { progress with settled, pending := none }

/-- Settles an option at once. -/
def apply (progress : Progress) (switch : Switch) (value : Option String) :
    Except Refusal Progress := do
  let progress ← progress.flush
  let settled ← progress.settled.settle (.switch switch) value
  return { progress with settled, awaiting := false }

/-- Leaves the value of an option to the next word. -/
def await (progress : Progress) (switch : Switch) : Except Refusal Progress := do
  let progress ← progress.flush
  return { progress with pending := some (.switch switch, none), awaiting := true }

/-- Reads an option by its long name. -/
def readLong (progress : Progress) (part : Section) (name : String) (value : Option String) :
    Except Refusal Progress :=
  match part.switches.find? fun switch => switch.long = name with
  | none => .error .unknownArgument
  | some switch =>
      match switch.takesValue, value with
      | true, none => progress.await switch
      | true, some _ => progress.apply switch value
      | false, none => progress.apply switch none
      | false, some _ => .error .unexpectedValue

/-- Reads options by their letters. The letters after an option that takes a value are its value,
without an equals sign before them. -/
def readShort (progress : Progress) (part : Section) : List Char → Except Refusal Progress
  | [] => .ok progress
  | letter :: letters =>
      match part.switches.find? fun switch => switch.short? = some letter with
      | none => .error .unknownArgument
      | some switch =>
          if switch.takesValue then
            match letters with
            | [] => progress.await switch
            | '=' :: value => progress.apply switch (some (String.ofList value))
            | value => progress.apply switch (some (String.ofList value))
          else
            match progress.apply switch none with
            | .error refusal => .error refusal
            | .ok progress => progress.readShort part letters

/-- Reads an ordinary word: the value that is awaited, or the file. -/
def readPlain (progress : Progress) (part : Section) (text : String) :
    Except Refusal Progress :=
  if progress.awaiting && !progress.escaped then
    .ok { progress with
      pending := progress.pending.map fun (slot, _) => (slot, some text)
      awaiting := false }
  else if part.takesFile && !progress.fileMet then do
    let progress ← progress.flush
    return { progress with pending := some (.file, some text), awaiting := false, fileMet := true }
  else .error (part.refuse progress.escaped text)

def readWord (progress : Progress) (part : Section) (text : String) : Except Refusal Progress :=
  if progress.escaped then progress.readPlain part text
  else
    match Word.ofString text with
    | .escape => .ok { progress with escaped := true }
    | .long name value => progress.readLong part name value
    | .short letters => progress.readShort part letters
    | .plain text => progress.readPlain part text

end Progress

/-- Reads the words after an operation. -/
def readSection (part : Section) (progress : Progress) :
    List String → Except Refusal Settled
  | [] => do return (← progress.flush).settled
  | word :: words => do readSection part (← progress.readWord part word) words

def readCheck (words : List String) : Except Refusal Operation := do
  let settled ← readSection .check .start words
  match settled.file with
  | some file => return .check file
  | none => .error .missingFile

/-- A path of its own and the standard output exclude each other. -/
def readCompile (words : List String) : Except Refusal Operation := do
  let settled ← readSection .compile .start words
  match settled.output, settled.stdout with
  | some _, true => .error .conflict
  | output, stdout =>
      match settled.file with
      | none => .error .missingFile
      | some file => return .compile file ⟨output, stdout⟩

/-- Help can be asked for on an operation, and on help itself. -/
def readHelp : List String → Refusal
  | [] => .help
  | [word] => if (Operator.ofString? word).isSome then .help else .unknownOperation
  | _ => .unknownOperation

/-- What verbosity there is without an option. -/
def defaultVerbosity : Nat := 1

/-- Reads the operation, and then settles what stands before it. -/
def finish (progress : Progress) (operation : Except Refusal Operation) :
    Except Refusal Invocation := do
  let operation ← operation
  let settled := (← progress.flush).settled
  return ⟨operation, settled.verbose.getD defaultVerbosity⟩

/-- Reads all words. A word where an operation may stand is one, if it is spelled like one. -/
def readStart (progress : Progress) : List String → Except Refusal Invocation
  | [] => do
      let settled := (← progress.flush).settled
      if settled = .empty then .error .nothingGiven else .error .missingOperation
  | word :: words =>
      let operator :=
        if progress.awaiting || progress.escaped then none else Operator.ofString? word
      match operator with
      | some .check => finish progress (readCheck words)
      | some .compile => finish progress (readCompile words)
      | some .help => .error (readHelp words)
      | none => do readStart (← progress.readWord .start word) words

end CommandLine

/-- The invocation that the words of a command line stand for. -/
def Invocation.ofWords (words : List String) : Except Refusal Invocation :=
  CommandLine.readStart .start words

end Cpl
