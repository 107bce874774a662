/-
Hosts: the files that are read and written, and the stream that takes what is printed.
-/

import Cpl.Command.FileTree

namespace Cpl

/-- Access to the text of files and to the standard output. -/
structure Host (m : Type → Type) where
  read : String → m (Except FileFault String)
  write : String → String → m (Except FileFault Unit)
  print : String → m (Except FileFault Unit)

/-- The text of a file, if it is text. -/
def decodeText (content : ByteArray) : Except FileFault String :=
  match String.fromUTF8? content with
  | some text => .ok text
  | none => .error .notText

/-- Characters that were printed, and how many more there is room for if there is a limit. -/
structure Stream where
  printed : String
  room : Option Nat

namespace Stream

def unlimited : Stream := ⟨"", none⟩

/-- Takes a text, or as much of its beginning as there is room for. -/
def print (stream : Stream) (text : String) : Except FileFault Unit × Stream :=
  match stream.room with
  | none => (.ok (), ⟨stream.printed ++ text, none⟩)
  | some room =>
      if text.length ≤ room then
        (.ok (), ⟨stream.printed ++ text, some (room - text.length)⟩)
      else
        (.error .noSpace, ⟨stream.printed ++ String.ofList (text.toList.take room), some 0⟩)

end Stream

/-- A file tree beside a stream. -/
structure Workspace where
  files : FileTree
  stdout : Stream

/-- A workspace is a host that remembers what is written and printed. -/
def Workspace.host : Host (StateM Workspace) where
  read path := fun workspace => (workspace.files.read path >>= decodeText, workspace)
  write path text := fun workspace =>
    match workspace.files.write path text.toUTF8 with
    | .ok files => (.ok (), { workspace with files })
    | .error fault => (.error fault, workspace)
  print text := fun workspace =>
    let (result, stdout) := workspace.stdout.print text
    (result, { workspace with stdout })

end Cpl
