/-
File trees: files in directories below one directory, and paths that lead to them.
-/

import Cpl.Command.Path

namespace Cpl

/-- Why a file cannot be read or written, or a text not be printed. -/
inductive FileFault where
  | missing
  | notDirectory
  | isDirectory
  | notText
  | noSpace
  | other (message : String)
deriving DecidableEq

def FileFault.message : FileFault → String
  | missing => "No such file or directory (os error 2)"
  | notDirectory => "Not a directory (os error 20)"
  | isDirectory => "Is a directory (os error 21)"
  | notText => "stream did not contain valid UTF-8"
  | noSpace => "No space left on device (os error 28)"
  | other message => message

/-- Files by the names on the way to them. A directory is there if a file is below it. -/
structure FileTree where
  files : List (List String × ByteArray)

namespace FileTree

/-- Where a path leads. Nothing is known about what is outside of the tree. -/
inductive Place where
  | inside (names : List String)
  | outside
deriving DecidableEq

/-- What is found at a place. -/
inductive Entry where
  | file (content : ByteArray)
  | directory
  | nothing

def entry (tree : FileTree) : Place → Entry
  | .outside => .directory
  | .inside names =>
      match tree.files.lookup names with
      | some content => .file content
      | none =>
          if names.isEmpty || tree.files.any fun (path, _) => names.isPrefixOf path then .directory
          else .nothing

/-- The directory above. -/
def Place.parent : Place → Place
  | inside [] => outside
  | inside names => inside names.dropLast
  | outside => outside

/-- Follows one part of a path, which only a directory allows. -/
def step (tree : FileTree) (place : Place) (part : String) : Except FileFault Place :=
  match tree.entry place with
  | .file _ => .error .notDirectory
  | .nothing => .error .missing
  | .directory =>
      if Path.isIdle part then .ok place
      else if part = ".." then .ok place.parent
      else
        match place with
        | .inside names => .ok (.inside (names ++ [part]))
        | .outside => .error .missing

def walk (tree : FileTree) (place : Place) (parts : List String) : Except FileFault Place :=
  parts.foldlM tree.step place

/-- A path that starts with a slash does not start in the tree. -/
def locate (tree : FileTree) (path : String) : Except FileFault Place :=
  match Path.split path with
  | "" :: parts => tree.walk .outside parts
  | parts => tree.walk (.inside []) parts

def read (tree : FileTree) (path : String) : Except FileFault ByteArray := do
  match tree.entry (← tree.locate path) with
  | .file content => return content
  | .directory => .error .isDirectory
  | .nothing => .error .missing

/-- Puts a file in the place of one of the same name, or after all others. -/
def insert (tree : FileTree) (names : List String) (content : ByteArray) : FileTree :=
  let rec go : List (List String × ByteArray) → List (List String × ByteArray)
    | [] => [(names, content)]
    | (path, old) :: later =>
        if path = names then (names, content) :: later else (path, old) :: go later
  ⟨go tree.files⟩

/-- Writes a file, which may be new but not its directory. A path that ends with a slash names a
directory. -/
def write (tree : FileTree) (path : String) (content : ByteArray) : Except FileFault FileTree := do
  let trimmed := String.ofList ((path.toList.reverse.dropWhile (· = '/')).reverse)
  let place ← tree.locate (if trimmed.isEmpty then path else trimmed)
  if trimmed ≠ path then .error .isDirectory
  else
    match place, tree.entry place with
    | .inside names, .file _ | .inside names, .nothing => return tree.insert names content
    | _, _ => .error .isDirectory

/-- The files of a tree that another tree does not have, or has with other contents. -/
def changesFrom (tree before : FileTree) : List (List String × ByteArray) :=
  tree.files.filter fun (path, content) =>
    (before.files.lookup path).map ByteArray.toList ≠ some content.toList

end FileTree

end Cpl
