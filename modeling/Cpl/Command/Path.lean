/-
File paths: names with slashes between them.
-/

namespace Cpl.Path

/-- The parts between the slashes. A path that starts or ends with a slash has an empty first or
last part. -/
def split (path : String) : List String :=
  let rec go (read : List Char) : List Char → List String
    | [] => [String.ofList read.reverse]
    | '/' :: rest => String.ofList read.reverse :: go [] rest
    | character :: rest => go (character :: read) rest
  go [] path.toList

def join (parts : List String) : String := "/".intercalate parts

/-- A part that stays in the same directory. -/
def isIdle (part : String) : Bool := part = "" || part = "."

/-- The parts up to the last one that is not idle, in reverse order. -/
def significant (path : String) : List String := (split path).reverse.dropWhile isIdle

/-- A file name cut at its last point. A name without a point, or with one at the start only, has
no extension. The name of the parent directory is no file name. -/
def cutName? (name : String) : Option (String × Option String) :=
  if name = ".." then none
  else
    let reversed := name.toList.reverse
    let extension := reversed.takeWhile (· ≠ '.')
    match reversed.dropWhile (· ≠ '.') with
    | [] | ['.'] => some (name, none)
    | _ :: stem => some (String.ofList stem.reverse, some (String.ofList extension.reverse))

/-- The extension of the file that a path names. -/
def extension? (path : String) : Option String := do
  let name ← (significant path).head?
  let (_, extension) ← cutName? name
  extension

/-- Gives the file another extension. A path that names no file stays as it is. -/
def setExtension (path extension : String) : String :=
  match significant path with
  | [] => path
  | name :: parents =>
      match cutName? name with
      | none => path
      | some (stem, _) => join (parents.reverse ++ [stem ++ "." ++ extension])

/-- Takes as many characters from the end as the extension has, and then gives the file another
one. -/
def replaceExtension (path extension : String) : String :=
  match extension? path with
  | none => setExtension path extension
  | some old =>
      setExtension (String.ofList (path.toList.take (path.length - old.length))) extension

end Cpl.Path
