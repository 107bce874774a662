/-
Scopes: the declared variables and their types. The first declaration of a name counts.
-/

import Cpl.Program

namespace Cpl

inductive SemanticCause where
  | undeclared (name : String)
  | duplicate (name : String)
deriving DecidableEq

def SemanticCause.message : SemanticCause → String
  | undeclared name => "undeclared identifier '" ++ name ++ "'"
  | duplicate name => "'" ++ name ++ "' is already declared"

structure SemanticError where
  cause : SemanticCause
  span : Span
deriving DecidableEq

structure Scope where
  entries : List (String × Scalar)
deriving DecidableEq

namespace Scope

def empty : Scope := ⟨[]⟩

def size (scope : Scope) : Nat := scope.entries.length

def scalar? (scope : Scope) (name : String) : Option Scalar := scope.entries.lookup name

def contains (scope : Scope) (name : String) : Bool := (scope.scalar? name).isSome

/-- The type of a name. -/
def lookup (scope : Scope) (name : String) : Except SemanticCause Scalar :=
  match scope.scalar? name with
  | some scalar => .ok scalar
  | none => .error (.undeclared name)

def declare (scope : Scope) (ident : Ident) (scalar : Scalar) : Except SemanticError Scope :=
  if scope.contains ident.name then .error ⟨.duplicate ident.name, ident.span⟩
  else .ok ⟨(ident.name, scalar) :: scope.entries⟩

/-- Declares names in order and leaves out those that are declared already. -/
def declareAll (scope : Scope) : List (Ident × Scalar) → Scope × List SemanticError
  | [] => (scope, [])
  | (ident, scalar) :: later =>
      match scope.declare ident scalar with
      | .ok extended => extended.declareAll later
      | .error error =>
          let (final, errors) := scope.declareAll later
          (final, error :: errors)

/-- The declared names with their types, in the order in which they are written. -/
def declared (declarations : List Declaration) : List (Ident × Scalar) :=
  declarations.flatMap fun declaration =>
    declaration.idents.map fun ident => (ident, declaration.scalar)

def ofDeclarations (declarations : List Declaration) : Scope × List SemanticError :=
  empty.declareAll (declared declarations)

end Scope

end Cpl
