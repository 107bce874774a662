import Cpl.Proofs.Scope.Declarations
import Mathlib.Logic.Function.Basic

namespace Cpl

/-- Other names and other places for the identifiers of a program. -/
structure Respelling where
  names : String → String
  spans : Span → Span

def Ident.respell (respelling : Respelling) (ident : Ident) : Ident :=
  ⟨respelling.names ident.name, respelling.spans ident.span⟩

def Expr.respell (respelling : Respelling) : Expr → Expr
  | literal value => literal value
  | identifier ident => identifier (ident.respell respelling)
  | binary op left right => binary op (left.respell respelling) (right.respell respelling)
  | cast target operand => cast target (operand.respell respelling)

def Condition.respell (respelling : Respelling) : Condition → Condition
  | or left right => or (left.respell respelling) (right.respell respelling)
  | and left right => and (left.respell respelling) (right.respell respelling)
  | not operand => not (operand.respell respelling)
  | relation op left right => relation op (left.respell respelling) (right.respell respelling)

mutual

def Statement.respell (respelling : Respelling) : Statement → Statement
  | .assign target value => .assign (target.respell respelling) (value.respell respelling)
  | .input target => .input (target.respell respelling)
  | .output value => .output (value.respell respelling)
  | .branch test yes no =>
      .branch (test.respell respelling) (yes.respell respelling) (no.respell respelling)
  | .loop test body => .loop (test.respell respelling) (body.respell respelling)
  | .block body => .block (Statement.respellAll respelling body)

def Statement.respellAll (respelling : Respelling) : List Statement → List Statement
  | [] => []
  | first :: later => first.respell respelling :: Statement.respellAll respelling later

end

def Declaration.respell (respelling : Respelling) (declaration : Declaration) : Declaration :=
  ⟨declaration.idents.map (Ident.respell respelling), declaration.scalar⟩

/-- The program with its identifiers respelled, where they are declared and where they are used. -/
def Program.respell (respelling : Respelling) (program : Program) : Program :=
  ⟨program.declarations.map (Declaration.respell respelling),
    Statement.respellAll respelling program.body⟩

def SemanticCause.rename (names : String → String) : SemanticCause → SemanticCause
  | undeclared name => undeclared (names name)
  | duplicate name => duplicate (names name)

def SemanticError.respell (respelling : Respelling) (error : SemanticError) : SemanticError :=
  ⟨error.cause.rename respelling.names, respelling.spans error.span⟩

namespace Scope

/-- The same variables under other names. -/
def rename (names : String → String) (scope : Scope) : Scope :=
  ⟨scope.entries.map fun entry => (names entry.1, entry.2)⟩

/-- A scope is renamed to itself if no name changes. -/
theorem rename_id (scope : Scope) : scope.rename id = scope := by
  simp [rename]

section Renaming
variable {names : String → String} (injective : Function.Injective names) (scope : Scope)
include injective

/-- A variable has its type under its other name, if no two names become one. -/
theorem scalar?_rename (name : String) :
    (scope.rename names).scalar? (names name) = scope.scalar? name := by
  obtain ⟨entries⟩ := scope
  induction entries with
  | nil => rfl
  | cons entry later ih =>
      have same : (names name == names entry.1) = (name == entry.1) := by
        rw [Bool.eq_iff_iff, beq_iff_eq, beq_iff_eq]
        exact injective.eq_iff
      simp only [scalar?, rename] at ih ⊢
      rw [List.map_cons, List.lookup_cons, List.lookup_cons, same, ih]

/-- A new name is declared exactly if the old one was. -/
theorem contains_rename (name : String) :
    (scope.rename names).contains (names name) = scope.contains name := by
  rw [contains, scalar?_rename injective, contains]

end Renaming

section Respelling
variable {respelling : Respelling} (injective : Function.Injective respelling.names)
include injective

/-- Respelled declarations declare the new names, and report the respelled errors. -/
theorem declareAll_respell (scope : Scope) (entries : List (Ident × Scalar)) :
    (scope.rename respelling.names).declareAll
        (entries.map fun entry => (entry.1.respell respelling, entry.2)) =
      ((scope.declareAll entries).1.rename respelling.names,
        (scope.declareAll entries).2.map (SemanticError.respell respelling)) := by
  induction entries generalizing scope with
  | nil => rfl
  | cons entry later ih =>
      rw [List.map_cons, declareAll, declareAll, declare, declare, Ident.respell,
        contains_rename injective]
      by_cases known : scope.contains entry.1.name
      · rw [if_pos known, if_pos known]
        simp only [ih, List.map_cons]
        rfl
      · rw [if_neg known, if_neg known]
        exact ih ⟨(entry.1.name, entry.2) :: scope.entries⟩

/-- The scope of respelled declarations, and what is wrong with them. -/
theorem ofDeclarations_respell (declarations : List Declaration) :
    ofDeclarations (declarations.map (Declaration.respell respelling)) =
      ((ofDeclarations declarations).1.rename respelling.names,
        (ofDeclarations declarations).2.map (SemanticError.respell respelling)) := by
  have entries : declared (declarations.map (Declaration.respell respelling)) =
      (declared declarations).map fun entry => (entry.1.respell respelling, entry.2) := by
    simp [declared, List.flatMap_map, List.map_flatMap, Declaration.respell, Function.comp_def]
  rw [ofDeclarations, entries]
  exact declareAll_respell injective empty (declared declarations)

end Respelling

end Scope

end Cpl
