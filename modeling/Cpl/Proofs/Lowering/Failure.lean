import Cpl.Proofs.Lowering.Emission

namespace Cpl

/-- The first of some names that is not known. -/
def Ident.firstUnknown (known : String → Bool) (idents : List Ident) : Option Ident :=
  idents.find? fun ident => !known ident.name

/-- Whether all of some names are declared. -/
def Scope.declares (scope : Scope) (idents : List Ident) : Bool :=
  idents.all fun ident => scope.contains ident.name

/-- No name is unknown exactly if all are declared. -/
theorem Ident.firstUnknown_none {scope : Scope} {idents : List Ident} :
    Ident.firstUnknown scope.contains idents = none ↔ scope.declares idents = true := by
  simp [Ident.firstUnknown, Scope.declares]

/-- The error at a name that is not declared. -/
def SemanticError.undeclared (ident : Ident) : SemanticError :=
  ⟨.undeclared ident.name, ident.span⟩

mutual

/-- The names at which statements fail: for each statement without parts and for each condition,
the first name that is not known. -/
def Statement.unknown (known : String → Bool) : Statement → List Ident
  | .assign target value => (Ident.firstUnknown known (target :: value.idents)).toList
  | .input target => (Ident.firstUnknown known [target]).toList
  | .output value => (Ident.firstUnknown known value.idents).toList
  | .branch test yes no =>
      (Ident.firstUnknown known test.idents).toList ++ yes.unknown known ++ no.unknown known
  | .loop test body => (Ident.firstUnknown known test.idents).toList ++ body.unknown known
  | .block body => Statement.unknownOf known body

def Statement.unknownOf (known : String → Bool) : List Statement → List Ident
  | [] => []
  | first :: later => first.unknown known ++ Statement.unknownOf known later

end

section Blame
variable {A B : Type} {scope : Scope} {first : Lowering A} {next : A → Lowering B}
  {idents others : List Ident}

/-- The error with which a lowering ends. -/
def failure? : EStateM.Result SemanticError Supply A → Option SemanticError
  | .ok _ _ => none
  | .error error _ => some error

/-- A lowering fails exactly if one of the names is not declared, and at the first of them. -/
def Blames (scope : Scope) (lowering : Lowering A) (idents : List Ident) : Prop :=
  ∀ supply, failure? (lowering supply) =
    (Ident.firstUnknown scope.contains idents).map .undeclared

theorem blames_pure (value : A) : Blames scope (pure value) [] := fun _ => rfl

/-- What comes second is looked at only if nothing is wrong with what comes first. -/
theorem blames_bind (start : Blames scope first idents)
    (later : ∀ value, Blames scope (next value) others) :
    Blames scope (first >>= next) (idents ++ others) := by
  intro supply
  have head := start supply
  rw [Ident.firstUnknown, List.find?_append, Option.map_or]
  simp only [bind, EStateM.bind]
  cases result : first supply with
  | ok value middle =>
      rw [result] at head
      rw [Ident.firstUnknown] at head
      rw [← head]
      exact later value middle
  | error error middle =>
      rw [result] at head
      rw [Ident.firstUnknown] at head
      rw [← head]
      rfl

/-- A lowering that cannot fail adds nothing to the names before it. -/
theorem blames_then (start : Blames scope first idents)
    (later : ∀ value, Blames scope (next value) []) : Blames scope (first >>= next) idents := by
  have whole := blames_bind start later
  rwa [List.append_nil] at whole

/-- A lowering succeeds if all of its names are declared. -/
theorem Blames.ok (blames : Blames scope first idents) (declared : scope.declares idents = true)
    (supply : Supply) : ∃ value after, first supply = .ok value after := by
  have head := blames supply
  rw [Ident.firstUnknown_none.mpr declared] at head
  cases result : first supply with
  | ok value after => exact ⟨value, after, rfl⟩
  | error error after =>
      rw [result] at head
      cases head

/-- A lowering with an undeclared name fails. -/
theorem Blames.error (blames : Blames scope first idents) (missing : ¬scope.declares idents = true)
    (supply : Supply) : ∃ error after, first supply = .error error after := by
  have head := blames supply
  cases result : first supply with
  | ok value after =>
      rw [result, failure?, eq_comm, Option.map_eq_none_iff] at head
      exact absurd (Ident.firstUnknown_none.mp head) missing
  | error error after => exact ⟨error, after, rfl⟩

end Blame

section Parts
variable (scope : Scope)

theorem freshTemp_blames : Blames scope (freshTemp scope) [] := fun _ => rfl

/-- Choosing a destination does not fail. -/
theorem destination_blames (slot : Option Name) : Blames scope (destination scope slot) [] := by
  cases slot with
  | none => exact freshTemp_blames scope
  | some place => exact blames_pure place

/-- Looking up a name fails if it is not declared. -/
theorem resolve_blames (ident : Ident) : Blames scope (resolve scope ident) [ident] := by
  intro supply
  simp only [resolve, Scope.lookup, Ident.firstUnknown, Scope.contains, List.find?_singleton]
  cases scope.scalar? ident.name with
  | none => rfl
  | some scalar => rfl

/-- An expression fails at its first undeclared name. -/
theorem lowerExpr_blames (slot : Option Name) (value : Expr) :
    Blames scope (lowerExpr scope slot value) value.idents := by
  induction value generalizing slot with
  | literal value => exact blames_pure _
  | identifier ident => exact blames_then (resolve_blames scope ident) fun _ => blames_pure _
  | binary op left right leftBlames rightBlames =>
      apply blames_bind (leftBlames none)
      intro left
      apply blames_then (rightBlames none)
      intro right
      exact blames_then (destination_blames scope slot) fun _ => blames_pure _
  | cast target operand operandBlames =>
      apply blames_then (operandBlames none)
      intro operand
      exact blames_then (destination_blames scope slot) fun _ => blames_pure _

/-- Lowering a relation of values does not fail. -/
theorem lowerRelation_blames (scalar : Scalar) (op : RelOp) (left right : Value) :
    Blames scope (lowerRelation scope scalar op left right) [] := by
  intro supply
  cases op <;> rfl

/-- A condition fails at its first undeclared name. -/
theorem lowerCondition_blames (test : Condition) :
    Blames scope (lowerCondition scope test) test.idents := by
  induction test with
  | or left right leftBlames rightBlames =>
      apply blames_bind leftBlames
      intro left
      exact blames_then rightBlames fun _ _ => rfl
  | and left right leftBlames rightBlames =>
      apply blames_bind leftBlames
      intro left
      exact blames_then rightBlames fun _ _ => rfl
  | not operand operandBlames => exact blames_then operandBlames fun _ _ => rfl
  | relation op left right =>
      apply blames_bind (lowerExpr_blames scope none left)
      intro left
      apply blames_then (lowerExpr_blames scope none right)
      intro right
      exact blames_then (lowerRelation_blames scope _ op _ _) fun _ => blames_pure _

/-- An assignment fails at its first undeclared name, and looks at its target first. -/
theorem lowerAssign_blames (target : Ident) (value : Expr) :
    Blames scope (lowerAssign scope target value) (target :: value.idents) := by
  apply blames_bind (resolve_blames scope target)
  intro scalar
  apply blames_then (lowerExpr_blames scope _ value)
  intro result
  cases value <;> exact blames_pure _

/-- An input fails if its target is not declared. -/
theorem lowerInput_blames (target : Ident) : Blames scope (lowerInput scope target) [target] :=
  blames_then (resolve_blames scope target) fun _ => blames_pure _

/-- An output fails at its first undeclared name. -/
theorem lowerOutput_blames (value : Expr) : Blames scope (lowerOutput scope value) value.idents :=
  blames_then (lowerExpr_blames scope none value) fun _ => blames_pure _

end Parts

namespace Lowered

/-- The errors of the statements that were left out, in the order in which they were. -/
def errors (lowered : Lowered) : List SemanticError := lowered.drops.map Drop.error

end Lowered

section Statements
variable {scope : Scope}

/-- A statement without parts is left out at the first name that is not declared. -/
theorem keepOrDrop_errors {lowering : Lowering Listing} {idents : List Ident}
    (blames : Blames scope lowering idents) (supply : Supply) :
    (keepOrDrop lowering supply).1.errors =
      (Ident.firstUnknown scope.contains idents).toList.map .undeclared := by
  have head := blames supply
  rw [keepOrDrop, ← Option.toList_map, ← head]
  cases lowering supply with
  | ok code after => rfl
  | error error after => rfl

/-- A condition has an error at the first name that is not declared. -/
theorem lowerCondition_errors (scope : Scope) (test : Condition) (before : Supply) :
    (failure? (lowerCondition scope test before)).toList =
      (Ident.firstUnknown scope.contains test.idents).toList.map .undeclared := by
  rw [lowerCondition_blames scope test before, Option.toList_map]

mutual

/-- The errors of a statement are those at its unknown names. Those of a condition are found after
those of the parts, so the order may differ. -/
theorem lowerStatement_errors (scope : Scope) : ∀ (statement : Statement) (before : Supply),
    (lowerStatement scope statement before).1.errors.Perm
      ((statement.unknown scope.contains).map .undeclared)
  | .assign target value, before => by
      rw [lowerStatement, Statement.unknown, keepOrDrop_errors (lowerAssign_blames scope target value)]
  | .input target, before => by
      rw [lowerStatement, Statement.unknown, keepOrDrop_errors (lowerInput_blames scope target)]
  | .output value, before => by
      rw [lowerStatement, Statement.unknown, keepOrDrop_errors (lowerOutput_blames scope value)]
  | .branch test yes no, before => by
      have tested := lowerCondition_errors scope test.positive before
      rw [Statement.unknown, List.map_append, List.map_append, ← test.positive_idents, ← tested]
      cases lowered : lowerCondition scope test.positive before with
      | ok result afterTest =>
          rw [lowerStatement_branch_ok lowered]
          have first := lowerStatement_errors scope yes afterTest
          have second := lowerStatement_errors scope no (lowerStatement scope yes afterTest).2
          simpa [Lowered.errors, failure?] using first.append second
      | error error afterTest =>
          rw [lowerStatement_branch_error lowered]
          have first := lowerStatement_errors scope yes afterTest
          have second := lowerStatement_errors scope no (lowerStatement scope yes afterTest).2
          have sides := (first.append second).append_right [error]
          simpa [Lowered.errors, failure?, giveUp] using sides.trans List.perm_append_comm
  | .loop test body, before => by
      have tested := lowerCondition_errors scope test ⟨before.temps, before.labels + 2⟩
      rw [Statement.unknown, List.map_append, ← tested]
      cases lowered : lowerCondition scope test ⟨before.temps, before.labels + 2⟩ with
      | ok result afterTest =>
          rw [lowerStatement_loop_ok lowered]
          simpa [Lowered.errors, failure?] using lowerStatement_errors scope body afterTest
      | error error afterTest =>
          rw [lowerStatement_loop_error lowered]
          have inner := (lowerStatement_errors scope body afterTest).append_right [error]
          simpa [Lowered.errors, failure?, giveUp] using inner.trans List.perm_append_comm
  | .block body, before => by
      rw [lowerStatement, Statement.unknown]
      exact lowerStatements_errors scope body before

/-- Statements report their unknown names, in some order. -/
theorem lowerStatements_errors (scope : Scope) : ∀ (body : List Statement) (before : Supply),
    (lowerStatements scope body before).1.errors.Perm
      ((Statement.unknownOf scope.contains body).map .undeclared)
  | [], before => .refl _
  | first :: later, before => by
      rw [lowerStatements, Statement.unknownOf, List.map_append]
      have start := lowerStatement_errors scope first before
      have rest := lowerStatements_errors scope later (lowerStatement scope first before).2
      simpa [Lowered.errors] using start.append rest

end

/-- The errors of a program are those at the unknown names of its body. -/
theorem generate_errors (scope : Scope) (body : List Statement) :
    (generate scope body).errors.Perm
      ((Statement.unknownOf scope.contains body).map .undeclared) :=
  lowerStatements_errors scope body ⟨0, 0⟩

end Statements

end Cpl
