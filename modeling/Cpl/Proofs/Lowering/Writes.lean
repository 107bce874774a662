import Cpl.Proofs.Lowering.Failure
import Cpl.Proofs.Lowering.Simulation
import Cpl.Proofs.Quad.Typed

namespace Cpl

/-- The variable that an instruction writes, and the type at which it does. -/
def Quad.write? (quad : Quad) : Option (String × Scalar) :=
  match quad.target?, quad.written? with
  | some (.var name), some scalar => some (name, scalar)
  | _, _ => none

namespace Listing

/-- The writes to variables, in order. -/
def varWrites (code : Listing) : List (String × Scalar) := code.filterMap Quad.write?

@[simp] theorem varWrites_nil : varWrites [] = [] := rfl

@[simp] theorem varWrites_append (first second : Listing) :
    varWrites (first ++ second) = varWrites first ++ varWrites second := List.filterMap_append

@[simp] theorem varWrites_cons (quad : Quad) (rest : Listing) :
    varWrites (quad :: rest) = quad.write?.toList ++ varWrites rest := by
  cases found : quad.write? <;> simp [varWrites, found]

/-- Every variable is written at the type that it has. -/
def WritesDeclared (scope : Scope) (code : Listing) : Prop :=
  ∀ quad ∈ code, ∀ name scalar, quad.write? = some (name, scalar) → scope.scalar? name = some scalar

end Listing

/-- Whether an expression is an operation, and not a constant or a name. -/
def Expr.isOperation : Expr → Bool
  | .literal _ | .identifier _ => false
  | .binary .. | .cast .. => true

/-- The type at which a value is written to a variable, or at which the variable is read in if there
is none: that of the value for an operation, and that of the variable otherwise. -/
def Scope.writtenAt (scope : Scope) (target : Ident) : Option Expr → Scalar
  | some value => if value.isOperation then value.typeIn scope else scope.typeOf target.name
  | none => scope.typeOf target.name

mutual

/-- The targets of the statements that are kept, in the order of their code, with the values that
are assigned to them. An input has no such value. -/
def Statement.writes (scope : Scope) : Statement → List (Ident × Option Expr)
  | .assign target value =>
      if scope.declares (target :: value.idents) then [(target, some value)] else []
  | .input target => if scope.declares [target] then [(target, none)] else []
  | .output _ => []
  | .branch test yes no =>
      if scope.declares test.idents then
        if test.isNegation then no.writes scope ++ yes.writes scope
        else yes.writes scope ++ no.writes scope
      else []
  | .loop test body => if scope.declares test.idents then body.writes scope else []
  | .block body => Statement.writesOf scope body

def Statement.writesOf (scope : Scope) : List Statement → List (Ident × Option Expr)
  | [] => []
  | first :: later => first.writes scope ++ Statement.writesOf scope later

end

/-- Writes as variables and types. -/
def Scope.typedWrites (scope : Scope) (writes : List (Ident × Option Expr)) : List (String × Scalar) :=
  writes.map fun write => (write.1.name, scope.writtenAt write.1 write.2)

section Parts
variable {scope : Scope} {before after : Supply} {result : Evaluated}

/-- A conversion writes its variable at the target type. -/
theorem conversion_write (source target : Scalar) (name : String) (value : Value) :
    (conversion source target (.var name) value).write? = some (name, target) := by
  cases source <;> cases target <;> rfl

/-- A conversion into a temporary writes no variable. -/
theorem conversion_temp_write (source target : Scalar) (index : Nat) (value : Value) :
    (conversion source target (.temp index) value).write? = none := by
  cases source <;> cases target <;> rfl

/-- An expression that is not offered a place writes no variable. -/
theorem lowerExpr_writes {value : Expr}
    (lowered : lowerExpr scope none value before = .ok result after) : result.code.varWrites = [] := by
  induction value generalizing before after result with
  | literal value =>
      obtain ⟨rfl, rfl⟩ := lowerExpr_literal.mp lowered
      rfl
  | identifier ident =>
      obtain ⟨scalar, _, rfl, rfl⟩ := lowerExpr_identifier.mp lowered
      rfl
  | binary op left right leftWrites rightWrites =>
      obtain ⟨leftResult, middle, rightResult, last, target, lowerLeft, lowerRight, chosen, rfl⟩ :=
        lowerExpr_binary.mp lowered
      obtain ⟨rfl, rfl⟩ := destination_none.mp chosen
      simp [leftWrites lowerLeft, rightWrites lowerRight, Quad.write?, Quad.target?]
  | cast target operand operandWrites =>
      obtain ⟨operandResult, last, place, lowerOperand, chosen, rfl⟩ := lowerExpr_cast.mp lowered
      obtain ⟨rfl, rfl⟩ := destination_none.mp chosen
      simp [operandWrites lowerOperand, conversion_temp_write]

/-- An operation writes the variable that it is offered at its own type. -/
theorem lowerExpr_var_writes {value : Expr} {name : String}
    (lowered : lowerExpr scope (some (.var name)) value before = .ok result after) :
    result.code.varWrites = if value.isOperation then [(name, value.typeIn scope)] else [] := by
  rw [← lowerExpr_typeIn lowered]
  cases value with
  | literal value =>
      obtain ⟨rfl, rfl⟩ := lowerExpr_literal.mp lowered
      rfl
  | identifier ident =>
      obtain ⟨scalar, _, rfl, rfl⟩ := lowerExpr_identifier.mp lowered
      rfl
  | binary op left right =>
      obtain ⟨leftResult, middle, rightResult, last, target, lowerLeft, lowerRight, chosen, rfl⟩ :=
        lowerExpr_binary.mp lowered
      obtain ⟨rfl, rfl⟩ := destination_some.mp chosen
      simp [lowerExpr_writes lowerLeft, lowerExpr_writes lowerRight, Quad.write?, Quad.target?,
        Quad.written?, Expr.isOperation]
  | cast target operand =>
      obtain ⟨operandResult, last, place, lowerOperand, chosen, rfl⟩ := lowerExpr_cast.mp lowered
      obtain ⟨rfl, rfl⟩ := destination_some.mp chosen
      simp [lowerExpr_writes lowerOperand, conversion_write, Expr.isOperation]

/-- A disjunction writes the variables that its sides write. -/
theorem orCode_writes (left right : Evaluated) (index : Nat) (next success failure exit : Label) :
    (orCode left right (.temp index) next success failure exit).varWrites =
      left.code.varWrites ++ right.code.varWrites := by
  simp [orCode, truthTail, Quad.write?, Quad.target?]

/-- A conjunction writes the variables that its sides write. -/
theorem andCode_writes (left right : Evaluated) (index : Nat) (failure exit : Label) :
    (andCode left right (.temp index) failure exit).varWrites =
      left.code.varWrites ++ right.code.varWrites := by
  simp [andCode, truthTail, Quad.write?, Quad.target?]

/-- A branch writes the variables that its parts write. -/
theorem branchCode_writes (test : Evaluated) (first second : Listing) (failure exit : Label) :
    (branchCode test first second failure exit).varWrites =
      test.code.varWrites ++ (first.varWrites ++ second.varWrites) := by
  simp [branchCode, Quad.write?, Quad.target?]

/-- A loop writes the variables that its parts write. -/
theorem loopCode_writes (test : Evaluated) (body : Listing) (entry exit : Label) :
    (loopCode test body entry exit).varWrites = test.code.varWrites ++ body.varWrites := by
  simp [loopCode, Quad.write?, Quad.target?]

/-- A relation writes no variable. -/
theorem lowerRelation_writes {scalar : Scalar} {op : RelOp} {left right : Value}
    (lowered : lowerRelation scope scalar op left right before = .ok result after) :
    result.code.varWrites = [] := by
  cases op with
  | equal | notEqual | less | greater =>
      cases lowered
      rfl
  | lessEqual | greaterEqual =>
      cases lowered
      exact orCode_writes _ _ _ _ _ _ _

/-- A condition writes no variable. -/
theorem lowerCondition_writes {test : Condition}
    (lowered : lowerCondition scope test before = .ok result after) :
    result.code.varWrites = [] := by
  induction test generalizing before after result with
  | or left right leftWrites rightWrites =>
      obtain ⟨leftResult, middle, rightResult, last, lowerLeft, lowerRight, joined⟩ :=
        lowerCondition_or.mp lowered
      rw [lowerOr_eq] at joined
      cases joined
      rw [orCode_writes, leftWrites lowerLeft, rightWrites lowerRight, List.append_nil]
  | and left right leftWrites rightWrites =>
      obtain ⟨leftResult, middle, rightResult, last, lowerLeft, lowerRight, joined⟩ :=
        lowerCondition_and.mp lowered
      rw [lowerAnd_eq] at joined
      cases joined
      rw [andCode_writes, leftWrites lowerLeft, rightWrites lowerRight, List.append_nil]
  | not operand operandWrites =>
      obtain ⟨operandResult, last, lowerOperand, rfl, rfl⟩ := lowerCondition_not.mp lowered
      simp [operandWrites lowerOperand, Quad.write?, Quad.target?]
  | relation op left right =>
      obtain ⟨leftResult, middle, rightResult, last, compared, lowerLeft, lowerRight, related, rfl⟩ :=
        lowerCondition_relation.mp lowered
      simp [lowerExpr_writes lowerLeft, lowerExpr_writes lowerRight, lowerRelation_writes related]

/-- An assignment writes its target. -/
theorem lowerAssign_writes {target : Ident} {value : Expr} {code : Listing}
    (lowered : lowerAssign scope target value before = .ok code after) :
    code.varWrites = scope.typedWrites [(target, some value)] := by
  obtain ⟨scalar, result, found, lowerValue, rfl⟩ := lowerAssign_ok.mp lowered
  rw [Listing.varWrites_append, lowerExpr_var_writes lowerValue, Scope.typedWrites]
  cases value <;> simp [Scope.writtenAt, Expr.isOperation, copyCode, Quad.write?, Quad.target?, Quad.written?,
    Scope.typeOf, found]

/-- An input writes its target. -/
theorem lowerInput_writes {target : Ident} {code : Listing}
    (lowered : lowerInput scope target before = .ok code after) :
    code.varWrites = scope.typedWrites [(target, none)] := by
  obtain ⟨scalar, found, rfl, rfl⟩ := lowerInput_ok.mp lowered
  simp [Scope.typedWrites, Scope.writtenAt, Quad.write?, Quad.target?, Quad.written?, Scope.typeOf,
    found]

/-- An output writes no variable. -/
theorem lowerOutput_writes {value : Expr} {code : Listing}
    (lowered : lowerOutput scope value before = .ok code after) : code.varWrites = [] := by
  obtain ⟨result, lowerValue, rfl⟩ := lowerOutput_ok.mp lowered
  simp [lowerExpr_writes lowerValue, Quad.write?, Quad.target?]

end Parts

section Statements
variable {scope : Scope}

/-- Writes have their types one by one. -/
theorem typedWrites_append (first second : List (Ident × Option Expr)) :
    scope.typedWrites (first ++ second) = scope.typedWrites first ++ scope.typedWrites second :=
  List.map_append

/-- A statement without parts writes what it does if it is lowered, or nothing. -/
theorem keepOrDrop_writes {lowering : Lowering Listing} {idents : List Ident}
    {writes : List (Ident × Option Expr)} (before : Supply) (blames : Blames scope lowering idents)
    (kept : ∀ {code after}, lowering before = .ok code after →
      code.varWrites = scope.typedWrites writes) :
    (keepOrDrop lowering before).1.code.varWrites =
      scope.typedWrites (if scope.declares idents then writes else []) := by
  rw [keepOrDrop]
  by_cases declared : scope.declares idents = true
  · obtain ⟨code, after, lowered⟩ := blames.ok declared before
    simp only [lowered, if_pos declared, kept lowered]
  · obtain ⟨error, after, failed⟩ := blames.error declared before
    simp only [failed, if_neg declared]
    rfl

mutual

/-- The code of a statement writes what the statement does. -/
theorem lowerStatement_writes (scope : Scope) : ∀ (statement : Statement) (before : Supply),
    (lowerStatement scope statement before).1.code.varWrites =
      scope.typedWrites (statement.writes scope)
  | .assign target value, before => by
      rw [lowerStatement, Statement.writes]
      exact keepOrDrop_writes before (lowerAssign_blames scope target value) lowerAssign_writes
  | .input target, before => by
      rw [lowerStatement, Statement.writes]
      exact keepOrDrop_writes before (lowerInput_blames scope target) lowerInput_writes
  | .output value, before => by
      have nothing : (keepOrDrop (lowerOutput scope value) before).1.code.varWrites =
          scope.typedWrites (if scope.declares value.idents then [] else []) :=
        keepOrDrop_writes before (lowerOutput_blames scope value) lowerOutput_writes
      rwa [ite_self] at nothing
  | .branch test yes no, before => by
      rw [Statement.writes, ← test.positive_idents]
      have blames := lowerCondition_blames scope test.positive
      by_cases declared : scope.declares test.positive.idents = true
      · obtain ⟨tested, afterTest, lowered⟩ := blames.ok declared before
        have first := lowerStatement_writes scope yes afterTest
        have second := lowerStatement_writes scope no (lowerStatement scope yes afterTest).2
        rw [lowerStatement_branch_ok lowered, if_pos declared]
        dsimp only
        split
        · rw [branchCode_writes, lowerCondition_writes lowered, first, second, typedWrites_append,
            List.nil_append]
        · rw [branchCode_writes, lowerCondition_writes lowered, first, second, typedWrites_append,
            List.nil_append]
      · obtain ⟨error, afterTest, failed⟩ := blames.error declared before
        rw [lowerStatement_branch_error failed, if_neg declared]
        rfl
  | .loop test body, before => by
      rw [Statement.writes]
      have blames := lowerCondition_blames scope test
      by_cases declared : scope.declares test.idents = true
      · obtain ⟨tested, afterTest, lowered⟩ := blames.ok declared ⟨before.temps, before.labels + 2⟩
        have inner := lowerStatement_writes scope body afterTest
        rw [lowerStatement_loop_ok lowered, if_pos declared]
        dsimp only
        rw [loopCode_writes, lowerCondition_writes lowered, inner, List.nil_append]
      · obtain ⟨error, afterTest, failed⟩ := blames.error declared ⟨before.temps, before.labels + 2⟩
        rw [lowerStatement_loop_error failed, if_neg declared]
        rfl
  | .block body, before => by
      rw [lowerStatement, Statement.writes]
      exact lowerStatements_writes scope body before

/-- Statements write the targets of those that are kept. -/
theorem lowerStatements_writes (scope : Scope) : ∀ (body : List Statement) (before : Supply),
    (lowerStatements scope body before).1.code.varWrites =
      scope.typedWrites (Statement.writesOf scope body)
  | [], before => rfl
  | first :: later, before => by
      rw [lowerStatements, Statement.writesOf, typedWrites_append,
        ← lowerStatement_writes scope first before,
        ← lowerStatements_writes scope later (lowerStatement scope first before).2]
      exact Listing.varWrites_append _ _

end

/-- The first of declared names is declared. -/
theorem declares_head {target : Ident} {idents : List Ident}
    (declared : scope.declares (target :: idents) = true) : scope.contains target.name = true := by
  rw [Scope.declares, List.all_cons, Bool.and_eq_true] at declared
  exact declared.1

mutual

/-- Only declared variables are written. -/
theorem Statement.writes_declared {write : Ident × Option Expr} : ∀ (statement : Statement),
    write ∈ statement.writes scope → scope.contains write.1.name = true
  | .assign target value, member => by
      rw [Statement.writes, List.mem_ite_nil_right, List.mem_singleton] at member
      obtain ⟨declared, rfl⟩ := member
      exact declares_head declared
  | .input target, member => by
      rw [Statement.writes, List.mem_ite_nil_right, List.mem_singleton] at member
      obtain ⟨declared, rfl⟩ := member
      exact declares_head declared
  | .output value, member => by
      rw [Statement.writes] at member
      cases member
  | .branch test yes no, member => by
      rw [Statement.writes, List.mem_ite_nil_right] at member
      obtain ⟨_, within⟩ := member
      have either : write ∈ yes.writes scope ∨ write ∈ no.writes scope := by
        split at within
        · exact (List.mem_append.mp within).symm
        · exact List.mem_append.mp within
      exact either.elim (Statement.writes_declared yes) (Statement.writes_declared no)
  | .loop test body, member => by
      rw [Statement.writes, List.mem_ite_nil_right] at member
      exact Statement.writes_declared body member.2
  | .block body, member => by
      rw [Statement.writes] at member
      exact Statement.writesOf_declared body member

/-- The targets that are written are declared. -/
theorem Statement.writesOf_declared {write : Ident × Option Expr} : ∀ (body : List Statement),
    write ∈ Statement.writesOf scope body → scope.contains write.1.name = true
  | [], member => by cases member
  | first :: later, member => by
      rw [Statement.writesOf, List.mem_append] at member
      exact member.elim (Statement.writes_declared first) (Statement.writesOf_declared later)

end

/-- Code writes variables at their types exactly if its writes are at them. -/
theorem writesDeclared_iff {code : Listing} : code.WritesDeclared scope ↔
    ∀ write ∈ code.varWrites, scope.scalar? write.1 = some write.2 := by
  constructor
  · intro declared write member
    obtain ⟨quad, within, found⟩ := List.mem_filterMap.mp member
    exact declared quad within write.1 write.2 found
  · intro declared quad within name scalar found
    exact declared (name, scalar) (List.mem_filterMap.mpr ⟨quad, within, found⟩)

/-- A write is at the type of a declared target just if it is not an operation of another type. -/
theorem writtenAt_iff {target : Ident} {value : Option Expr}
    (declared : scope.contains target.name = true) :
    scope.scalar? target.name = some (scope.writtenAt target value) ↔
      ∀ operation, value = some operation → operation.isOperation = true →
        scope.scalar? target.name = some (operation.typeIn scope) := by
  obtain ⟨scalar, found⟩ := Option.isSome_iff_exists.mp declared
  have own : scope.typeOf target.name = scalar := by rw [Scope.typeOf, found, Option.getD_some]
  cases value with
  | none => simp [Scope.writtenAt, own, found]
  | some value =>
      by_cases operation : value.isOperation = true
      · simp [Scope.writtenAt, operation]
      · simp [Scope.writtenAt, operation, own, found]

end Statements

/-- The variables that a program writes are those of its kept assignments and inputs, in order, and
an operation is written at its own type. So they are all written at their declared types just if no
operation is assigned to a variable of another type. -/
theorem generate_writes (scope : Scope) (body : List Statement) :
    (generate scope body).program.varWrites = scope.typedWrites (Statement.writesOf scope body) ∧
      ((generate scope body).program.WritesDeclared scope ↔
        ∀ target value, (target, some value) ∈ Statement.writesOf scope body →
          value.isOperation = true → scope.scalar? target.name = some (value.typeIn scope)) := by
  have writes : (generate scope body).program.varWrites =
      scope.typedWrites (Statement.writesOf scope body) := by
    rw [← lowerStatements_writes scope body ⟨0, 0⟩]
    exact (Listing.varWrites_append _ _).trans (List.append_nil _)
  refine ⟨writes, ?_⟩
  rw [writesDeclared_iff, writes, Scope.typedWrites, List.forall_mem_map]
  constructor
  · intro declared target value member operation
    have known := Statement.writesOf_declared body member
    exact (writtenAt_iff known).mp (declared _ member) value rfl operation
  · intro agree write member
    have known := Statement.writesOf_declared body member
    refine (writtenAt_iff known).mpr fun value assigned operation => ?_
    exact agree write.1 value (by rwa [← assigned]) operation

/-- The sum of two whole numbers is assigned to a real variable as a whole number. -/
theorem generate_sum_not_writesDeclared :
    let scope : Scope := (Scope.ofDeclarations [⟨[⟨"x", .point 0⟩], .float⟩,
      ⟨[⟨"a", .point 0⟩, ⟨"b", .point 0⟩], .int⟩]).1
    let sum : Statement := .assign ⟨"x", .point 0⟩
      (.binary .add (.identifier ⟨"a", .point 0⟩) (.identifier ⟨"b", .point 0⟩))
    ¬(generate scope [sum]).program.WritesDeclared scope := by
  intro scope sum declared
  have written : .arith .int .add (.var "x") (.name (.var "a")) (.name (.var "b")) ∈
      (generate scope [sum]).program := by decide
  have wrong : scope.scalar? "x" = some .int := declared _ written "x" .int rfl
  exact absurd wrong (by decide)

end Cpl
