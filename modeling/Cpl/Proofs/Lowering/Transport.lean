import Cpl.Proofs.Lowering.Emission
import Cpl.Proofs.Program.Respelling

namespace Cpl

def Value.mapName (change : Name → Name) : Value → Value
  | literal value => literal value
  | name place => name (change place)

/-- The instruction with other places, and the same labels. -/
def Quad.mapNames (change : Name → Name) : Quad → Quad
  | assign scalar target value => assign scalar (change target) (value.mapName change)
  | input scalar target => input scalar (change target)
  | print scalar value => print scalar (value.mapName change)
  | arith scalar op target left right =>
      arith scalar op (change target) (left.mapName change) (right.mapName change)
  | compare scalar op target left right =>
      compare scalar op (change target) (left.mapName change) (right.mapName change)
  | toReal target value => toReal (change target) (value.mapName change)
  | toInt target value => toInt (change target) (value.mapName change)
  | jump label => jump label
  | jumpIfZero label value => jumpIfZero label (value.mapName change)
  | mark label => mark label
  | halt => halt

namespace Listing

def mapNames (change : Name → Name) (code : Listing) : Listing := code.map (Quad.mapNames change)

section MapNames
variable (change : Name → Name)

@[simp] theorem mapNames_nil : mapNames change [] = [] := rfl

@[simp] theorem mapNames_cons (quad : Quad) (rest : Listing) :
    mapNames change (quad :: rest) = quad.mapNames change :: mapNames change rest := rfl

@[simp] theorem mapNames_append (first second : Listing) :
    mapNames change (first ++ second) = mapNames change first ++ mapNames change second :=
  List.map_append

end MapNames

end Listing

def Evaluated.mapNames (change : Name → Name) (result : Evaluated) : Evaluated :=
  ⟨result.code.mapNames change, result.scalar, result.value.mapName change⟩

section Conditions
variable (respelling : Respelling) (test : Condition)

/-- Respelling keeps what is below the outermost negation. -/
theorem Condition.respell_positive :
    (test.respell respelling).positive = test.positive.respell respelling := by
  cases test <;> rfl

/-- Respelling keeps whether a condition is a negation. -/
theorem Condition.respell_isNegation :
    (test.respell respelling).isNegation = test.isNegation := by
  cases test <;> rfl

end Conditions

/-- Variables under other names, and temporaries with other indices. -/
def Name.respell (names : String → String) (temps : Nat → Nat) : Name → Name
  | var name => var (names name)
  | temp index => temp (temps index)

/-- A change of identifiers and temporaries that fits two scopes: variables keep their types, and
what is the next temporary in the one scope is so in the other. -/
structure Transport (scope other : Scope) where
  respelling : Respelling
  temps : Nat → Nat
  scalar : ∀ name, other.scalar? (respelling.names name) = scope.scalar? name
  next : ∀ last, temps (scope.nextTemp last) = other.nextTemp (temps last)

namespace Transport
variable {scope other : Scope} (transport : Transport scope other) {A B : Type}

def place : Name → Name := Name.respell transport.respelling.names transport.temps

def supply (supply : Supply) : Supply := ⟨transport.temps supply.temps, supply.labels⟩

/-- What becomes of an outcome, whether it is a success or a failure. -/
def outcome (change : A → A) :
    EStateM.Result SemanticError Supply A → EStateM.Result SemanticError Supply A
  | .ok value rest => .ok (change value) (transport.supply rest)
  | .error error rest => .error (error.respell transport.respelling) (transport.supply rest)

/-- One lowering carries over to another: from where the supply goes, the other comes to where the
outcome goes. -/
def Carries (change : A → A) (one twin : Lowering A) : Prop :=
  ∀ before, twin (transport.supply before) = transport.outcome change (one before)

variable {transport}

/-- A value carries over to its image. -/
theorem carries_pure {change : A → A} {value image : A} (same : image = change value) :
    transport.Carries change (pure value) (pure image) := by
  intro before
  rw [same]
  rfl

/-- Lowerings that carry over do so one after the other. -/
theorem carries_bind {change : A → A} {also : B → B} {one twin : Lowering A}
    {next image : A → Lowering B} (start : transport.Carries change one twin)
    (later : ∀ value, transport.Carries also (next value) (image (change value))) :
    transport.Carries also (one >>= next) (twin >>= image) := by
  intro before
  have first := start before
  simp only [bind, EStateM.bind, first]
  cases one before with
  | ok value middle => exact later value middle
  | error error middle => rfl

variable (transport)

/-- A new temporary carries over. -/
theorem freshTemp_carries :
    transport.Carries transport.place (freshTemp scope) (freshTemp other) := by
  intro before
  simp only [freshTemp, Supply.temp, supply, outcome, place, Name.respell, transport.next]

/-- Looking up a name carries over. -/
theorem resolve_carries (ident : Ident) :
    transport.Carries id (resolve scope ident)
      (resolve other (ident.respell transport.respelling)) := by
  intro before
  have same := transport.scalar ident.name
  simp only [resolve, Scope.lookup, Ident.respell, same]
  cases scope.scalar? ident.name with
  | none => rfl
  | some scalar => rfl

/-- Choosing a destination carries over. -/
theorem destination_carries (slot : Option Name) :
    transport.Carries transport.place (destination scope slot)
      (destination other (slot.map transport.place)) := by
  cases slot with
  | none => exact transport.freshTemp_carries
  | some name => exact carries_pure rfl

/-- Names are changed in a conversion by changing its place and its value. -/
theorem conversion_mapNames (change : Name → Name) (source target : Scalar) (place : Name)
    (value : Value) : (conversion source target place value).mapNames change =
      conversion source target (change place) (value.mapName change) := by
  cases source <;> cases target <;> rfl

/-- Lowering an expression carries over. -/
theorem lowerExpr_carries (slot : Option Name) (value : Expr) :
    transport.Carries (Evaluated.mapNames transport.place) (lowerExpr scope slot value)
      (lowerExpr other (slot.map transport.place) (value.respell transport.respelling)) := by
  induction value generalizing slot with
  | literal value => exact carries_pure rfl
  | identifier ident =>
      apply carries_bind (transport.resolve_carries ident)
      exact fun scalar => carries_pure rfl
  | binary op left right leftCarries rightCarries =>
      apply carries_bind (leftCarries none)
      intro left
      apply carries_bind (rightCarries none)
      intro right
      apply carries_bind (transport.destination_carries slot)
      intro target
      apply carries_pure
      simp [Evaluated.mapNames, Quad.mapNames, Value.mapName]
  | cast result operand operandCarries =>
      apply carries_bind (operandCarries none)
      intro operand
      apply carries_bind (transport.destination_carries slot)
      intro target
      apply carries_pure
      simp [Evaluated.mapNames, conversion_mapNames, Value.mapName]

/-- Lowering a disjunction carries over. -/
theorem lowerOr_carries (left right : Evaluated) :
    transport.Carries (Evaluated.mapNames transport.place) (lowerOr scope left right)
      (lowerOr other (left.mapNames transport.place) (right.mapNames transport.place)) := by
  intro before
  rw [lowerOr_eq, lowerOr_eq]
  simp [outcome, supply, transport.next, Evaluated.mapNames, orCode, truthTail, Quad.mapNames,
    Value.mapName, flag, place, Name.respell]

/-- Lowering a conjunction carries over. -/
theorem lowerAnd_carries (left right : Evaluated) :
    transport.Carries (Evaluated.mapNames transport.place) (lowerAnd scope left right)
      (lowerAnd other (left.mapNames transport.place) (right.mapNames transport.place)) := by
  intro before
  rw [lowerAnd_eq, lowerAnd_eq]
  simp [outcome, supply, transport.next, Evaluated.mapNames, andCode, truthTail, Quad.mapNames,
    Value.mapName, flag, place, Name.respell]

/-- Lowering a comparison carries over. -/
theorem lowerCompare_carries (scalar : Scalar) (op : CmpOp) (left right : Value) :
    transport.Carries (Evaluated.mapNames transport.place) (lowerCompare scope scalar op left right)
      (lowerCompare other scalar op (left.mapName transport.place)
        (right.mapName transport.place)) := by
  apply carries_bind transport.freshTemp_carries
  exact fun result => carries_pure rfl

/-- Lowering a comparison that allows equality carries over. -/
theorem lowerOrEqual_carries (scalar : Scalar) (strict : CmpOp) (left right : Value) :
    transport.Carries (Evaluated.mapNames transport.place)
      (lowerOrEqual scope scalar strict left right)
      (lowerOrEqual other scalar strict (left.mapName transport.place)
        (right.mapName transport.place)) := by
  apply carries_bind (transport.lowerCompare_carries scalar .equal left right)
  intro equal
  apply carries_bind (transport.lowerCompare_carries scalar strict left right)
  exact fun unequal => transport.lowerOr_carries equal unequal

/-- Lowering a relation carries over. -/
theorem lowerRelation_carries (scalar : Scalar) (op : RelOp) (left right : Value) :
    transport.Carries (Evaluated.mapNames transport.place)
      (lowerRelation scope scalar op left right)
      (lowerRelation other scalar op (left.mapName transport.place)
        (right.mapName transport.place)) := by
  cases op with
  | equal | notEqual | less | greater => exact transport.lowerCompare_carries scalar _ left right
  | lessEqual | greaterEqual => exact transport.lowerOrEqual_carries scalar _ left right

/-- Lowering a condition carries over. -/
theorem lowerCondition_carries (test : Condition) :
    transport.Carries (Evaluated.mapNames transport.place) (lowerCondition scope test)
      (lowerCondition other (test.respell transport.respelling)) := by
  induction test with
  | or left right leftCarries rightCarries =>
      apply carries_bind leftCarries
      intro left
      exact carries_bind rightCarries fun right => transport.lowerOr_carries left right
  | and left right leftCarries rightCarries =>
      apply carries_bind leftCarries
      intro left
      exact carries_bind rightCarries fun right => transport.lowerAnd_carries left right
  | not operand operandCarries =>
      apply carries_bind operandCarries
      intro operand
      apply carries_bind transport.freshTemp_carries
      intro result
      apply carries_pure
      simp [Evaluated.mapNames, Quad.mapNames, Value.mapName, flag]
  | relation op left right =>
      apply carries_bind (transport.lowerExpr_carries none left)
      intro left
      apply carries_bind (transport.lowerExpr_carries none right)
      intro right
      apply carries_bind (transport.lowerRelation_carries _ op left.value right.value)
      intro compared
      apply carries_pure
      simp [Evaluated.mapNames]

/-- Lowering an assignment carries over. -/
theorem lowerAssign_carries (target : Ident) (value : Expr) :
    transport.Carries (Listing.mapNames transport.place) (lowerAssign scope target value)
      (lowerAssign other (target.respell transport.respelling)
        (value.respell transport.respelling)) := by
  apply carries_bind (transport.resolve_carries target)
  intro scalar
  apply carries_bind (transport.lowerExpr_carries (some (.var target.name)) value)
  intro result
  cases value with
  | literal _ | identifier _ =>
      apply carries_pure
      simp [Evaluated.mapNames, Quad.mapNames, place, Name.respell, Ident.respell]
  | binary _ _ _ | cast _ _ => exact carries_pure rfl

/-- Lowering an input carries over. -/
theorem lowerInput_carries (target : Ident) :
    transport.Carries (Listing.mapNames transport.place) (lowerInput scope target)
      (lowerInput other (target.respell transport.respelling)) := by
  apply carries_bind (transport.resolve_carries target)
  exact fun scalar => carries_pure rfl

/-- Lowering an output carries over. -/
theorem lowerOutput_carries (value : Expr) :
    transport.Carries (Listing.mapNames transport.place) (lowerOutput scope value)
      (lowerOutput other (value.respell transport.respelling)) := by
  apply carries_bind (transport.lowerExpr_carries none value)
  intro result
  apply carries_pure
  simp [Evaluated.mapNames, Quad.mapNames]

def drop (drop : Drop) : Drop :=
  ⟨drop.error.respell transport.respelling, transport.temps drop.temps⟩

/-- What becomes of lowered statements. -/
def lowered (lowered : Lowered × Supply) : Lowered × Supply :=
  (⟨lowered.1.code.mapNames transport.place, lowered.1.drops.map transport.drop⟩,
    transport.supply lowered.2)

/-- What is kept or dropped of a statement carries over. -/
theorem keepOrDrop_carries {one twin : Lowering Listing}
    (carries : transport.Carries (Listing.mapNames transport.place) one twin) (before : Supply) :
    keepOrDrop twin (transport.supply before) = transport.lowered (keepOrDrop one before) := by
  simp only [keepOrDrop, carries before]
  cases one before with
  | ok code after => rfl
  | error error after => rfl

/-- Giving up a statement carries over. -/
theorem giveUp_carries (error : SemanticError) (drops : List Drop) (supply : Supply) :
    giveUp (error.respell transport.respelling) (drops.map transport.drop)
        (transport.supply supply) = transport.lowered (giveUp error drops supply) := by
  simp [giveUp, lowered, drop, Transport.supply]

/-- Names are changed in a branch part by part. -/
theorem branchCode_mapNames (change : Name → Name) (test : Evaluated) (first second : Listing)
    (failure exit : Label) : (branchCode test first second failure exit).mapNames change =
      branchCode (test.mapNames change) (first.mapNames change) (second.mapNames change) failure
        exit := by
  simp [branchCode, Evaluated.mapNames, Quad.mapNames]

/-- Names are changed in a loop part by part. -/
theorem loopCode_mapNames (change : Name → Name) (test : Evaluated) (body : Listing)
    (entry exit : Label) : (loopCode test body entry exit).mapNames change =
      loopCode (test.mapNames change) (body.mapNames change) entry exit := by
  simp [loopCode, Evaluated.mapNames, Quad.mapNames]

mutual

/-- A respelled statement is lowered as the statement itself. -/
theorem lowerStatement_carries : ∀ (statement : Statement) (before : Supply),
    lowerStatement other (statement.respell transport.respelling) (transport.supply before) =
      transport.lowered (lowerStatement scope statement before)
  | .assign target value, before => by
      rw [Statement.respell, lowerStatement, lowerStatement]
      exact transport.keepOrDrop_carries (transport.lowerAssign_carries target value) before
  | .input target, before => by
      rw [Statement.respell, lowerStatement, lowerStatement]
      exact transport.keepOrDrop_carries (transport.lowerInput_carries target) before
  | .output value, before => by
      rw [Statement.respell, lowerStatement, lowerStatement]
      exact transport.keepOrDrop_carries (transport.lowerOutput_carries value) before
  | .branch test yes no, before => by
      have tested := transport.lowerCondition_carries test.positive before
      rw [← Condition.respell_positive] at tested
      rw [Statement.respell]
      cases result : lowerCondition scope test.positive before with
      | error error afterTest =>
          rw [result] at tested
          rw [lowerStatement_branch_error tested, lowerStatement_branch_error result]
          simp only [lowerStatement_carries yes, lowerStatement_carries no, lowered,
            ← List.map_append]
          exact transport.giveUp_carries error _ _
      | ok value afterTest =>
          rw [result] at tested
          rw [lowerStatement_branch_ok tested, lowerStatement_branch_ok result]
          simp only [lowerStatement_carries yes, lowerStatement_carries no, lowered,
            ← List.map_append, Condition.respell_isNegation]
          split
          · rw [branchCode_mapNames]
            rfl
          · rw [branchCode_mapNames]
            rfl
  | .loop test body, before => by
      have tested := transport.lowerCondition_carries test ⟨before.temps, before.labels + 2⟩
      rw [Statement.respell]
      cases result : lowerCondition scope test ⟨before.temps, before.labels + 2⟩ with
      | error error afterTest =>
          rw [result] at tested
          rw [lowerStatement_loop_error tested, lowerStatement_loop_error result]
          simp only [lowerStatement_carries body, lowered]
          exact transport.giveUp_carries error _ _
      | ok value afterTest =>
          rw [result] at tested
          rw [lowerStatement_loop_ok tested, lowerStatement_loop_ok result]
          simp only [lowerStatement_carries body, lowered, loopCode_mapNames]
          rfl
  | .block body, before => by
      rw [Statement.respell, lowerStatement, lowerStatement]
      exact lowerStatements_carries body before

/-- Lowering statements carries over. -/
theorem lowerStatements_carries : ∀ (body : List Statement) (before : Supply),
    lowerStatements other (Statement.respellAll transport.respelling body)
        (transport.supply before) = transport.lowered (lowerStatements scope body before)
  | [], before => rfl
  | first :: later, before => by
      rw [Statement.respellAll, lowerStatements, lowerStatements]
      simp only [lowerStatement_carries first, lowered, lowerStatements_carries later,
        Listing.mapNames_append, List.map_append]

end

/-- A respelled program has the code of the program with other names, and the errors of the program
at the other identifiers, if no temporary is taken to begin with. -/
theorem generate_carries (start : transport.temps 0 = 0) (body : List Statement) :
    (generate other (Statement.respellAll transport.respelling body)).program =
        (generate scope body).program.mapNames transport.place ∧
      (generate other (Statement.respellAll transport.respelling body)).errors =
        (generate scope body).errors.map (SemanticError.respell transport.respelling) := by
  have carried := transport.lowerStatements_carries body ⟨0, 0⟩
  rw [supply, start] at carried
  simp only [generate, carried, lowered, Generated.program, Listing.complete, Generated.errors,
    Listing.mapNames_append, List.map_map]
  exact ⟨rfl, rfl⟩

end Transport

end Cpl
