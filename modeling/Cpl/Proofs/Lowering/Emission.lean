import Cpl.Quad.Lowering
import Mathlib.Order.Basic

namespace Cpl

/-- One supply is before another if it has given out no more of either kind. -/
instance : Preorder Supply where
  le earlier later := earlier.temps ≤ later.temps ∧ earlier.labels ≤ later.labels
  le_refl supply := ⟨Nat.le_refl _, Nat.le_refl _⟩
  le_trans _ _ _ first second := ⟨Nat.le_trans first.1 second.1, Nat.le_trans first.2 second.2⟩

/-- A search for a free index never goes back. -/
theorem freeIndex_ge (scope : Scope) (attempts index : Nat) :
    index ≤ scope.freeIndex attempts index := by
  induction attempts generalizing index with
  | zero => exact Nat.le_refl _
  | succ attempts ih =>
      rw [Scope.freeIndex]
      split
      · exact Nat.le_trans (Nat.le_succ index) (ih (index + 1))
      · exact Nat.le_refl _

/-- A new temporary comes after all that were taken. -/
theorem nextTemp_gt (scope : Scope) (last : Nat) : last < scope.nextTemp last :=
  freeIndex_ge scope scope.size (last + 1)

section Sequence
variable {A B : Type} {first : Lowering A} {next : A → Lowering B} {before after : Supply}

/-- Two steps succeed together when the first does and the second does with its result. -/
theorem lowering_bind_ok {result : B} :
    (first >>= next) before = .ok result after ↔
      ∃ value middle, first before = .ok value middle ∧ next value middle = .ok result after := by
  simp only [bind, EStateM.bind]
  cases first before with
  | ok value middle =>
      constructor
      · exact fun done => ⟨value, middle, rfl, done⟩
      · rintro ⟨_, _, same, done⟩
        cases same
        exact done
  | error error middle => simp

/-- A lowering grows the supply if it gives nothing back, failed or not. -/
def Grows (lowering : Lowering A) : Prop :=
  ∀ supply, supply ≤ supplyAfter (lowering supply)

theorem grows_pure (value : A) : Grows (pure value) := fun supply => le_refl supply

/-- Two steps that only take from the supply do so together. -/
theorem grows_bind (grown : Grows first) (later : ∀ value, Grows (next value)) :
    Grows (first >>= next) := by
  intro supply
  have start := grown supply
  simp only [bind, EStateM.bind]
  cases result : first supply with
  | ok value middle =>
      rw [result] at start
      exact le_trans start (later value middle)
  | error error middle =>
      rw [result] at start
      exact start

/-- What a successful lowering leaves is after what it was given. -/
theorem Grows.ok (grown : Grows first) {value : A} (done : first before = .ok value after) :
    before ≤ after := by
  have growth := grown before
  rw [done] at growth
  exact growth

end Sequence

/-- A new temporary is taken from the supply. -/
theorem freshTemp_grows (scope : Scope) : Grows (freshTemp scope) := fun supply =>
  ⟨Nat.le_of_lt (nextTemp_gt scope supply.temps), Nat.le_refl _⟩

/-- Looking up a name takes nothing back. -/
theorem resolve_grows (scope : Scope) (ident : Ident) : Grows (resolve scope ident) := by
  intro supply
  rw [resolve]
  split <;> exact le_refl supply

/-- Choosing a destination takes nothing back. -/
theorem destination_grows (scope : Scope) (slot : Option Name) : Grows (destination scope slot) := by
  cases slot with
  | none => exact freshTemp_grows scope
  | some name => exact grows_pure name

/-- A name resolves to its declared type and takes nothing. -/
theorem resolve_ok {scope : Scope} {ident : Ident} {before after : Supply} {scalar : Scalar} :
    resolve scope ident before = .ok scalar after ↔
      scope.scalar? ident.name = some scalar ∧ after = before := by
  simp only [resolve, Scope.lookup]
  cases scope.scalar? ident.name with
  | none => simp
  | some found => simp [eq_comm]

section Expressions
variable {scope : Scope} {slot : Option Name} {before after : Supply} {result : Evaluated}

/-- Lowering an expression takes nothing back. -/
theorem lowerExpr_grows (scope : Scope) (slot : Option Name) (value : Expr) :
    Grows (lowerExpr scope slot value) := by
  induction value generalizing slot with
  | literal value => exact grows_pure _
  | identifier ident => exact grows_bind (resolve_grows scope ident) fun _ => grows_pure _
  | binary op left right leftGrows rightGrows =>
      apply grows_bind (leftGrows none)
      intro left
      apply grows_bind (rightGrows none)
      intro right
      exact grows_bind (destination_grows scope slot) fun _ => grows_pure _
  | cast target operand operandGrows =>
      apply grows_bind (operandGrows none)
      intro operand
      exact grows_bind (destination_grows scope slot) fun _ => grows_pure _

/-- A constant is its own value. -/
theorem lowerExpr_literal {value : Literal} :
    lowerExpr scope slot (.literal value) before = .ok result after ↔
      result = ⟨[], value.scalar, .literal value⟩ ∧ after = before := by
  simp [lowerExpr, pure, EStateM.pure, eq_comm]

/-- A declared name is its own value, and no other is lowered. -/
theorem lowerExpr_identifier {ident : Ident} :
    lowerExpr scope slot (.identifier ident) before = .ok result after ↔
      ∃ scalar, scope.scalar? ident.name = some scalar ∧
        result = ⟨[], scalar, .name (.var ident.name)⟩ ∧ after = before := by
  simp only [lowerExpr, lowering_bind_ok, resolve_ok, pure, EStateM.pure, EStateM.Result.ok.injEq]
  constructor
  · rintro ⟨scalar, _, ⟨found, rfl⟩, rfl, rfl⟩
    exact ⟨scalar, found, rfl, rfl⟩
  · rintro ⟨scalar, found, rfl, rfl⟩
    exact ⟨scalar, _, ⟨found, rfl⟩, rfl, rfl⟩

/-- A binary operation evaluates both operands before it chooses its destination. -/
theorem lowerExpr_binary {op : ArithOp} {left right : Expr} :
    lowerExpr scope slot (.binary op left right) before = .ok result after ↔
      ∃ leftResult middle rightResult last target,
        lowerExpr scope none left before = .ok leftResult middle ∧
        lowerExpr scope none right middle = .ok rightResult last ∧
        destination scope slot last = .ok target after ∧
        result = ⟨leftResult.code ++ rightResult.code ++
            [.arith (leftResult.scalar.promote rightResult.scalar) op target leftResult.value
              rightResult.value],
          leftResult.scalar.promote rightResult.scalar, .name target⟩ := by
  simp only [lowerExpr, lowering_bind_ok, pure, EStateM.pure, EStateM.Result.ok.injEq]
  constructor
  · rintro ⟨leftResult, middle, lowerLeft, rightResult, last, lowerRight, target, _, chosen, rfl, rfl⟩
    exact ⟨leftResult, middle, rightResult, last, target, lowerLeft, lowerRight, chosen, rfl⟩
  · rintro ⟨leftResult, middle, rightResult, last, target, lowerLeft, lowerRight, chosen, rfl⟩
    exact ⟨leftResult, middle, lowerLeft, rightResult, last, lowerRight, target, after, chosen, rfl,
      rfl⟩

/-- A conversion is lowered after its operand. -/
theorem lowerExpr_cast {target : Scalar} {operand : Expr} :
    lowerExpr scope slot (.cast target operand) before = .ok result after ↔
      ∃ operandResult last place,
        lowerExpr scope none operand before = .ok operandResult last ∧
        destination scope slot last = .ok place after ∧
        result = ⟨operandResult.code ++
          [conversion operandResult.scalar target place operandResult.value], target,
          .name place⟩ := by
  simp only [lowerExpr, lowering_bind_ok, pure, EStateM.pure, EStateM.Result.ok.injEq]
  constructor
  · rintro ⟨operandResult, last, lowered, place, _, chosen, rfl, rfl⟩
    exact ⟨operandResult, last, place, lowered, chosen, rfl⟩
  · rintro ⟨operandResult, last, place, lowered, chosen, rfl⟩
    exact ⟨operandResult, last, lowered, place, after, chosen, rfl, rfl⟩

/-- Without an offered place the destination is the next temporary. -/
theorem destination_none {target : Name} :
    destination scope none before = .ok target after ↔
      target = .temp (scope.nextTemp before.temps) ∧
        after = ⟨scope.nextTemp before.temps, before.labels⟩ := by
  simp [destination, freshTemp, Supply.temp, eq_comm]

/-- A given place is the destination. -/
theorem destination_some {place target : Name} :
    destination scope (some place) before = .ok target after ↔ target = place ∧ after = before := by
  simp [destination, pure, EStateM.pure, eq_comm]

end Expressions

/-- The layout of a disjunction. -/
def orCode (left right : Evaluated) (result : Name) (second success failure exit : Label) :
    Listing :=
  left.code ++ [.jumpIfZero second left.value, .jump success, .mark second] ++ right.code
    ++ [.jumpIfZero failure right.value, .mark success] ++ truthTail result failure exit

/-- The layout of a conjunction. -/
def andCode (left right : Evaluated) (result : Name) (failure exit : Label) : Listing :=
  left.code ++ [.jumpIfZero failure left.value] ++ right.code
    ++ [.jumpIfZero failure right.value] ++ truthTail result failure exit

section Conditions
variable {scope : Scope} {before after : Supply} {result : Evaluated}

/-- A disjunction takes one temporary and four labels. -/
theorem lowerOr_eq (scope : Scope) (left right : Evaluated) (supply : Supply) :
    lowerOr scope left right supply =
      .ok ⟨orCode left right (.temp (scope.nextTemp supply.temps)) ⟨supply.labels + 1⟩
          ⟨supply.labels + 2⟩ ⟨supply.labels + 3⟩ ⟨supply.labels + 4⟩, .int,
          .name (.temp (scope.nextTemp supply.temps))⟩
        ⟨scope.nextTemp supply.temps, supply.labels + 4⟩ := rfl

/-- A conjunction takes one temporary and two labels. -/
theorem lowerAnd_eq (scope : Scope) (left right : Evaluated) (supply : Supply) :
    lowerAnd scope left right supply =
      .ok ⟨andCode left right (.temp (scope.nextTemp supply.temps)) ⟨supply.labels + 1⟩
          ⟨supply.labels + 2⟩, .int, .name (.temp (scope.nextTemp supply.temps))⟩
        ⟨scope.nextTemp supply.temps, supply.labels + 2⟩ := rfl

/-- A comparison is one instruction into a new temporary. -/
theorem lowerCompare_eq (scope : Scope) (scalar : Scalar) (op : CmpOp) (left right : Value)
    (supply : Supply) :
    lowerCompare scope scalar op left right supply =
      .ok ⟨[.compare scalar op (.temp (scope.nextTemp supply.temps)) left right], .int,
          .name (.temp (scope.nextTemp supply.temps))⟩
        ⟨scope.nextTemp supply.temps, supply.labels⟩ := rfl

/-- Lowering a disjunction takes nothing back. -/
theorem lowerOr_grows (scope : Scope) (left right : Evaluated) : Grows (lowerOr scope left right) :=
  fun supply => ⟨Nat.le_of_lt (nextTemp_gt scope supply.temps), Nat.le_add_right _ 4⟩

/-- Lowering a conjunction takes nothing back. -/
theorem lowerAnd_grows (scope : Scope) (left right : Evaluated) :
    Grows (lowerAnd scope left right) :=
  fun supply => ⟨Nat.le_of_lt (nextTemp_gt scope supply.temps), Nat.le_add_right _ 2⟩

theorem lowerCompare_grows (scope : Scope) (scalar : Scalar) (op : CmpOp) (left right : Value) :
    Grows (lowerCompare scope scalar op left right) :=
  fun supply => ⟨Nat.le_of_lt (nextTemp_gt scope supply.temps), Nat.le_refl _⟩

theorem lowerOrEqual_grows (scope : Scope) (scalar : Scalar) (strict : CmpOp) (left right : Value) :
    Grows (lowerOrEqual scope scalar strict left right) := by
  apply grows_bind (lowerCompare_grows scope scalar .equal left right)
  intro equal
  apply grows_bind (lowerCompare_grows scope scalar strict left right)
  exact fun unequal => lowerOr_grows scope equal unequal

/-- Lowering a relation takes nothing back. -/
theorem lowerRelation_grows (scope : Scope) (scalar : Scalar) (op : RelOp) (left right : Value) :
    Grows (lowerRelation scope scalar op left right) := by
  cases op with
  | equal | notEqual | less | greater => exact lowerCompare_grows scope scalar _ left right
  | lessEqual | greaterEqual => exact lowerOrEqual_grows scope scalar _ left right

/-- Lowering a condition takes nothing back. -/
theorem lowerCondition_grows (scope : Scope) (test : Condition) : Grows (lowerCondition scope test) := by
  induction test with
  | or left right leftGrows rightGrows =>
      apply grows_bind leftGrows
      intro left
      exact grows_bind rightGrows fun right => lowerOr_grows scope left right
  | and left right leftGrows rightGrows =>
      apply grows_bind leftGrows
      intro left
      exact grows_bind rightGrows fun right => lowerAnd_grows scope left right
  | not operand operandGrows =>
      apply grows_bind operandGrows
      intro operand
      exact grows_bind (freshTemp_grows scope) fun _ => grows_pure _
  | relation op left right =>
      apply grows_bind (lowerExpr_grows scope none left)
      intro left
      apply grows_bind (lowerExpr_grows scope none right)
      intro right
      exact grows_bind (lowerRelation_grows scope _ op left.value right.value) fun _ => grows_pure _

/-- A disjunction is lowered after its sides, from left to right. -/
theorem lowerCondition_or {left right : Condition} :
    lowerCondition scope (.or left right) before = .ok result after ↔
      ∃ leftResult middle rightResult last,
        lowerCondition scope left before = .ok leftResult middle ∧
        lowerCondition scope right middle = .ok rightResult last ∧
        lowerOr scope leftResult rightResult last = .ok result after := by
  simp only [lowerCondition, lowering_bind_ok]
  constructor
  · rintro ⟨leftResult, middle, lowerLeft, rightResult, last, lowerRight, joined⟩
    exact ⟨leftResult, middle, rightResult, last, lowerLeft, lowerRight, joined⟩
  · rintro ⟨leftResult, middle, rightResult, last, lowerLeft, lowerRight, joined⟩
    exact ⟨leftResult, middle, lowerLeft, rightResult, last, lowerRight, joined⟩

/-- A conjunction is lowered after its sides, from left to right. -/
theorem lowerCondition_and {left right : Condition} :
    lowerCondition scope (.and left right) before = .ok result after ↔
      ∃ leftResult middle rightResult last,
        lowerCondition scope left before = .ok leftResult middle ∧
        lowerCondition scope right middle = .ok rightResult last ∧
        lowerAnd scope leftResult rightResult last = .ok result after := by
  simp only [lowerCondition, lowering_bind_ok]
  constructor
  · rintro ⟨leftResult, middle, lowerLeft, rightResult, last, lowerRight, joined⟩
    exact ⟨leftResult, middle, rightResult, last, lowerLeft, lowerRight, joined⟩
  · rintro ⟨leftResult, middle, rightResult, last, lowerLeft, lowerRight, joined⟩
    exact ⟨leftResult, middle, lowerLeft, rightResult, last, lowerRight, joined⟩

/-- A negation compares its operand with zero. -/
theorem lowerCondition_not {operand : Condition} :
    lowerCondition scope (.not operand) before = .ok result after ↔
      ∃ operandResult last,
        lowerCondition scope operand before = .ok operandResult last ∧
        result = ⟨operandResult.code ++ [.compare .int .equal (.temp (scope.nextTemp last.temps))
          operandResult.value (flag 0)], .int, .name (.temp (scope.nextTemp last.temps))⟩ ∧
        after = ⟨scope.nextTemp last.temps, last.labels⟩ := by
  simp only [lowerCondition, lowering_bind_ok, freshTemp, Supply.temp, pure, EStateM.pure,
    EStateM.Result.ok.injEq]
  constructor
  · rintro ⟨operandResult, last, lowered, _, _, ⟨rfl, rfl⟩, rfl, rfl⟩
    exact ⟨operandResult, last, lowered, rfl, rfl⟩
  · rintro ⟨operandResult, last, lowered, rfl, rfl⟩
    exact ⟨operandResult, last, lowered, _, _, ⟨rfl, rfl⟩, rfl, rfl⟩

/-- A relation evaluates each operand once, then compares the two values. -/
theorem lowerCondition_relation {op : RelOp} {left right : Expr} :
    lowerCondition scope (.relation op left right) before = .ok result after ↔
      ∃ leftResult middle rightResult last compared,
        lowerExpr scope none left before = .ok leftResult middle ∧
        lowerExpr scope none right middle = .ok rightResult last ∧
        lowerRelation scope (leftResult.scalar.promote rightResult.scalar) op leftResult.value
          rightResult.value last = .ok compared after ∧
        result = { compared with code := leftResult.code ++ rightResult.code ++ compared.code } := by
  simp only [lowerCondition, lowering_bind_ok, pure, EStateM.pure, EStateM.Result.ok.injEq]
  constructor
  · rintro ⟨leftResult, middle, lowerLeft, rightResult, last, lowerRight, compared, _, related, rfl,
      rfl⟩
    exact ⟨leftResult, middle, rightResult, last, compared, lowerLeft, lowerRight, related, rfl⟩
  · rintro ⟨leftResult, middle, rightResult, last, compared, lowerLeft, lowerRight, related, rfl⟩
    exact ⟨leftResult, middle, lowerLeft, rightResult, last, lowerRight, compared, after, related,
      rfl, rfl⟩

end Conditions

section Statements
variable {scope : Scope} {before after : Supply}

/-- Lowering an assignment takes nothing back. -/
theorem lowerAssign_grows (scope : Scope) (target : Ident) (value : Expr) :
    Grows (lowerAssign scope target value) := by
  apply grows_bind (resolve_grows scope target)
  intro scalar
  apply grows_bind (lowerExpr_grows scope (some (.var target.name)) value)
  intro result
  cases value <;> exact grows_pure _

theorem lowerInput_grows (scope : Scope) (target : Ident) : Grows (lowerInput scope target) :=
  grows_bind (resolve_grows scope target) fun _ => grows_pure _

theorem lowerOutput_grows (scope : Scope) (value : Expr) : Grows (lowerOutput scope value) :=
  grows_bind (lowerExpr_grows scope none value) fun _ => grows_pure _

/-- What an assignment adds to the code of its value. An operation has written its result already. -/
def copyCode (scalar : Scalar) (place : Name) (result : Value) : Expr → Listing
  | .literal _ | .identifier _ => [.assign scalar place result]
  | .binary .. | .cast .. => []

/-- An assignment is lowered into its target, and copied there if nothing else writes it. -/
theorem lowerAssign_ok {target : Ident} {value : Expr} {code : Listing} :
    lowerAssign scope target value before = .ok code after ↔
      ∃ scalar result, scope.scalar? target.name = some scalar ∧
        lowerExpr scope (some (.var target.name)) value before = .ok result after ∧
        code = result.code ++ copyCode scalar (.var target.name) result.value value := by
  simp only [lowerAssign, lowering_bind_ok, resolve_ok]
  constructor
  · rintro ⟨scalar, _, ⟨found, rfl⟩, result, last, lowered, done⟩
    refine ⟨scalar, result, found, ?_⟩
    cases value <;> cases done <;> exact ⟨lowered, by simp [copyCode]⟩
  · rintro ⟨scalar, result, found, lowered, rfl⟩
    refine ⟨scalar, before, ⟨found, rfl⟩, result, after, lowered, ?_⟩
    cases value <;> simp [copyCode, pure, EStateM.pure]

/-- An input is one instruction with the type of its target. -/
theorem lowerInput_ok {target : Ident} {code : Listing} :
    lowerInput scope target before = .ok code after ↔
      ∃ scalar, scope.scalar? target.name = some scalar ∧
        code = [.input scalar (.var target.name)] ∧ after = before := by
  simp only [lowerInput, lowering_bind_ok, resolve_ok, pure, EStateM.pure, EStateM.Result.ok.injEq]
  constructor
  · rintro ⟨scalar, _, ⟨found, rfl⟩, rfl, rfl⟩
    exact ⟨scalar, found, rfl, rfl⟩
  · rintro ⟨scalar, found, rfl, rfl⟩
    exact ⟨scalar, _, ⟨found, rfl⟩, rfl, rfl⟩

/-- An output is lowered after its expression, with the type of the expression. -/
theorem lowerOutput_ok {value : Expr} {code : Listing} :
    lowerOutput scope value before = .ok code after ↔
      ∃ result, lowerExpr scope none value before = .ok result after ∧
        code = result.code ++ [.print result.scalar result.value] := by
  simp only [lowerOutput, lowering_bind_ok, pure, EStateM.pure, EStateM.Result.ok.injEq]
  constructor
  · rintro ⟨result, _, lowered, rfl, rfl⟩
    exact ⟨result, lowered, rfl⟩
  · rintro ⟨result, lowered, rfl⟩
    exact ⟨result, after, lowered, rfl, rfl⟩

/-- The ways in which code for statements comes about. Statements that are left out emit nothing,
but keep what they took from the supply. -/
inductive Emits (scope : Scope) : Supply → Listing → Supply → Prop
  | nothing {before after : Supply} (grown : before ≤ after) : Emits scope before [] after
  | assign {target : Ident} {value : Expr} {before after : Supply} {code : Listing}
      (lowered : lowerAssign scope target value before = .ok code after) :
      Emits scope before code after
  | input {target : Ident} {before after : Supply} {code : Listing}
      (lowered : lowerInput scope target before = .ok code after) : Emits scope before code after
  | output {value : Expr} {before after : Supply} {code : Listing}
      (lowered : lowerOutput scope value before = .ok code after) : Emits scope before code after
  | branch {test : Condition} {tested : Evaluated} {before afterTest afterYes after : Supply}
      {yes no : Listing} (lowered : lowerCondition scope test before = .ok tested afterTest)
      (first : Emits scope afterTest yes afterYes) (second : Emits scope afterYes no after) :
      Emits scope before (branchCode tested yes no ⟨after.labels + 1⟩ ⟨after.labels + 2⟩)
        ⟨after.temps, after.labels + 2⟩
  | exchanged {test : Condition} {tested : Evaluated} {before afterTest afterYes after : Supply}
      {yes no : Listing} (lowered : lowerCondition scope test before = .ok tested afterTest)
      (first : Emits scope afterTest yes afterYes) (second : Emits scope afterYes no after) :
      Emits scope before (branchCode tested no yes ⟨after.labels + 1⟩ ⟨after.labels + 2⟩)
        ⟨after.temps, after.labels + 2⟩
  | loop {test : Condition} {tested : Evaluated} {before afterTest after : Supply}
      {body : Listing}
      (lowered : lowerCondition scope test ⟨before.temps, before.labels + 2⟩ = .ok tested afterTest)
      (inner : Emits scope afterTest body after) :
      Emits scope before (loopCode tested body ⟨before.labels + 1⟩ ⟨before.labels + 2⟩) after
  | append {before middle after : Supply} {first later : Listing}
      (start : Emits scope before first middle) (rest : Emits scope middle later after) :
      Emits scope before (first ++ later) after

/-- Emitting code takes nothing back. -/
theorem Emits.grown {code : Listing} (emitted : Emits scope before code after) : before ≤ after := by
  induction emitted with
  | nothing grown => exact grown
  | assign lowered => exact (lowerAssign_grows scope _ _).ok lowered
  | input lowered => exact (lowerInput_grows scope _).ok lowered
  | output lowered => exact (lowerOutput_grows scope _).ok lowered
  | branch lowered _ _ first second | exchanged lowered _ _ first second =>
      have start := (lowerCondition_grows scope _).ok lowered
      have whole := le_trans start (le_trans first second)
      exact ⟨whole.1, Nat.le_trans whole.2 (Nat.le_add_right _ 2)⟩
  | loop lowered _ inner =>
      have whole := le_trans ((lowerCondition_grows scope _).ok lowered) inner
      exact ⟨whole.1, Nat.le_trans (Nat.le_add_right _ 2) whole.2⟩
  | append _ _ start rest => exact le_trans start rest

/-- A lowering that is kept or dropped emits its code or nothing. -/
theorem keepOrDrop_emits {lowering : Lowering Listing} (grows : Grows lowering)
    (kept : ∀ code after, lowering before = .ok code after → Emits scope before code after) :
    Emits scope before (keepOrDrop lowering before).1.code (keepOrDrop lowering before).2 := by
  have growth := grows before
  rw [keepOrDrop]
  cases result : lowering before with
  | ok code after => exact kept code after result
  | error error after =>
      rw [result] at growth
      exact .nothing growth

/-- A condition without its outermost negation has the same names. -/
theorem Condition.positive_idents (test : Condition) : test.positive.idents = test.idents := by
  cases test <;> rfl

/-- A branch whose condition is lowered takes its two labels last. -/
theorem lowerStatement_branch_ok {test : Condition} {yes no : Statement} {tested : Evaluated}
    {afterTest : Supply}
    (lowered : lowerCondition scope test.positive before = .ok tested afterTest) :
    lowerStatement scope (.branch test yes no) before =
      let first := lowerStatement scope yes afterTest
      let second := lowerStatement scope no first.2
      let failure : Label := ⟨second.2.labels + 1⟩
      let exit : Label := ⟨second.2.labels + 2⟩
      (⟨if test.isNegation then branchCode tested second.1.code first.1.code failure exit
        else branchCode tested first.1.code second.1.code failure exit,
        first.1.drops ++ second.1.drops⟩, ⟨second.2.temps, second.2.labels + 2⟩) := by
  rw [lowerStatement, lowered]
  rfl

/-- A branch whose condition fails is left out after its sides were lowered. -/
theorem lowerStatement_branch_error {test : Condition} {yes no : Statement} {error : SemanticError}
    {afterTest : Supply}
    (failed : lowerCondition scope test.positive before = .error error afterTest) :
    lowerStatement scope (.branch test yes no) before =
      let first := lowerStatement scope yes afterTest
      let second := lowerStatement scope no first.2
      giveUp error (first.1.drops ++ second.1.drops) second.2 := by
  rw [lowerStatement, failed]
  rfl

/-- A loop takes its two labels before its condition is lowered. -/
theorem lowerStatement_loop_ok {test : Condition} {body : Statement} {tested : Evaluated}
    {afterTest : Supply}
    (lowered : lowerCondition scope test ⟨before.temps, before.labels + 2⟩ = .ok tested afterTest) :
    lowerStatement scope (.loop test body) before =
      let inner := lowerStatement scope body afterTest
      (⟨loopCode tested inner.1.code ⟨before.labels + 1⟩ ⟨before.labels + 2⟩, inner.1.drops⟩,
        inner.2) := by
  rw [lowerStatement]
  simp only [Supply.label, lowered]
  rfl

/-- A loop without its condition is left out, and its body is lowered for its errors. -/
theorem lowerStatement_loop_error {test : Condition} {body : Statement} {error : SemanticError}
    {afterTest : Supply}
    (failed : lowerCondition scope test ⟨before.temps, before.labels + 2⟩ = .error error afterTest) :
    lowerStatement scope (.loop test body) before =
      let inner := lowerStatement scope body afterTest
      giveUp error inner.1.drops inner.2 := by
  rw [lowerStatement]
  simp only [Supply.label, failed]
  rfl

mutual

/-- Every statement emits code in one of the known ways. -/
theorem lowerStatement_emits (scope : Scope) : ∀ (statement : Statement) (before : Supply),
    Emits scope before (lowerStatement scope statement before).1.code
      (lowerStatement scope statement before).2
  | .assign target value, before => by
      rw [lowerStatement]
      exact keepOrDrop_emits (lowerAssign_grows scope target value) fun _ _ => .assign
  | .input target, before => by
      rw [lowerStatement]
      exact keepOrDrop_emits (lowerInput_grows scope target) fun _ _ => .input
  | .output value, before => by
      rw [lowerStatement]
      exact keepOrDrop_emits (lowerOutput_grows scope value) fun _ _ => .output
  | .branch test yes no, before => by
      have start := lowerCondition_grows scope test.positive before
      cases lowered : lowerCondition scope test.positive before with
      | error error afterTest =>
          rw [lowerStatement_branch_error lowered]
          have first := lowerStatement_emits scope yes afterTest
          have second := lowerStatement_emits scope no (lowerStatement scope yes afterTest).2
          rw [lowered] at start
          exact .nothing (le_trans start (le_trans first.grown second.grown))
      | ok tested afterTest =>
          rw [lowerStatement_branch_ok lowered]
          have first := lowerStatement_emits scope yes afterTest
          have second := lowerStatement_emits scope no (lowerStatement scope yes afterTest).2
          dsimp only
          split
          · exact .exchanged lowered first second
          · exact .branch lowered first second
  | .loop test body, before => by
      have start := lowerCondition_grows scope test ⟨before.temps, before.labels + 2⟩
      cases lowered : lowerCondition scope test ⟨before.temps, before.labels + 2⟩ with
      | error error afterTest =>
          rw [lowerStatement_loop_error lowered]
          have inner := lowerStatement_emits scope body afterTest
          rw [lowered] at start
          have whole := le_trans start inner.grown
          exact .nothing ⟨whole.1, Nat.le_trans (Nat.le_add_right _ 2) whole.2⟩
      | ok tested afterTest =>
          rw [lowerStatement_loop_ok lowered]
          exact .loop lowered (lowerStatement_emits scope body afterTest)
  | .block body, before => by
      rw [lowerStatement]
      exact lowerStatements_emits scope body before

/-- Statements emit the code that they are lowered to. -/
theorem lowerStatements_emits (scope : Scope) : ∀ (body : List Statement) (before : Supply),
    Emits scope before (lowerStatements scope body before).1.code
      (lowerStatements scope body before).2
  | [], before => .nothing (le_refl before)
  | first :: later, before => by
      rw [lowerStatements]
      exact .append (lowerStatement_emits scope first before)
        (lowerStatements_emits scope later (lowerStatement scope first before).2)

end

/-- The code of a program is emitted from an unused supply. -/
theorem generate_emits (scope : Scope) (body : List Statement) :
    ∃ after, Emits scope ⟨0, 0⟩ (generate scope body).code after :=
  ⟨_, lowerStatements_emits scope body ⟨0, 0⟩⟩

end Statements

section Declared
variable {scope : Scope}

/-- There is always a destination. -/
theorem destination_ok (scope : Scope) (slot : Option Name) (before : Supply) :
    ∃ target after, destination scope slot before = .ok target after := by
  cases slot with
  | none => exact ⟨_, _, destination_none.mpr ⟨rfl, rfl⟩⟩
  | some place => exact ⟨_, _, destination_some.mpr ⟨rfl, rfl⟩⟩

/-- An expression over declared names can be lowered. -/
theorem lowerExpr_declared {value : Expr}
    (declared : ∀ ident ∈ value.idents, scope.contains ident.name = true) (slot : Option Name)
    (before : Supply) : ∃ result after, lowerExpr scope slot value before = .ok result after := by
  induction value generalizing slot before with
  | literal value => exact ⟨_, _, lowerExpr_literal.mpr ⟨rfl, rfl⟩⟩
  | identifier ident =>
      obtain ⟨scalar, found⟩ :=
        Option.isSome_iff_exists.mp (declared ident (List.mem_singleton.mpr rfl))
      exact ⟨_, _, lowerExpr_identifier.mpr ⟨scalar, found, rfl, rfl⟩⟩
  | binary op left right leftLowers rightLowers =>
      obtain ⟨leftResult, middle, lowerLeft⟩ := leftLowers
        (fun ident within => declared ident (List.mem_append_left _ within)) none before
      obtain ⟨rightResult, last, lowerRight⟩ := rightLowers
        (fun ident within => declared ident (List.mem_append_right _ within)) none middle
      obtain ⟨target, after, chosen⟩ := destination_ok scope slot last
      exact ⟨_, _, lowerExpr_binary.mpr ⟨leftResult, middle, rightResult, last, target, lowerLeft,
        lowerRight, chosen, rfl⟩⟩
  | cast target operand operandLowers =>
      obtain ⟨operandResult, last, lowerOperand⟩ := operandLowers declared none before
      obtain ⟨place, after, chosen⟩ := destination_ok scope slot last
      exact ⟨_, _, lowerExpr_cast.mpr ⟨operandResult, last, place, lowerOperand, chosen, rfl⟩⟩

/-- Relations can always be lowered. -/
theorem lowerRelation_ok (scope : Scope) (scalar : Scalar) (op : RelOp) (left right : Value)
    (before : Supply) : ∃ result after, lowerRelation scope scalar op left right before =
      .ok result after := by
  cases op <;> exact ⟨_, _, rfl⟩

/-- A condition over declared names can be lowered. -/
theorem lowerCondition_declared {test : Condition}
    (declared : ∀ ident ∈ test.idents, scope.contains ident.name = true) (before : Supply) :
    ∃ result after, lowerCondition scope test before = .ok result after := by
  induction test generalizing before with
  | or left right leftLowers rightLowers =>
      obtain ⟨leftResult, middle, lowerLeft⟩ := leftLowers
        (fun ident within => declared ident (List.mem_append_left _ within)) before
      obtain ⟨rightResult, last, lowerRight⟩ := rightLowers
        (fun ident within => declared ident (List.mem_append_right _ within)) middle
      exact ⟨_, _, lowerCondition_or.mpr ⟨leftResult, middle, rightResult, last, lowerLeft,
        lowerRight, lowerOr_eq scope leftResult rightResult last⟩⟩
  | and left right leftLowers rightLowers =>
      obtain ⟨leftResult, middle, lowerLeft⟩ := leftLowers
        (fun ident within => declared ident (List.mem_append_left _ within)) before
      obtain ⟨rightResult, last, lowerRight⟩ := rightLowers
        (fun ident within => declared ident (List.mem_append_right _ within)) middle
      exact ⟨_, _, lowerCondition_and.mpr ⟨leftResult, middle, rightResult, last, lowerLeft,
        lowerRight, lowerAnd_eq scope leftResult rightResult last⟩⟩
  | not operand operandLowers =>
      obtain ⟨operandResult, last, lowerOperand⟩ := operandLowers declared before
      exact ⟨_, _, lowerCondition_not.mpr ⟨operandResult, last, lowerOperand, rfl, rfl⟩⟩
  | relation op left right =>
      obtain ⟨leftResult, middle, lowerLeft⟩ := lowerExpr_declared
        (fun ident within => declared ident (List.mem_append_left _ within)) none before
      obtain ⟨rightResult, last, lowerRight⟩ := lowerExpr_declared
        (fun ident within => declared ident (List.mem_append_right _ within)) none middle
      obtain ⟨compared, after, related⟩ := lowerRelation_ok scope
        (leftResult.scalar.promote rightResult.scalar) op leftResult.value rightResult.value last
      exact ⟨_, _, lowerCondition_relation.mpr ⟨leftResult, middle, rightResult, last, compared,
        lowerLeft, lowerRight, related, rfl⟩⟩

end Declared

end Cpl
