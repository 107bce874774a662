import Cpl.Proofs.Lowering.Emission
import Cpl.Proofs.Meaning.Machine

namespace Cpl

namespace Machine
variable {domain : Domain}

/-- A machine gets to where a value is, or stops at the fault in its place. -/
def Reaches {Value : Type} (program : Listing) (machine : Machine domain)
    (outcome : Except domain.Fault Value) (goal : Value → Machine domain → Prop) : Prop :=
  match outcome with
  | .ok value => ∃ steps next, run program steps machine = .running next ∧ goal value next
  | .error error =>
      ∃ steps final, run program steps machine = .faulted error final ∧ final.state = machine.state

/-- Work that has not touched the state or the temporaries up to a bound. -/
structure Keeps (machine : Machine domain) (kept : Nat) (next : Machine domain) : Prop where
  state : next.state = machine.state
  older : ∀ index ≤ kept, next.temps index = machine.temps index

/-- A machine below some code that has left a value in an operand. -/
structure Leaves (machine : Machine domain) (rest : Listing) (kept : Nat) (operand : Value)
    (value : domain.Val) (next : Machine domain) : Prop extends Keeps machine kept next where
  code : next.code = rest
  result : next.read operand = value

section Rules
variable {program rest : Listing} {machine next : Machine domain} {kept : Nat}
  {operand : Value} {value : domain.Val}

/-- Going elsewhere in the code keeps the state and the temporaries. -/
theorem keeps_code (code : Listing) : Keeps machine kept { machine with code := code } :=
  ⟨rfl, fun _ _ => rfl⟩

/-- Work in newer temporaries keeps the older ones. -/
theorem Keeps.trans {later : Nat} {last : Machine domain} (start : Keeps machine kept next)
    (more : Keeps next later last) (ordered : kept ≤ later) : Keeps machine kept last where
  state := more.state.trans start.state
  older index old := (more.older index (Nat.le_trans old ordered)).trans (start.older index old)

/-- A value is left by later work as well. -/
theorem Keeps.leaves {later : Nat} {last : Machine domain} (start : Keeps machine kept next)
    (more : Leaves next rest later operand value last) (ordered : kept ≤ later) :
    Leaves machine rest kept operand value last :=
  ⟨start.trans more.toKeeps ordered, more.code, more.result⟩

/-- Values that are not newer than the bound are read as before. -/
theorem Keeps.read {other : Value} (keeps : Keeps machine kept next)
    (old : ∀ index, other = .name (.temp index) → index ≤ kept) :
    next.read other = machine.read other := by
  cases other with
  | literal value => rfl
  | name place =>
      cases place with
      | var name => simp only [Machine.read, keeps.state]
      | temp index => exact keeps.older index (old index rfl)

/-- A result in a new temporary leaves the older ones alone. -/
theorem leaves_write {index : Nat} (machine : Machine domain) (rest : Listing) (value : domain.Val)
    (fresh : kept < index) :
    Leaves machine rest kept (.name (.temp index)) value
      ({ machine with code := rest }.write (.temp index) value) where
  code := rfl
  state := rfl
  older other old := by
    have different : other ≠ index := by omega
    simp [write, different]
  result := by simp [read, write]

/-- A machine that has stored a value in a place, after work in newer temporaries only. -/
def Stores (machine : Machine domain) (rest : Listing) (kept : Nat) (target : Name)
    (value : domain.Val) (next : Machine domain) : Prop :=
  ∃ last : Machine domain, Keeps machine kept last ∧
    next = { last with code := rest }.write target value

/-- What is stored in a new temporary is left there. -/
theorem Stores.leaves {index : Nat} (stored : Stores machine rest kept (.temp index) value next)
    (fresh : kept < index) : Leaves machine rest kept (.name (.temp index)) value next := by
  obtain ⟨last, keeps, rfl⟩ := stored
  exact keeps.leaves (leaves_write last rest value fresh) (Nat.le_refl kept)

/-- What is stored in a variable is assigned to it. -/
theorem Stores.assigned {name : String} (stored : Stores machine rest kept (.var name) value next) :
    next.code = rest ∧ next.state = machine.state.assign name value := by
  obtain ⟨last, keeps, rfl⟩ := stored
  exact ⟨rfl, by simp [write, keeps.state]⟩

/-- A machine gets to where some steps take it. -/
theorem reaches_ok {Value : Type} {value : Value} {goal : Value → Machine domain → Prop}
    (steps : Nat) (reached : run program steps machine = .running next) (holds : goal value next) :
    Reaches program machine (.ok value) goal := ⟨steps, next, reached, holds⟩

/-- A machine goes on from where it has got to. -/
theorem reaches_after {Value : Type} {outcome : Except domain.Fault Value}
    {goal : Value → Machine domain → Prop} (steps : Nat)
    (reached : run program steps machine = .running next) (state : next.state = machine.state)
    (later : Reaches program next outcome goal) : Reaches program machine outcome goal := by
  cases outcome with
  | ok value =>
      obtain ⟨more, last, done, holds⟩ := later
      exact ⟨steps + more, last, (run_add reached).trans done, holds⟩
  | error error =>
      obtain ⟨more, last, done, same⟩ := later
      exact ⟨steps + more, last, (run_add reached).trans done, same.trans state⟩

/-- A machine gets from one value to the next, or stops at the first fault. -/
theorem reaches_bind {First Second : Type} {outcome : Except domain.Fault First}
    {after : First → Except domain.Fault Second} {middle : First → Machine domain → Prop}
    {goal : Second → Machine domain → Prop} (start : Reaches program machine outcome middle)
    (state : ∀ value next, middle value next → next.state = machine.state)
    (later : ∀ value next, middle value next → Reaches program next (after value) goal) :
    Reaches program machine (outcome >>= after) goal := by
  cases outcome with
  | ok value =>
      obtain ⟨steps, next, reached, holds⟩ := start
      exact reaches_after steps reached (state value next holds) (later value next holds)
  | error error => exact start

/-- Less is asked of where a machine gets. -/
theorem reaches_mono {Value : Type} {outcome : Except domain.Fault Value}
    {goal other : Value → Machine domain → Prop} (start : Reaches program machine outcome goal)
    (weaker : ∀ value next, goal value next → other value next) :
    Reaches program machine outcome other := by
  cases outcome with
  | ok value =>
      obtain ⟨steps, next, reached, holds⟩ := start
      exact ⟨steps, next, reached, weaker value next holds⟩
  | error error => exact start

/-- An instruction that goes on is one step. -/
theorem run_one {quad : Quad} (here : machine.code = quad :: rest)
    (taken : machine.execute program quad rest = .running next) :
    run program 1 machine = .running next := run_step here taken 0

/-- An arithmetic instruction writes its result or faults. -/
theorem arith_reaches {scalar : Scalar} {op : ArithOp} {target : Name} {left right : Value}
    (here : machine.code = .arith scalar op target left right :: rest) :
    Reaches program machine (domain.arith scalar op (machine.read left) (machine.read right))
      fun value next => next = { machine with code := rest }.write target value := by
  cases computed : domain.arith scalar op (machine.read left) (machine.read right) with
  | ok value =>
      refine reaches_ok 1 (run_one here ?_) rfl
      simp only [execute, computed]
  | error error =>
      refine ⟨1, machine, ?_, rfl⟩
      simp only [run, step, here, execute, computed]

/-- A conversion writes the converted value. -/
theorem run_conversion {source result : Scalar} {target : Name}
    (here : machine.code = conversion source result target operand :: rest) :
    run program 1 machine = .running
      ({ machine with code := rest }.write target
        (domain.convert source result (machine.read operand))) := by
  apply run_one here
  cases source <;> cases result <;> rfl

end Rules

/-- A machine below the code of two operands. -/
structure LeavesBoth (machine : Machine domain) (rest : Listing) (kept : Nat) (left right : Value)
    (values : domain.Val × domain.Val) (next : Machine domain) : Prop where
  first : next.read left = values.1
  second : Leaves machine rest kept right values.2 next

end Machine

section Expressions
variable {domain : Domain} {program : Listing} {scope : Scope} {slot : Option Name}
  {before after : Supply} {result : Evaluated}

/-- The type of lowered code is the static type of the expression. -/
theorem lowerExpr_typeIn {value : Expr}
    (lowered : lowerExpr scope slot value before = .ok result after) :
    result.scalar = value.typeIn scope := by
  induction value generalizing slot before after result with
  | literal value =>
      obtain ⟨rfl, rfl⟩ := lowerExpr_literal.mp lowered
      rfl
  | identifier ident =>
      obtain ⟨scalar, found, rfl, rfl⟩ := lowerExpr_identifier.mp lowered
      simp [Expr.typeIn, Scope.typeOf, found]
  | binary op left right leftType rightType =>
      obtain ⟨leftResult, middle, rightResult, last, target, lowerLeft, lowerRight, chosen, rfl⟩ :=
        lowerExpr_binary.mp lowered
      rw [Expr.typeIn, ← leftType lowerLeft, ← rightType lowerRight]
  | cast target operand _ =>
      obtain ⟨operandResult, last, place, lowerOperand, chosen, rfl⟩ := lowerExpr_cast.mp lowered
      rfl

/-- The temporary of an expression is among those that were taken for it. -/
theorem lowerExpr_old {value : Expr} {index : Nat}
    (lowered : lowerExpr scope none value before = .ok result after)
    (kept : result.value = .name (.temp index)) : index ≤ after.temps := by
  cases value with
  | literal value =>
      obtain ⟨rfl, rfl⟩ := lowerExpr_literal.mp lowered
      simp at kept
  | identifier ident =>
      obtain ⟨scalar, found, rfl, rfl⟩ := lowerExpr_identifier.mp lowered
      simp at kept
  | binary op left right =>
      obtain ⟨leftResult, middle, rightResult, last, target, lowerLeft, lowerRight, chosen, rfl⟩ :=
        lowerExpr_binary.mp lowered
      obtain ⟨rfl, rfl⟩ := destination_none.mp chosen
      simp only [Value.name.injEq, Name.temp.injEq] at kept
      exact Nat.le_of_eq kept.symm
  | cast target operand =>
      obtain ⟨operandResult, last, place, lowerOperand, chosen, rfl⟩ := lowerExpr_cast.mp lowered
      obtain ⟨rfl, rfl⟩ := destination_none.mp chosen
      simp only [Value.name.injEq, Name.temp.injEq] at kept
      exact Nat.le_of_eq kept.symm

/-- Code that computes an expression, wherever a machine meets it. -/
def Computes (program : Listing) (domain : Domain) (scope : Scope) (value : Expr)
    (result : Evaluated) (kept : Nat) : Prop :=
  ∀ (machine : Machine domain) (rest : Listing), machine.code = result.code ++ rest →
    machine.Reaches program (value.eval domain scope machine.state.store)
      (machine.Leaves rest kept result.value)

/-- The values of two expressions, the left one first. -/
def evalBoth (domain : Domain) (scope : Scope) (store : String → domain.Val)
    (left right : Expr) : Except domain.Fault (domain.Val × domain.Val) := do
  let leftValue ← left.eval domain scope store
  let rightValue ← right.eval domain scope store
  return (leftValue, rightValue)

/-- Two operands are computed one after the other, and the first is still there in the end. -/
theorem operands_reach {left right : Expr} {leftResult rightResult : Evaluated} {middle : Supply}
    {machine : Machine domain} {rest : Listing}
    (lowerLeft : lowerExpr scope none left before = .ok leftResult middle)
    (leftComputes : Computes program domain scope left leftResult before.temps)
    (rightComputes : Computes program domain scope right rightResult middle.temps)
    (placed : machine.code = leftResult.code ++ (rightResult.code ++ rest)) :
    machine.Reaches program (evalBoth domain scope machine.state.store left right)
      (machine.LeavesBoth rest before.temps leftResult.value rightResult.value) := by
  have ordered : before.temps ≤ middle.temps := ((lowerExpr_grows scope none left).ok lowerLeft).1
  apply Machine.reaches_bind (leftComputes machine _ placed) fun _ _ leaves => leaves.state
  intro leftValue next leaves
  rw [← leaves.state]
  apply Machine.reaches_bind (rightComputes next _ leaves.code) fun _ _ leaves => leaves.state
  intro rightValue last later
  refine Machine.reaches_ok 0 rfl ⟨?_, leaves.toKeeps.leaves later ordered⟩
  rw [later.toKeeps.read fun index kept => lowerExpr_old lowerLeft kept]
  exact leaves.result

/-- A binary operation stores its value in its target. -/
theorem binary_stores {op : ArithOp} {left right : Expr} {leftResult rightResult : Evaluated}
    {middle last : Supply} {target : Name} {machine : Machine domain} {rest : Listing}
    (lowerLeft : lowerExpr scope none left before = .ok leftResult middle)
    (lowerRight : lowerExpr scope none right middle = .ok rightResult last)
    (leftComputes : Computes program domain scope left leftResult before.temps)
    (rightComputes : Computes program domain scope right rightResult middle.temps)
    (placed : machine.code = leftResult.code ++ (rightResult.code ++
      .arith (leftResult.scalar.promote rightResult.scalar) op target leftResult.value
        rightResult.value :: rest)) :
    machine.Reaches program ((Expr.binary op left right).eval domain scope machine.state.store)
      (machine.Stores rest before.temps target) := by
  have evaluated : (Expr.binary op left right).eval domain scope machine.state.store =
      evalBoth domain scope machine.state.store left right >>= fun values =>
        domain.arith ((left.typeIn scope).promote (right.typeIn scope)) op values.1 values.2 := by
    simp [Expr.eval, evalBoth]
  rw [evaluated, ← lowerExpr_typeIn lowerLeft, ← lowerExpr_typeIn lowerRight]
  apply Machine.reaches_bind (operands_reach lowerLeft leftComputes rightComputes placed)
    fun _ _ leaves => leaves.second.state
  intro values next leaves
  rw [← leaves.first, ← leaves.second.result]
  apply Machine.reaches_mono (Machine.arith_reaches leaves.second.code)
  intro value final stored
  exact ⟨next, leaves.second.toKeeps, stored⟩

/-- A cast stores the converted value in its target. -/
theorem cast_stores {target : Scalar} {operand : Expr} {operandResult : Evaluated} {last : Supply}
    {place : Name} {machine : Machine domain} {rest : Listing}
    (lowerOperand : lowerExpr scope none operand before = .ok operandResult last)
    (operandComputes : Computes program domain scope operand operandResult before.temps)
    (placed : machine.code = operandResult.code ++
      conversion operandResult.scalar target place operandResult.value :: rest) :
    machine.Reaches program ((Expr.cast target operand).eval domain scope machine.state.store)
      (machine.Stores rest before.temps place) := by
  rw [Expr.eval]
  apply Machine.reaches_bind (operandComputes machine _ placed) fun _ _ leaves => leaves.state
  intro value next leaves
  rw [← leaves.result, ← lowerExpr_typeIn lowerOperand]
  exact Machine.reaches_ok 1 (Machine.run_conversion leaves.code) ⟨next, leaves.toKeeps, rfl⟩

/-- Lowered code computes its expression. -/
theorem lowerExpr_computes {value : Expr}
    (lowered : lowerExpr scope none value before = .ok result after) :
    Computes program domain scope value result before.temps := by
  induction value generalizing before after result with
  | literal value =>
      obtain ⟨rfl, rfl⟩ := lowerExpr_literal.mp lowered
      intro machine rest placed
      exact Machine.reaches_ok 0 rfl ⟨Machine.keeps_code machine.code, placed, rfl⟩
  | identifier ident =>
      obtain ⟨scalar, found, rfl, rfl⟩ := lowerExpr_identifier.mp lowered
      intro machine rest placed
      exact Machine.reaches_ok 0 rfl ⟨Machine.keeps_code machine.code, placed, rfl⟩
  | binary op left right leftComputes rightComputes =>
      obtain ⟨leftResult, middle, rightResult, last, target, lowerLeft, lowerRight, chosen, rfl⟩ :=
        lowerExpr_binary.mp lowered
      obtain ⟨rfl, rfl⟩ := destination_none.mp chosen
      have first := ((lowerExpr_grows scope none left).ok lowerLeft).1
      have second := ((lowerExpr_grows scope none right).ok lowerRight).1
      have fresh := nextTemp_gt scope last.temps
      intro machine rest placed
      apply Machine.reaches_mono (binary_stores lowerLeft lowerRight (leftComputes lowerLeft)
        (rightComputes lowerRight) (by simpa using placed))
      exact fun value next stored => stored.leaves (by omega)
  | cast target operand operandComputes =>
      obtain ⟨operandResult, last, place, lowerOperand, chosen, rfl⟩ := lowerExpr_cast.mp lowered
      obtain ⟨rfl, rfl⟩ := destination_none.mp chosen
      have first := ((lowerExpr_grows scope none operand).ok lowerOperand).1
      have fresh := nextTemp_gt scope last.temps
      intro machine rest placed
      apply Machine.reaches_mono (cast_stores lowerOperand (operandComputes lowerOperand)
        (by simpa using placed))
      exact fun value next stored => stored.leaves (by omega)

end Expressions

namespace Machine
variable {domain : Domain} {program rest : Listing} {machine next : Machine domain} {kept : Nat}
  {operand : Value}

/-- A machine gets below the code of a condition, with its truth in an operand. -/
def Decides (program rest : Listing) (kept : Nat) (operand : Value) (machine : Machine domain)
    (outcome : Except domain.Fault Bool) : Prop :=
  machine.Reaches program outcome fun holds =>
    machine.Leaves rest kept operand (domain.truth holds)

/-- A condition is decided by later work as well. -/
theorem decides_after {outcome : Except domain.Fault Bool} {later : Nat} (steps : Nat)
    (reached : run program steps machine = .running next) (keeps : machine.Keeps kept next)
    (decided : next.Decides program rest later operand outcome) (ordered : kept ≤ later) :
    machine.Decides program rest kept operand outcome :=
  reaches_after steps reached keeps.state
    (reaches_mono decided fun _ _ leaves => keeps.leaves leaves ordered)

/-- A condition is decided after a value that it depends on. -/
theorem decides_bind {Value : Type} {outcome : Except domain.Fault Value}
    {after : Value → Except domain.Fault Bool} {middle : Value → Machine domain → Prop}
    {later : Nat} (start : machine.Reaches program outcome middle)
    (keeps : ∀ value next, middle value next → machine.Keeps kept next)
    (decided : ∀ value next, middle value next →
      next.Decides program rest later operand (after value)) (ordered : kept ≤ later) :
    machine.Decides program rest kept operand (outcome >>= after) :=
  reaches_bind start (fun value next reached => (keeps value next reached).state)
    fun value next reached => reaches_mono (decided value next reached) fun _ _ leaves =>
      (keeps value next reached).leaves leaves ordered

/-- A comparison leaves its truth in its temporary. -/
theorem compare_decides {scalar : Scalar} {op : CmpOp} {left right : Value} {index : Nat}
    (here : machine.code = .compare scalar op (.temp index) left right :: rest)
    (fresh : kept < index) :
    machine.Decides program rest kept (.name (.temp index))
      (.ok (domain.compare scalar op (machine.read left) (machine.read right))) :=
  reaches_ok 1 (run_one here rfl) (leaves_write machine rest _ fresh)

/-- A jump and the mark it goes to take two steps. -/
theorem run_jump {label : Label} {after : Listing} (here : machine.code = .jump label :: rest)
    (found : program.seek label = some (.mark label :: after)) :
    run program 2 machine = .running { machine with code := after } := by
  simp only [run, step, here, execute, jumpTo, found]

/-- A conditional jump is taken if the truth in its operand is false. -/
theorem run_jumpIfZero {label : Label} {after : Listing} {holds : Bool}
    (here : machine.code = .jumpIfZero label operand :: rest)
    (tested : machine.read operand = domain.truth holds)
    (found : program.seek label = some (.mark label :: after)) :
    ∃ steps, run program steps machine =
      .running { machine with code := if holds then rest else after } := by
  cases holds with
  | true =>
      have zero : domain.isZero (machine.read operand) = false := by
        rw [tested]
        exact domain.isZeroOne
      exact ⟨1, by simp [run, step, here, execute, zero]⟩
  | false =>
      have zero : domain.isZero (machine.read operand) = true := by
        rw [tested]
        exact domain.isZeroZero
      exact ⟨2, by simp [run, step, here, execute, zero, jumpTo, found]⟩

/-- The labels of a truth tail mark their places in it. -/
theorem truthTail_within {place : Name} {failure exit : Label}
    (within : truthTail place failure exit ++ rest <:+ program) :
    .mark failure :: .assign .int place (flag 0) :: .mark exit :: rest <:+ program ∧
      .mark exit :: rest <:+ program := by
  have atFailure : .mark failure :: .assign .int place (flag 0) :: .mark exit :: rest <:+ program :=
    (List.suffix_cons _ _).trans ((List.suffix_cons _ _).trans within)
  exact ⟨atFailure, (List.suffix_cons _ _).trans ((List.suffix_cons _ _).trans atFailure)⟩

/-- A truth tail stores the truth when it is entered from above, and otherwise when it is entered
below its label for failure. -/
theorem truthTail_decides {index : Nat} {failure exit : Label} {holds : Bool}
    (once : program.marks.Nodup)
    (within : truthTail (.temp index) failure exit ++ rest <:+ program) (fresh : kept < index)
    (here : machine.code = if holds then truthTail (.temp index) failure exit ++ rest
      else .assign .int (.temp index) (flag 0) :: .mark exit :: rest) :
    machine.Decides program rest kept (.name (.temp index)) (.ok holds) := by
  have stored := leaves_write machine rest (domain.truth holds) fresh
  cases holds with
  | true =>
      have entered : machine.code = .assign .int (.temp index) (flag 1) :: .jump exit ::
        .mark failure :: .assign .int (.temp index) (flag 0) :: .mark exit :: rest := here
      refine reaches_ok 3 ?_ stored
      rw [run_step entered rfl]
      exact run_jump rfl (Listing.seek_within once (truthTail_within within).2)
  | false =>
      have entered : machine.code = .assign .int (.temp index) (flag 0) :: .mark exit :: rest := here
      refine reaches_ok 2 ?_ stored
      rw [run_step entered rfl]
      rfl

/-- Marks are passed one by one. -/
theorem run_marks {labels : List Label} (here : machine.code = labels.map .mark ++ rest) :
    run program labels.length machine = .running { machine with code := rest } := by
  induction labels generalizing machine with
  | nil =>
      cases machine
      cases here
      rfl
  | cons label labels ih =>
      rw [List.length_cons, run_step here rfl]
      exact ih rfl

end Machine

section Conditions
variable {domain : Domain} {program rest : Listing} {left right : Evaluated} {index kept : Nat}
  {machine : Machine domain} {leftOutcome rightOutcome : Except domain.Fault Bool}

/-- Code that decides a condition for every machine that keeps what some machine has. -/
def Settles (program : Listing) (result : Evaluated) (kept : Nat) (machine : Machine domain)
    (outcome : Except domain.Fault Bool) : Prop :=
  ∀ (next : Machine domain) (rest : Listing), machine.Keeps kept next →
    next.code = result.code ++ rest → next.code <:+ program →
    next.Decides program rest kept result.value outcome

/-- The right side of a disjunction or a conjunction decides it, once it is entered. -/
theorem rightSide_decides {failure exit : Label} {labels : List Label} {next : Machine domain}
    (once : program.marks.Nodup) (fresh : kept < index) (keeps : machine.Keeps kept next)
    (settled : Settles program right kept machine rightOutcome)
    (placed : next.code = right.code ++ .jumpIfZero failure right.value ::
      (labels.map .mark ++ (truthTail (.temp index) failure exit ++ rest)))
    (within : next.code <:+ program) :
    next.Decides program rest kept (.name (.temp index)) rightOutcome := by
  have inside := within
  rw [placed] at inside
  have atTail := (List.suffix_append _ _).trans ((List.suffix_cons _ _).trans
    ((List.suffix_append _ _).trans inside))
  have foundFailure := Listing.seek_within once (Machine.truthTail_within atTail).1
  rw [← bind_pure rightOutcome]
  apply Machine.decides_bind (settled next _ keeps placed within)
    (fun _ _ leaves => leaves.toKeeps) _ (Nat.le_refl kept)
  intro holds later leaves
  obtain ⟨steps, reached⟩ := Machine.run_jumpIfZero leaves.code leaves.result foundFailure
  apply Machine.decides_after steps reached (Machine.keeps_code _) _ (Nat.le_refl kept)
  cases holds with
  | true =>
      exact Machine.decides_after labels.length (Machine.run_marks rfl) (Machine.keeps_code _)
        (Machine.truthTail_decides once atTail fresh rfl) (Nat.le_refl kept)
  | false => exact Machine.truthTail_decides once atTail fresh rfl

/-- A disjunction skips its right side if the left side holds. -/
theorem orCode_settles {scalar : Scalar} {second success failure exit : Label}
    (once : program.marks.Nodup) (fresh : kept < index)
    (leftSettled : Settles program left kept machine leftOutcome)
    (rightSettled : Settles program right kept machine rightOutcome) :
    Settles program ⟨orCode left right (.temp index) second success failure exit, scalar,
        .name (.temp index)⟩ kept machine
      (do if ← leftOutcome then return true else rightOutcome) := by
  intro next rest keeps placed within
  have layout : next.code = left.code ++ .jumpIfZero second left.value :: .jump success ::
      .mark second :: (right.code ++ .jumpIfZero failure right.value :: ([success].map .mark ++
        (truthTail (.temp index) failure exit ++ rest))) := by
    rw [placed]
    simp [orCode]
  have inside := within
  rw [layout] at inside
  have atSecond := (List.suffix_cons _ _).trans ((List.suffix_cons _ _).trans
    ((List.suffix_append _ _).trans inside))
  have atRight := (List.suffix_cons _ _).trans atSecond
  have atSuccess := (List.suffix_cons _ _).trans ((List.suffix_append _ _).trans atRight)
  apply Machine.decides_bind (leftSettled next _ keeps layout within)
    (fun _ _ leaves => leaves.toKeeps) _ (Nat.le_refl kept)
  intro holds later leaves
  obtain ⟨steps, reached⟩ :=
    Machine.run_jumpIfZero leaves.code leaves.result (Listing.seek_within once atSecond)
  apply Machine.decides_after steps reached (Machine.keeps_code _) _ (Nat.le_refl kept)
  cases holds with
  | true =>
      exact Machine.decides_after 2 (Machine.run_jump rfl (Listing.seek_within once atSuccess))
        (Machine.keeps_code _)
        (Machine.truthTail_decides once ((List.suffix_cons _ _).trans atSuccess) fresh rfl)
        (Nat.le_refl kept)
  | false =>
      have moved := keeps.trans leaves.toKeeps (Nat.le_refl kept)
      exact rightSide_decides once fresh (moved.trans (Machine.keeps_code _) (Nat.le_refl kept))
        rightSettled rfl atRight

/-- A conjunction skips its right side if the left side fails. -/
theorem andCode_settles {scalar : Scalar} {failure exit : Label}
    (once : program.marks.Nodup) (fresh : kept < index)
    (leftSettled : Settles program left kept machine leftOutcome)
    (rightSettled : Settles program right kept machine rightOutcome) :
    Settles program ⟨andCode left right (.temp index) failure exit, scalar, .name (.temp index)⟩
      kept machine (do if ← leftOutcome then rightOutcome else return false) := by
  intro next rest keeps placed within
  have layout : next.code = left.code ++ .jumpIfZero failure left.value ::
      (right.code ++ .jumpIfZero failure right.value :: (([] : List Label).map .mark ++
        (truthTail (.temp index) failure exit ++ rest))) := by
    rw [placed]
    simp [andCode]
  have inside := within
  rw [layout] at inside
  have atRight := (List.suffix_cons _ _).trans ((List.suffix_append _ _).trans inside)
  have atTail : truthTail (.temp index) failure exit ++ rest <:+ program :=
    (List.suffix_cons _ _).trans ((List.suffix_append _ _).trans atRight)
  have foundFailure := Listing.seek_within once (Machine.truthTail_within atTail).1
  apply Machine.decides_bind (leftSettled next _ keeps layout within)
    (fun _ _ leaves => leaves.toKeeps) _ (Nat.le_refl kept)
  intro holds later leaves
  obtain ⟨steps, reached⟩ := Machine.run_jumpIfZero leaves.code leaves.result foundFailure
  apply Machine.decides_after steps reached (Machine.keeps_code _) _ (Nat.le_refl kept)
  cases holds with
  | true =>
      have moved := keeps.trans leaves.toKeeps (Nat.le_refl kept)
      exact rightSide_decides once fresh (moved.trans (Machine.keeps_code _) (Nat.le_refl kept))
        rightSettled rfl atRight
  | false => exact Machine.truthTail_decides once atTail fresh rfl

/-- Code that settles a condition for one bound settles it for smaller ones. -/
theorem settles_of_le {result : Evaluated} {later : Nat} {scope : Scope} {test : Condition}
    (ordered : kept ≤ later)
    (settled : ∀ machine : Machine domain,
      Settles program result later machine (test.eval domain scope machine.state.store)) :
    Settles program result kept machine (test.eval domain scope machine.state.store) := by
  intro next rest keeps placed within
  rw [← keeps.state]
  exact Machine.decides_after 0 rfl (Machine.keeps_code next.code)
    (settled next next rest (Machine.keeps_code next.code) placed within) ordered

section Relations
variable {scope : Scope} {scalar : Scalar} {left right : Value} {before after : Supply}
  {result : Evaluated}

/-- A comparison settles what it compares. -/
theorem compare_settles {op : CmpOp}
    (oldLeft : ∀ index, left = .name (.temp index) → index ≤ kept)
    (oldRight : ∀ index, right = .name (.temp index) → index ≤ kept) (fresh : kept < index) :
    Settles program ⟨[.compare scalar op (.temp index) left right], .int, .name (.temp index)⟩ kept
      machine (.ok (domain.compare scalar op (machine.read left) (machine.read right))) := by
  intro next rest keeps placed within
  rw [← keeps.read oldLeft, ← keeps.read oldRight]
  exact Machine.compare_decides placed fresh

/-- A disjunction of known truths. -/
theorem either_ok {Fault : Type} (first second : Bool) :
    (do if ← (Except.ok first : Except Fault Bool) then return true else Except.ok second) =
      Except.ok (first || second) := by
  cases first <;> rfl

/-- A relation that includes equality compares twice at most. -/
theorem lowerOrEqual_settles {strict : CmpOp} (once : program.marks.Nodup)
    (oldLeft : ∀ index, left = .name (.temp index) → index ≤ before.temps)
    (oldRight : ∀ index, right = .name (.temp index) → index ≤ before.temps)
    (lowered : lowerOrEqual scope scalar strict left right before = .ok result after) :
    Settles program result before.temps machine
      (.ok (domain.compare scalar .equal (machine.read left) (machine.read right) ||
        domain.compare scalar strict (machine.read left) (machine.read right))) := by
  obtain ⟨equal, middle, lowerEqual, rest⟩ := lowering_bind_ok.mp lowered
  obtain ⟨unequal, last, lowerUnequal, joined⟩ := lowering_bind_ok.mp rest
  rw [lowerCompare_eq] at lowerEqual lowerUnequal
  rw [lowerOr_eq] at joined
  cases lowerEqual
  cases lowerUnequal
  cases joined
  have first := nextTemp_gt scope before.temps
  have second := nextTemp_gt scope (scope.nextTemp before.temps)
  have third := nextTemp_gt scope (scope.nextTemp (scope.nextTemp before.temps))
  rw [← either_ok]
  exact orCode_settles once (Nat.lt_trans first (Nat.lt_trans second third))
    (compare_settles oldLeft oldRight first)
    (compare_settles oldLeft oldRight (Nat.lt_trans first second))

/-- The code of a relation settles it. -/
theorem lowerRelation_settles {op : RelOp} (once : program.marks.Nodup)
    (oldLeft : ∀ index, left = .name (.temp index) → index ≤ before.temps)
    (oldRight : ∀ index, right = .name (.temp index) → index ≤ before.temps)
    (lowered : lowerRelation scope scalar op left right before = .ok result after) :
    Settles program result before.temps machine
      (.ok (domain.relate scalar op (machine.read left) (machine.read right))) := by
  have fresh := nextTemp_gt scope before.temps
  cases op with
  | equal | notEqual | less | greater =>
      cases lowered
      exact compare_settles oldLeft oldRight fresh
  | lessEqual | greaterEqual => exact lowerOrEqual_settles once oldLeft oldRight lowered

end Relations

/-- A negation settles the opposite of its operand. -/
theorem negation_settles {operand : Evaluated} {outcome : Except domain.Fault Bool}
    (fresh : kept < index) (settled : Settles program operand kept machine outcome) :
    Settles program ⟨operand.code ++ [.compare .int .equal (.temp index) operand.value (flag 0)],
      .int, .name (.temp index)⟩ kept machine (do let holds ← outcome; return !holds) := by
  intro next rest keeps placed within
  have layout : next.code = operand.code ++
      .compare .int .equal (.temp index) operand.value (flag 0) :: rest := by
    simpa using placed
  apply Machine.decides_bind (settled next _ keeps layout within)
    (fun _ _ leaves => leaves.toKeeps) _ (Nat.le_refl kept)
  intro holds later leaves
  have negated := domain.equal_truth holds
  rw [← leaves.result] at negated
  rw [← negated]
  exact Machine.compare_decides leaves.code fresh

section Lowered
variable {scope : Scope} {before after : Supply} {result : Evaluated}

/-- The code of two operands and of a relation between them settles it. -/
theorem operands_settle {op : RelOp} {left right : Expr} (once : program.marks.Nodup)
    (lowered : lowerCondition scope (.relation op left right) before = .ok result after) :
    Settles program result before.temps machine
      ((Condition.relation op left right).eval domain scope machine.state.store) := by
  obtain ⟨leftResult, middle, rightResult, last, compared, lowerLeft, lowerRight, related, rfl⟩ :=
    lowerCondition_relation.mp lowered
  have first := ((lowerExpr_grows scope none left).ok lowerLeft).1
  have second := ((lowerExpr_grows scope none right).ok lowerRight).1
  intro next rest keeps placed within
  have evaluated : (Condition.relation op left right).eval domain scope machine.state.store =
      evalBoth domain scope next.state.store left right >>= fun values =>
        pure (domain.relate ((left.typeIn scope).promote (right.typeIn scope)) op values.1
          values.2) := by
    rw [keeps.state]
    simp [Condition.eval, evalBoth]
  have layout : next.code = leftResult.code ++ (rightResult.code ++ (compared.code ++ rest)) := by
    simpa using placed
  have inside := within
  rw [layout] at inside
  have atCompared := (List.suffix_append _ _).trans ((List.suffix_append _ _).trans inside)
  rw [evaluated, ← lowerExpr_typeIn lowerLeft, ← lowerExpr_typeIn lowerRight]
  apply Machine.decides_bind (operands_reach lowerLeft (lowerExpr_computes lowerLeft)
    (lowerExpr_computes lowerRight) layout) (fun _ _ leaves => leaves.second.toKeeps) _
    (Nat.le_trans first second)
  intro values later leaves
  rw [← leaves.first, ← leaves.second.result]
  rw [← leaves.second.code] at atCompared
  exact lowerRelation_settles once
    (fun index named => Nat.le_trans (lowerExpr_old lowerLeft named) second)
    (fun index named => lowerExpr_old lowerRight named) related later rest
    (Machine.keeps_code later.code) leaves.second.code atCompared

/-- The code of a condition settles it. -/
theorem lowerCondition_settles {test : Condition} (once : program.marks.Nodup)
    (lowered : lowerCondition scope test before = .ok result after) (machine : Machine domain) :
    Settles program result before.temps machine (test.eval domain scope machine.state.store) := by
  induction test generalizing before after result machine with
  | or left right leftSettled rightSettled =>
      obtain ⟨leftResult, middle, rightResult, last, lowerLeft, lowerRight, joined⟩ :=
        lowerCondition_or.mp lowered
      have first := ((lowerCondition_grows scope left).ok lowerLeft).1
      have second := ((lowerCondition_grows scope right).ok lowerRight).1
      have fresh := nextTemp_gt scope last.temps
      rw [lowerOr_eq] at joined
      cases joined
      exact orCode_settles once (by omega) (leftSettled lowerLeft machine)
        (settles_of_le first (rightSettled lowerRight))
  | and left right leftSettled rightSettled =>
      obtain ⟨leftResult, middle, rightResult, last, lowerLeft, lowerRight, joined⟩ :=
        lowerCondition_and.mp lowered
      have first := ((lowerCondition_grows scope left).ok lowerLeft).1
      have second := ((lowerCondition_grows scope right).ok lowerRight).1
      have fresh := nextTemp_gt scope last.temps
      rw [lowerAnd_eq] at joined
      cases joined
      exact andCode_settles once (by omega) (leftSettled lowerLeft machine)
        (settles_of_le first (rightSettled lowerRight))
  | not operand operandSettled =>
      obtain ⟨operandResult, last, lowerOperand, rfl, rfl⟩ := lowerCondition_not.mp lowered
      have first := ((lowerCondition_grows scope operand).ok lowerOperand).1
      have fresh := nextTemp_gt scope last.temps
      exact negation_settles (by omega) (operandSettled lowerOperand machine)
  | relation op left right => exact operands_settle once lowered

end Lowered

end Conditions

end Cpl
