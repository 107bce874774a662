import Cpl.Proofs.Lowering.Simulation

namespace Cpl

namespace Machine
variable {domain : Domain}

/-- What a machine does in step with an outcome. It comes out below its code if the outcome is
done, stops at the same fault, or is still at work after a number of steps if the outcome is cut. -/
def Performs (program rest : Listing) (least : Nat) (machine : Machine domain) :
    Outcome domain → Prop
  | .done state => ∃ steps temps, run program steps machine = .running ⟨rest, temps, state⟩
  | .fault error state =>
      ∃ steps final, run program steps machine = .faulted error final ∧ final.state = state
  | .cut state =>
      ∃ steps next, least ≤ steps ∧ run program steps machine = .running next ∧ next.state = state

section Rules
variable {program rest : Listing} {least : Nat} {machine next : Machine domain}

/-- A machine that is below the code already is done. -/
theorem performs_done (below : machine.code = rest) :
    machine.Performs program rest least (.done machine.state) := by
  subst below
  exact ⟨0, machine.temps, rfl⟩

/-- The steps that lead to a machine count for it. -/
theorem performs_after {outcome : Outcome domain} {later : Nat} (steps : Nat)
    (reached : run program steps machine = .running next)
    (performed : next.Performs program rest later outcome) (enough : least ≤ steps + later) :
    machine.Performs program rest least outcome := by
  cases outcome with
  | done state =>
      obtain ⟨more, temps, done⟩ := performed
      exact ⟨steps + more, temps, (run_add reached).trans done⟩
  | fault error state =>
      obtain ⟨more, final, done, same⟩ := performed
      exact ⟨steps + more, final, (run_add reached).trans done, same⟩
  | cut state =>
      obtain ⟨more, last, long, done, same⟩ := performed
      exact ⟨steps + more, last, by omega, (run_add reached).trans done, same⟩

/-- Fewer steps are asked for. -/
theorem performs_mono {outcome : Outcome domain} {later : Nat}
    (performed : machine.Performs program rest later outcome) (enough : least ≤ later) :
    machine.Performs program rest least outcome :=
  performs_after 0 rfl performed (by omega)

/-- A machine goes on from where an outcome is done. -/
theorem performs_then {middle : Listing} {outcome : Outcome domain}
    {after : State domain → Outcome domain}
    (start : machine.Performs program middle least outcome)
    (later : ∀ next : Machine domain, next.code = middle →
      next.Performs program rest least (after next.state)) :
    machine.Performs program rest least (outcome.andThen after) := by
  cases outcome with
  | done state =>
      obtain ⟨steps, temps, reached⟩ := start
      exact performs_after steps reached (later ⟨middle, temps, state⟩ rfl) (Nat.le_add_left _ _)
  | fault error state => exact start
  | cut state => exact start

/-- A machine passes what stands below its code. -/
theorem performs_below {middle : Listing} {outcome : Outcome domain}
    (start : machine.Performs program middle least outcome)
    (onward : ∀ next : Machine domain, next.code = middle →
      ∃ steps, run program steps next = .running { next with code := rest }) :
    machine.Performs program rest least outcome := by
  cases outcome with
  | done state =>
      obtain ⟨steps, temps, reached⟩ := start
      obtain ⟨more, passed⟩ := onward ⟨middle, temps, state⟩ rfl
      exact ⟨steps + more, temps, (run_add reached).trans passed⟩
  | fault error state => exact start
  | cut state => exact start

/-- A machine goes on from where a value is. -/
theorem performs_value {Value : Type} {value : Except domain.Fault Value}
    {goal : Value → Machine domain → Prop} {after : Value → Outcome domain}
    (start : machine.Reaches program value goal)
    (later : ∀ value next, goal value next → next.Performs program rest least (after value)) :
    machine.Performs program rest least (.ofValue value machine.state after) := by
  cases value with
  | ok value =>
      obtain ⟨steps, next, reached, holds⟩ := start
      exact performs_after steps reached (later value next holds) (Nat.le_add_left _ _)
  | error error => exact start

end Rules

end Machine

/-- Code that carries out what it stands for, wherever a machine meets it in a program. -/
def Carries {domain : Domain} (program code : Listing) (least : Nat)
    (outcome : State domain → Outcome domain) : Prop :=
  ∀ (machine : Machine domain) (rest : Listing), machine.code = code ++ rest →
    machine.code <:+ program → machine.Performs program rest least (outcome machine.state)

section Layouts
variable {domain : Domain} {program : Listing} {rounds kept : Nat} {tested : Evaluated}
  {test : State domain → Except domain.Fault Bool}

/-- No code carries out nothing. -/
theorem carries_nil : Carries program [] rounds fun state : State domain => .done state :=
  fun _ _ placed _ => Machine.performs_done placed

/-- Code in sequence carries out one outcome after the other. -/
theorem carries_append {first second : Listing} {start later : State domain → Outcome domain}
    (firstCarries : Carries program first rounds start)
    (secondCarries : Carries program second rounds later) :
    Carries program (first ++ second) rounds fun state => (start state).andThen later := by
  intro machine rest placed within
  have layout : machine.code = first ++ (second ++ rest) := by simpa using placed
  have inside := within
  rw [layout] at inside
  apply Machine.performs_then (firstCarries machine _ layout within)
  intro next below
  apply secondCarries next rest below
  rw [below]
  exact (List.suffix_append _ _).trans inside

/-- A branch carries out the side that its condition selects. -/
theorem carries_branch {first second : Listing} {failure exit : Label}
    {yes no : State domain → Outcome domain} (once : program.marks.Nodup)
    (settled : ∀ machine : Machine domain, Settles program tested kept machine (test machine.state))
    (firstCarries : Carries program first rounds yes)
    (secondCarries : Carries program second rounds no) :
    Carries program (branchCode tested first second failure exit) rounds fun state =>
      .ofValue (test state) state fun holds => if holds then yes state else no state := by
  intro machine rest placed within
  have layout : machine.code = tested.code ++ .jumpIfZero failure tested.value ::
      (first ++ .jump exit :: .mark failure :: (second ++ .mark exit :: rest)) := by
    rw [placed]
    simp [branchCode]
  have inside := within
  rw [layout] at inside
  have atFirst := (List.suffix_cons _ _).trans ((List.suffix_append _ _).trans inside)
  have atFailure := (List.suffix_cons _ _).trans ((List.suffix_append _ _).trans atFirst)
  have atSecond := (List.suffix_cons _ _).trans atFailure
  have atExit := (List.suffix_append _ _).trans atSecond
  apply Machine.performs_value
    (settled machine machine _ (Machine.keeps_code machine.code) layout within)
  intro holds next leaves
  obtain ⟨steps, reached⟩ :=
    Machine.run_jumpIfZero leaves.code leaves.result (Listing.seek_within once atFailure)
  apply Machine.performs_after steps reached _ (Nat.le_add_left _ _)
  rw [← leaves.state]
  cases holds with
  | true =>
      apply Machine.performs_below (firstCarries _ _ rfl atFirst)
      exact fun last below => ⟨2, Machine.run_jump below (Listing.seek_within once atExit)⟩
  | false =>
      apply Machine.performs_below (secondCarries _ _ rfl atSecond)
      exact fun last below => ⟨1, Machine.run_one below rfl⟩

/-- Below its entry a loop carries out as many rounds as are asked for. A round takes at least the
two steps of the jump back, so that the bound on the steps keeps up with the rounds. -/
theorem loop_performs {body : Listing} {entry exit : Label} {rest : Listing}
    {outcome : State domain → Outcome domain} (once : program.marks.Nodup)
    (settled : ∀ machine : Machine domain, Settles program tested kept machine (test machine.state))
    (bodyCarries : Carries program body rounds outcome)
    (within : loopCode tested body entry exit ++ rest <:+ program) (machine : Machine domain)
    (placed : machine.code = tested.code ++ .jumpIfZero exit tested.value ::
      (body ++ .jump entry :: .mark exit :: rest)) (count : Nat) (bounded : count ≤ rounds) :
    machine.Performs program rest count (repeatWhile test outcome count machine.state) := by
  have atEntry : .mark entry :: (tested.code ++ .jumpIfZero exit tested.value ::
      (body ++ .jump entry :: .mark exit :: rest)) <:+ program := by
    simpa [loopCode] using within
  have inside := (List.suffix_cons _ _).trans atEntry
  have atBody := (List.suffix_cons _ _).trans ((List.suffix_append _ _).trans inside)
  have atExit := (List.suffix_cons _ _).trans ((List.suffix_append _ _).trans atBody)
  induction count generalizing machine with
  | zero => exact ⟨0, machine, Nat.le_refl 0, rfl, rfl⟩
  | succ count ih =>
      rw [← placed] at inside
      rw [repeatWhile]
      apply Machine.performs_value
        (settled machine machine _ (Machine.keeps_code machine.code) placed inside)
      intro holds next leaves
      obtain ⟨steps, reached⟩ :=
        Machine.run_jumpIfZero leaves.code leaves.result (Listing.seek_within once atExit)
      apply Machine.performs_after steps reached _ (Nat.le_add_left _ _)
      rw [← leaves.state]
      cases holds with
      | true =>
          apply Machine.performs_then
            (Machine.performs_mono (bodyCarries _ _ rfl atBody) bounded)
          intro last below
          exact Machine.performs_after 2 (Machine.run_jump below (Listing.seek_within once atEntry))
            (ih { last with code := _ } rfl (by omega)) (by omega)
      | false => exact Machine.performs_done rfl

/-- A loop carries out its rounds. -/
theorem carries_loop {body : Listing} {entry exit : Label}
    {outcome : State domain → Outcome domain} (once : program.marks.Nodup)
    (settled : ∀ machine : Machine domain, Settles program tested kept machine (test machine.state))
    (bodyCarries : Carries program body rounds outcome) :
    Carries program (loopCode tested body entry exit) rounds (repeatWhile test outcome rounds) := by
  intro machine rest placed within
  have layout : machine.code = .mark entry :: (tested.code ++ .jumpIfZero exit tested.value ::
      (body ++ .jump entry :: .mark exit :: rest)) := by
    rw [placed]
    simp [loopCode]
  rw [placed] at within
  exact Machine.performs_after 1 (Machine.run_one layout rfl)
    (loop_performs once settled bodyCarries within { machine with code := _ } rfl rounds
      (Nat.le_refl rounds)) (Nat.le_add_left _ _)

end Layouts

section Statements
variable {domain : Domain} {program code : Listing} {scope : Scope} {rounds : Nat}
  {before after : Supply}

/-- Storing a value in a variable completes an assignment. -/
theorem stores_performs {target : Ident} {value : Except domain.Fault domain.Val}
    {machine : Machine domain} {rest : Listing} {kept least : Nat}
    (stored : machine.Reaches program value (machine.Stores rest kept (.var target.name))) :
    machine.Performs program rest least (.ofValue value machine.state fun result =>
      .done (machine.state.assign target.name result)) := by
  apply Machine.performs_value stored
  intro result next stores
  rw [← stores.assigned.2]
  exact Machine.performs_done stores.assigned.1

/-- An assignment is carried out by its code. -/
theorem assign_carries {target : Ident} {value : Expr}
    (lowered : lowerAssign scope target value before = .ok code after) :
    Carries program code rounds ((Statement.assign target value).run domain scope rounds) := by
  obtain ⟨scalar, result, found, lowerValue, rfl⟩ := lowerAssign_ok.mp lowered
  intro machine rest placed within
  rw [Statement.run]
  cases value with
  | literal value =>
      obtain ⟨rfl, rfl⟩ := lowerExpr_literal.mp lowerValue
      exact ⟨1, machine.temps, Machine.run_one placed rfl⟩
  | identifier ident =>
      obtain ⟨_, _, rfl, rfl⟩ := lowerExpr_identifier.mp lowerValue
      exact ⟨1, machine.temps, Machine.run_one placed rfl⟩
  | binary op left right =>
      obtain ⟨leftResult, middle, rightResult, last, place, lowerLeft, lowerRight, chosen, rfl⟩ :=
        lowerExpr_binary.mp lowerValue
      obtain ⟨rfl, rfl⟩ := destination_some.mp chosen
      exact stores_performs (binary_stores lowerLeft lowerRight (lowerExpr_computes lowerLeft)
        (lowerExpr_computes lowerRight) (by simpa [copyCode] using placed))
  | cast result operand =>
      obtain ⟨operandResult, last, place, lowerOperand, chosen, rfl⟩ := lowerExpr_cast.mp lowerValue
      obtain ⟨rfl, rfl⟩ := destination_some.mp chosen
      exact stores_performs (cast_stores lowerOperand (lowerExpr_computes lowerOperand)
        (by simpa [copyCode] using placed))

/-- An input is carried out by its code. -/
theorem input_carries {target : Ident}
    (lowered : lowerInput scope target before = .ok code after) :
    Carries program code rounds ((Statement.input target).run domain scope rounds) := by
  obtain ⟨scalar, found, rfl, rfl⟩ := lowerInput_ok.mp lowered
  intro machine rest placed within
  have here : machine.code = .input scalar (.var target.name) :: rest := placed
  have typed : scope.typeOf target.name = scalar := by simp [Scope.typeOf, found]
  rw [Statement.run, typed]
  cases supplied : domain.read scalar machine.state.input with
  | ok pair =>
      refine ⟨1, machine.temps, Machine.run_one here ?_⟩
      simp only [Machine.execute, supplied, Machine.write]
  | error error =>
      refine ⟨1, machine, ?_, rfl⟩
      simp only [Machine.run, Machine.step, here, Machine.execute, supplied]

/-- An output is carried out by its code. -/
theorem output_carries {value : Expr}
    (lowered : lowerOutput scope value before = .ok code after) :
    Carries program code rounds ((Statement.output value).run domain scope rounds) := by
  obtain ⟨result, lowerValue, rfl⟩ := lowerOutput_ok.mp lowered
  intro machine rest placed within
  have layout : machine.code = result.code ++ .print result.scalar result.value :: rest := by
    simpa using placed
  rw [Statement.run, ← lowerExpr_typeIn lowerValue]
  apply Machine.performs_value (lowerExpr_computes lowerValue machine _ layout)
  intro printed next leaves
  rw [← leaves.state, ← leaves.result]
  exact ⟨1, next.temps, Machine.run_one leaves.code rfl⟩

/-- A branch on a negation takes the other side where its operand holds. -/
theorem run_branch (test : Condition) (yes no : Statement) (state : State domain) :
    (Statement.branch test yes no).run domain scope rounds state =
      .ofValue (test.positive.eval domain scope state.store) state fun holds =>
        if holds then (if test.isNegation then no else yes).run domain scope rounds state
        else (if test.isNegation then yes else no).run domain scope rounds state := by
  rw [Statement.run]
  cases test with
  | not operand =>
      rw [Condition.eval, Condition.positive]
      cases evaluated : operand.eval domain scope state.store with
      | error error => rfl
      | ok holds => cases holds <;> rfl
  | or left right => rfl
  | and left right => rfl
  | relation op left right => rfl

mutual

/-- The code of a statement over declared names carries it out. -/
theorem lowerStatement_carries (once : program.marks.Nodup) : ∀ statement : Statement,
    (∀ ident ∈ statement.idents, scope.contains ident.name = true) → ∀ before : Supply,
    Carries program (lowerStatement scope statement before).1.code rounds
      (statement.run domain scope rounds)
  | .assign target value, declared, before => by
      obtain ⟨scalar, found⟩ := Option.isSome_iff_exists.mp (declared target (.head _))
      obtain ⟨result, after, lowerValue⟩ := lowerExpr_declared
        (fun ident within => declared ident (.tail _ within)) (some (.var target.name)) before
      have lowered := lowerAssign_ok.mpr ⟨scalar, result, found, lowerValue, rfl⟩
      rw [lowerStatement, keepOrDrop, lowered]
      exact assign_carries lowered
  | .input target, declared, before => by
      obtain ⟨scalar, found⟩ := Option.isSome_iff_exists.mp (declared target (.head _))
      have lowered : lowerInput scope target before = .ok _ before :=
        lowerInput_ok.mpr ⟨scalar, found, rfl, rfl⟩
      rw [lowerStatement, keepOrDrop, lowered]
      exact input_carries lowered
  | .output value, declared, before => by
      obtain ⟨result, after, lowerValue⟩ := lowerExpr_declared declared none before
      have lowered := lowerOutput_ok.mpr ⟨result, lowerValue, rfl⟩
      rw [lowerStatement, keepOrDrop, lowered]
      exact output_carries lowered
  | .branch test yes no, declared, before => by
      rw [Statement.idents, ← test.positive_idents] at declared
      obtain ⟨tested, afterTest, lowered⟩ := lowerCondition_declared (fun ident within =>
        declared ident (List.mem_append_left _ (List.mem_append_left _ within))) before
      have yesCarries := lowerStatement_carries once yes (fun ident within =>
        declared ident (List.mem_append_left _ (List.mem_append_right _ within))) afterTest
      have noCarries := lowerStatement_carries once no (fun ident within =>
        declared ident (List.mem_append_right _ within)) (lowerStatement scope yes afterTest).2
      rw [lowerStatement_branch_ok lowered, funext (run_branch test yes no)]
      cases test.isNegation with
      | true => exact carries_branch once (lowerCondition_settles once lowered) noCarries yesCarries
      | false => exact carries_branch once (lowerCondition_settles once lowered) yesCarries noCarries
  | .loop test body, declared, before => by
      rw [Statement.idents] at declared
      obtain ⟨tested, afterTest, lowered⟩ := lowerCondition_declared
        (fun ident within => declared ident (List.mem_append_left _ within))
        ⟨before.temps, before.labels + 2⟩
      rw [lowerStatement_loop_ok lowered]
      exact carries_loop once (lowerCondition_settles once lowered) (lowerStatement_carries once body
        (fun ident within => declared ident (List.mem_append_right _ within)) afterTest)
  | .block body, declared, before => by
      rw [lowerStatement]
      exact lowerStatements_carries once body declared before

/-- Statements are carried out by their code. -/
theorem lowerStatements_carries (once : program.marks.Nodup) : ∀ body : List Statement,
    (∀ ident ∈ Statement.identsOf body, scope.contains ident.name = true) → ∀ before : Supply,
    Carries program (lowerStatements scope body before).1.code rounds
      (Statement.runAll domain scope rounds body)
  | [], declared, before => carries_nil
  | first :: later, declared, before => by
      rw [lowerStatements]
      exact carries_append
        (lowerStatement_carries once first
          (fun ident within => declared ident (List.mem_append_left _ within)) before)
        (lowerStatements_carries once later
          (fun ident within => declared ident (List.mem_append_right _ within)) _)

end

end Statements

end Cpl
