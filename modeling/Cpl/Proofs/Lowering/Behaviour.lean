import Cpl.Proofs.Lowering.Execution
import Cpl.Proofs.Lowering.Labels

namespace Cpl

/-- Runs of a program, cut after some rounds, and runs of a machine, cut after some steps, that
cannot be told apart by how they end, by the states in which they are cut or by what they print. -/
structure Agree {domain : Domain} (source : Nat → Outcome domain) (target : Nat → Status domain) :
    Prop where
  done (final : State domain) : (∃ rounds, source rounds = .done final) ↔
    ∃ steps machine, target steps = .halted machine ∧ machine.state = final
  fault (error : domain.Fault) (final : State domain) :
    (∃ rounds, source rounds = .fault error final) ↔
      ∃ steps machine, target steps = .faulted error machine ∧ machine.state = final
  endless : (∀ rounds, ∃ state, source rounds = .cut state) ↔
    ∀ steps, ∃ machine, target steps = .running machine
  unstuck (steps : Nat) (machine : Machine domain) : target steps ≠ .stuck machine
  passed (rounds : Nat) :
    ∃ steps, rounds ≤ steps ∧ (target steps).machine.state = (source rounds).state
  output (printed : List (Scalar × domain.Val)) :
    (∃ rounds, printed <+: (source rounds).state.output) ↔
      ∃ steps, printed <+: (target steps).machine.state.output

/-- The outcome that a machine shows. A machine that runs is cut, and one that is stuck shows
none. -/
def Status.outcome? {domain : Domain} : Status domain → Option (Outcome domain)
  | running machine => some (.cut machine.state)
  | halted machine => some (.done machine.state)
  | faulted error machine => some (.fault error machine.state)
  | stuck _ => none

/-- A machine shows an outcome after at least so many steps. -/
def Machine.Tracks {domain : Domain} (program : Listing) (machine : Machine domain) (least : Nat)
    (outcome : Outcome domain) : Prop :=
  ∃ steps, least ≤ steps ∧ (run program steps machine).outcome? = some outcome

section Tracking
variable {domain : Domain} {program : Listing} {machine : Machine domain} {rounds steps : Nat}
  {status : Status domain} {outcome : Outcome domain}

/-- A run is done exactly if the machine has halted. -/
theorem outcome?_done {final : State domain} :
    status.outcome? = some (.done final) ↔ ∃ last, status = .halted last ∧ last.state = final := by
  cases status <;> simp [Status.outcome?]

/-- A run is at fault exactly if the machine is. -/
theorem outcome?_fault {error : domain.Fault} {final : State domain} :
    status.outcome? = some (.fault error final) ↔
      ∃ last, status = .faulted error last ∧ last.state = final := by
  cases status <;> simp [Status.outcome?, and_assoc]

/-- A run is cut exactly if the machine is still running. -/
theorem outcome?_cut {final : State domain} :
    status.outcome? = some (.cut final) ↔ ∃ last, status = .running last ∧ last.state = final := by
  cases status <;> simp [Status.outcome?]

/-- An outcome shows the state of the machine. -/
theorem outcome?_state (shown : status.outcome? = some outcome) :
    status.machine.state = outcome.state := by
  cases status with
  | running last | halted last | faulted error last =>
      cases shown
      rfl
  | stuck last => cases shown

/-- A machine that ends in no more steps than it tracks an outcome for ends with that outcome. -/
theorem Machine.Tracks.ended (tracks : machine.Tracks program steps outcome)
    (ended : run program steps machine = status) (final : ∀ next, status ≠ .running next) :
    status.outcome? = some outcome := by
  obtain ⟨more, later, shown⟩ := tracks
  rw [run_ended ended final later] at shown
  exact shown

/-- An outcome with which a machine ends is shown ever after. -/
theorem tracks_of_ended (ended : Machine.run program steps machine = status)
    (final : ∀ next, status ≠ .running next) (shown : status.outcome? = some outcome) :
    machine.Tracks program rounds outcome := by
  refine ⟨max rounds steps, Nat.le_max_left rounds steps, ?_⟩
  rw [Machine.run_ended ended final (Nat.le_max_right rounds steps)]
  exact shown

/-- A machine that tracks a program for every number of rounds agrees with it. -/
theorem agree_of_tracks {source : Nat → Outcome domain}
    (tracks : ∀ rounds, machine.Tracks program rounds (source rounds)) :
    Agree source fun steps => Machine.run program steps machine where
  done final := by
    constructor
    · intro ⟨rounds, done⟩
      obtain ⟨steps, _, shown⟩ := tracks rounds
      rw [done] at shown
      exact ⟨steps, outcome?_done.mp shown⟩
    · intro ⟨steps, last, halted, same⟩
      have shown := (tracks steps).ended halted (by simp)
      rw [Status.outcome?, same] at shown
      exact ⟨steps, (Option.some.inj shown).symm⟩
  fault error final := by
    constructor
    · intro ⟨rounds, fault⟩
      obtain ⟨steps, _, shown⟩ := tracks rounds
      rw [fault] at shown
      exact ⟨steps, outcome?_fault.mp shown⟩
    · intro ⟨steps, last, faulted, same⟩
      have shown := (tracks steps).ended faulted (by simp)
      rw [Status.outcome?, same] at shown
      exact ⟨steps, (Option.some.inj shown).symm⟩
  endless := by
    constructor
    · intro endless steps
      obtain ⟨state, cut⟩ := endless steps
      by_contra stopped
      have shown := (tracks steps).ended rfl fun next running => stopped ⟨next, running⟩
      rw [cut] at shown
      obtain ⟨last, running, _⟩ := outcome?_cut.mp shown
      exact stopped ⟨last, running⟩
    · intro endless rounds
      obtain ⟨steps, _, shown⟩ := tracks rounds
      obtain ⟨last, running⟩ := endless steps
      rw [running] at shown
      exact ⟨last.state, (Option.some.inj shown).symm⟩
  unstuck steps last := by
    intro stuck
    have shown := (tracks steps).ended stuck (by simp)
    cases shown
  passed rounds := by
    obtain ⟨steps, later, shown⟩ := tracks rounds
    exact ⟨steps, later, outcome?_state shown⟩
  output printed := by
    constructor
    · intro ⟨rounds, prefixed⟩
      obtain ⟨steps, _, shown⟩ := tracks rounds
      rw [← outcome?_state shown] at prefixed
      exact ⟨steps, prefixed⟩
    · intro ⟨steps, prefixed⟩
      obtain ⟨more, later, shown⟩ := tracks steps
      have longer := prefixed.trans (Machine.run_output_mono later)
      rw [outcome?_state shown] at longer
      exact ⟨steps, longer⟩

end Tracking

/-- The machine on the code of a program tracks the program. -/
theorem generate_tracks {domain : Domain} {scope : Scope} {body : List Statement}
    (declared : ∀ ident ∈ Statement.identsOf body, scope.contains ident.name = true)
    (start : State domain) (temps : Nat → domain.Val) (rounds : Nat) :
    Machine.Tracks (generate scope body).program ⟨(generate scope body).program, temps, start⟩
      rounds (Statement.runAll domain scope rounds body start) := by
  have performed : Machine.Performs (generate scope body).program [.halt] rounds
      ⟨(generate scope body).program, temps, start⟩
      (Statement.runAll domain scope rounds body start) :=
    lowerStatements_carries (program_marks_nodup scope body) body declared ⟨0, 0⟩ _ [.halt] rfl
      (List.suffix_refl _)
  cases outcome : Statement.runAll domain scope rounds body start with
  | done state =>
      rw [outcome] at performed
      obtain ⟨steps, later, reached⟩ := performed
      have halted : Machine.run (generate scope body).program (steps + 1)
          ⟨(generate scope body).program, temps, start⟩ = .halted ⟨[.halt], later, state⟩ :=
        Machine.run_add reached
      exact tracks_of_ended halted (by simp) rfl
  | fault error state =>
      rw [outcome] at performed
      obtain ⟨steps, last, faulted, rfl⟩ := performed
      exact tracks_of_ended faulted (by simp) rfl
  | cut state =>
      rw [outcome] at performed
      obtain ⟨steps, last, long, running, rfl⟩ := performed
      exact ⟨steps, long, outcome?_cut.mpr ⟨last, running, rfl⟩⟩

/-- A program over declared names and its code behave alike, whatever the domain of values, the
initial values and the input. -/
theorem generate_agrees (domain : Domain) (scope : Scope) (body : List Statement)
    (declared : ∀ ident ∈ Statement.identsOf body, scope.contains ident.name = true)
    (start : State domain) (temps : Nat → domain.Val) :
    Agree (fun rounds => Statement.runAll domain scope rounds body start)
      (fun steps => Machine.run (generate scope body).program steps
        ⟨(generate scope body).program, temps, start⟩) :=
  agree_of_tracks (generate_tracks declared start temps)

/-- Whole numbers as values. Division by zero is a fault, and so is a read past the input. -/
def wholeNumbers : Domain where
  Val := Int
  Fault := Unit
  Input := List Int
  literal
    | .integer value => value.toInt
    | .float _ => 0
  arith _ op left right :=
    match op with
    | .add => .ok (left + right)
    | .subtract => .ok (left - right)
    | .multiply => .ok (left * right)
    | .divide => if right = 0 then .error () else .ok (left.tdiv right)
  compare _ op left right :=
    match op with
    | .less => left < right
    | .greater => right < left
    | .equal => left = right
    | .notEqual => left ≠ right
  toReal value := value
  toInt value := value
  read _ input :=
    match input with
    | [] => .error ()
    | value :: later => .ok (value, later)
  isZero value := value = 0
  isZeroZero := by decide
  isZeroOne := by decide
  equalZero := by decide
  equalOne := by decide

/-- Reads a number and counts it down, but not below two, with quotients of it on the way. -/
def countdown : List Statement :=
  let x : Ident := ⟨"x", .point 0⟩
  [.input x,
    .loop (.and (.not (.relation .lessEqual (.identifier x) (.literal (.integer 0))))
        (.relation .notEqual (.identifier x) (.literal (.integer 2))))
      (.block [.output (.binary .divide (.literal (.integer 6)) (.identifier x)),
        .assign x (.binary .subtract (.identifier x) (.literal (.integer 1)))])]

/-- From four, the code of the countdown prints two quotients and halts, as the countdown does. -/
theorem countdown_agrees :
    let scope : Scope := ⟨[("x", .int)]⟩
    let program := (generate scope countdown).program
    let start : State wholeNumbers := ⟨fun _ => (0 : Int), [(4 : Int)], []⟩
    (∀ ident ∈ Statement.identsOf countdown, scope.contains ident.name = true) ∧
      ∃ steps last, Machine.run program steps ⟨program, fun _ => (0 : Int), start⟩ = .halted last ∧
        last.state.output = [(.int, (1 : Int)), (.int, (2 : Int))] := by
  intro scope program start
  have declared : ∀ ident ∈ Statement.identsOf countdown, scope.contains ident.name = true := by
    decide
  have agrees := generate_agrees wholeNumbers scope countdown declared start fun _ => (0 : Int)
  have ended : Statement.runAll wholeNumbers scope 3 countdown start =
      .done (Statement.runAll wholeNumbers scope 3 countdown start).state := rfl
  obtain ⟨steps, last, halted, same⟩ := (agrees.done _).mp ⟨3, ended⟩
  refine ⟨declared, steps, last, halted, ?_⟩
  rw [same]
  rfl

end Cpl
