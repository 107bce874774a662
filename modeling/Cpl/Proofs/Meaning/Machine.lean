import Cpl.Proofs.Meaning.Evaluation
import Cpl.Proofs.Quad.Flow

namespace Cpl

/-- A machine in the middle of a program. -/
structure Machine (domain : Domain) where
  code : Listing
  temps : Nat → domain.Val
  state : State domain

/-- What a machine does: it runs, it has halted, it has met a fault, or it has no way to go on. -/
inductive Status (domain : Domain) where
  | running (machine : Machine domain)
  | halted (machine : Machine domain)
  | faulted (error : domain.Fault) (machine : Machine domain)
  | stuck (machine : Machine domain)

def Status.machine {domain : Domain} : Status domain → Machine domain
  | running machine => machine
  | halted machine => machine
  | faulted _ machine => machine
  | stuck machine => machine

namespace Machine
variable {domain : Domain}

/-- The value of an operand. -/
def read (machine : Machine domain) : Value → domain.Val
  | .literal value => domain.literal value
  | .name (.var name) => machine.state.store name
  | .name (.temp index) => machine.temps index

/-- Stores a value. -/
def write (machine : Machine domain) (target : Name) (value : domain.Val) : Machine domain :=
  match target with
  | .var name => { machine with state := machine.state.assign name value }
  | .temp index => { machine with temps := Function.update machine.temps index value }

/-- Goes on at a label. -/
def jumpTo (program : Listing) (label : Label) (machine : Machine domain) : Status domain :=
  match program.seek label with
  | some code => .running { machine with code := code }
  | none => .stuck machine

/-- Carries out one instruction, with `rest` below it. -/
def execute (program : Listing) (machine : Machine domain) (quad : Quad) (rest : Listing) :
    Status domain :=
  let next : Machine domain := { machine with code := rest }
  match quad with
  | .assign _ target value => .running (next.write target (machine.read value))
  | .input scalar target =>
      match domain.read scalar machine.state.input with
      | .ok (value, later) =>
          .running ({ next with state := { next.state with input := later } }.write target value)
      | .error error => .faulted error machine
  | .print scalar value =>
      .running { next with state := next.state.print scalar (machine.read value) }
  | .arith scalar op target left right =>
      match domain.arith scalar op (machine.read left) (machine.read right) with
      | .ok value => .running (next.write target value)
      | .error error => .faulted error machine
  | .compare scalar op target left right =>
      .running (next.write target
        (domain.truth (domain.compare scalar op (machine.read left) (machine.read right))))
  | .toReal target value => .running (next.write target (domain.toReal (machine.read value)))
  | .toInt target value => .running (next.write target (domain.toInt (machine.read value)))
  | .jump label => jumpTo program label machine
  | .jumpIfZero label value =>
      if domain.isZero (machine.read value) then jumpTo program label machine else .running next
  | .mark _ => .running next
  | .halt => .halted machine

/-- One step. Where the code ends without a halt there is none. -/
def step (program : Listing) (machine : Machine domain) : Status domain :=
  match machine.code with
  | [] => .stuck machine
  | quad :: rest => machine.execute program quad rest

/-- A run of at most so many steps. -/
def run (program : Listing) : Nat → Machine domain → Status domain
  | 0, machine => .running machine
  | steps + 1, machine =>
      match machine.step program with
      | .running next => run program steps next
      | status => status

section Runs
variable {program : Listing} {machine next : Machine domain} {first second : Nat}

/-- Runs follow each other. -/
theorem run_add (reached : run program first machine = .running next) :
    run program (first + second) machine = run program second next := by
  induction first generalizing machine with
  | zero =>
      cases reached
      rw [Nat.zero_add]
  | succ first ih =>
      rw [Nat.succ_add, run]
      rw [run] at reached
      cases taken : machine.step program with
      | running middle =>
          rw [taken] at reached
          exact ih reached
      | halted final => simp [taken] at reached
      | faulted error final => simp [taken] at reached
      | stuck final => simp [taken] at reached

/-- A step and then a run. -/
theorem run_step {quad : Quad} {rest : Listing} (here : machine.code = quad :: rest)
    (taken : machine.execute program quad rest = .running next) (steps : Nat) :
    run program (steps + 1) machine = run program steps next := by
  rw [run, step, here]
  simp only [taken]

/-- A machine that has ended stays as it is. -/
theorem run_ended {steps more : Nat} {status : Status domain}
    (ended : run program steps machine = status)
    (final : ∀ middle, status ≠ .running middle) (later : steps ≤ more) :
    run program more machine = status := by
  induction steps generalizing machine more with
  | zero => exact absurd ended.symm (final machine)
  | succ steps ih =>
      obtain ⟨more, rfl⟩ : ∃ count, more = count + 1 := ⟨more - 1, by omega⟩
      rw [run] at ended ⊢
      cases taken : machine.step program with
      | running middle =>
          rw [taken] at ended
          exact ih ended (Nat.le_of_succ_le_succ later)
      | halted middle =>
          rw [taken] at ended
          exact ended
      | faulted error middle =>
          rw [taken] at ended
          exact ended
      | stuck middle =>
          rw [taken] at ended
          exact ended

/-- Writing a place prints nothing. -/
theorem write_output (machine : Machine domain) (target : Name) (value : domain.Val) :
    (machine.write target value).state.output = machine.state.output := by
  cases target <;> rfl

/-- A jump prints nothing. -/
theorem jumpTo_output (program : Listing) (label : Label) (machine : Machine domain) :
    (jumpTo program label machine).machine.state.output = machine.state.output := by
  rw [jumpTo]
  split <;> rfl

/-- An instruction can only add to the output. -/
theorem execute_output (quad : Quad) (rest : Listing) :
    machine.state.output <+: (machine.execute program quad rest).machine.state.output := by
  cases quad with
  | assign | compare | toReal | toInt => simp [execute, Status.machine, write_output]
  | input scalar target =>
      simp only [execute]
      split <;> simp [Status.machine, write_output]
  | print scalar value => simp [execute, Status.machine, State.print]
  | arith scalar op target left right =>
      simp only [execute]
      split <;> simp [Status.machine, write_output]
  | jump label => simp [execute, jumpTo_output]
  | jumpIfZero label value =>
      simp only [execute]
      split
      · simp [jumpTo_output]
      · simp [Status.machine]
  | mark | halt => simp [execute, Status.machine]

/-- A step only adds to what is printed. -/
theorem step_output : machine.state.output <+: (machine.step program).machine.state.output := by
  rw [step]
  split
  · exact List.prefix_refl _
  · exact execute_output _ _

/-- A run only adds to what is printed. -/
theorem run_output_prefix (steps : Nat) :
    machine.state.output <+: (run program steps machine).machine.state.output := by
  induction steps generalizing machine with
  | zero => exact List.prefix_refl _
  | succ steps ih =>
      have start : machine.state.output <+: (machine.step program).machine.state.output :=
        step_output
      rw [run]
      cases taken : machine.step program with
      | running middle =>
          rw [taken] at start
          exact start.trans ih
      | halted final | faulted error final | stuck final =>
          rw [taken] at start
          exact start

/-- A longer run has printed at least as much. -/
theorem run_output_mono {steps more : Nat} (later : steps ≤ more) :
    (run program steps machine).machine.state.output <+:
      (run program more machine).machine.state.output := by
  induction steps generalizing machine more with
  | zero => exact run_output_prefix more
  | succ steps ih =>
      obtain ⟨more, rfl⟩ : ∃ count, more = count + 1 := ⟨more - 1, by omega⟩
      simp only [run]
      cases machine.step program with
      | running middle => exact ih (Nat.le_of_succ_le_succ later)
      | halted final | faulted error final | stuck final => exact List.prefix_refl _

end Runs

end Machine

end Cpl
