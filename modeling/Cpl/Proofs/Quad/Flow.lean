import Cpl.Quad

namespace Cpl

namespace Quad

/-- The label that an instruction marks. -/
def marked? : Quad → Option Label
  | mark label => some label
  | _ => none

/-- The label that an instruction may jump to. -/
def jump? : Quad → Option Label
  | jump label => some label
  | jumpIfZero label _ => some label
  | _ => none

/-- Whether the instruction below may come next. -/
def continues : Quad → Bool
  | jump _ => false
  | halt => false
  | _ => true

/-- The values that an instruction reads. -/
def operands : Quad → List Value
  | assign _ _ value => [value]
  | print _ value => [value]
  | arith _ _ _ left right => [left, right]
  | compare _ _ _ left right => [left, right]
  | toReal _ value => [value]
  | toInt _ value => [value]
  | jumpIfZero _ value => [value]
  | input .. | jump _ | mark _ | halt => []

/-- The place that an instruction writes. -/
def target? : Quad → Option Name
  | assign _ target _ => some target
  | input _ target => some target
  | arith _ _ target _ _ => some target
  | compare _ _ target _ _ => some target
  | toReal target _ => some target
  | toInt target _ => some target
  | print .. | jump _ | jumpIfZero .. | mark _ | halt => none

end Quad

namespace Listing

/-- The labels that are marked, in order. -/
def marks (code : Listing) : List Label := code.filterMap Quad.marked?

/-- The labels that are jumped to, in order. -/
def jumps (code : Listing) : List Label := code.filterMap Quad.jump?

@[simp] theorem marks_nil : marks [] = [] := rfl

@[simp] theorem jumps_nil : jumps [] = [] := rfl

@[simp] theorem marks_append (first second : Listing) :
    marks (first ++ second) = marks first ++ marks second := List.filterMap_append

@[simp] theorem jumps_append (first second : Listing) :
    jumps (first ++ second) = jumps first ++ jumps second := List.filterMap_append

@[simp] theorem marks_cons (quad : Quad) (rest : Listing) :
    marks (quad :: rest) = quad.marked?.toList ++ marks rest := by
  cases found : quad.marked? <;> simp [marks, found]

@[simp] theorem jumps_cons (quad : Quad) (rest : Listing) :
    jumps (quad :: rest) = quad.jump?.toList ++ jumps rest := by
  cases found : quad.jump? <;> simp [jumps, found]

/-- The code from the first mark of a label on. -/
def seek (label : Label) : Listing → Option Listing
  | [] => none
  | quad :: rest => if quad = .mark label then some (quad :: rest) else seek label rest

/-- A label that is marked only once is found where it is marked. -/
theorem seek_marked (label : Label) (before after : Listing)
    (once : (marks (before ++ .mark label :: after)).Nodup) :
    seek label (before ++ .mark label :: after) = some (.mark label :: after) := by
  induction before with
  | nil => simp [seek]
  | cons quad rest ih =>
      have different : quad ≠ .mark label := by
        rintro rfl
        simp [Quad.marked?] at once
      rw [List.cons_append, seek, if_neg different]
      apply ih
      rw [List.cons_append, marks_cons] at once
      exact (List.nodup_append.mp once).2.1

/-- In code that marks each label once, the code below a mark is found by its label. -/
theorem seek_within {program after : Listing} {label : Label} (once : program.marks.Nodup)
    (within : .mark label :: after <:+ program) : program.seek label = some (.mark label :: after) := by
  obtain ⟨past, rfl⟩ := within
  exact seek_marked label past after once

end Listing

/-- The walks from the first instruction of a program: the instructions passed so far, and the
code ahead. Both ways are open at a conditional jump, whatever its operand holds. -/
inductive Walk (program : Listing) : Listing → Listing → Prop
  | start : Walk program [] program
  | next {past ahead : Listing} {quad : Quad} (walked : Walk program past (quad :: ahead))
      (onward : quad.continues = true) : Walk program (past ++ [quad]) ahead
  | jump {past ahead before after : Listing} {quad : Quad} {label : Label}
      (walked : Walk program past (quad :: ahead)) (away : quad.jump? = some label)
      (place : program = before ++ .mark label :: after) :
      Walk program (past ++ [quad]) (.mark label :: after)

/-- A walk goes on through instructions that continue. -/
theorem walk_straight {program past ahead : Listing} (count : Nat) (walked : Walk program past ahead)
    (onward : ∀ quad ∈ ahead.take count, quad.continues = true) :
    Walk program (past ++ ahead.take count) (ahead.drop count) := by
  induction count generalizing past ahead with
  | zero => simpa using walked
  | succ count ih =>
      cases ahead with
      | nil => simpa using walked
      | cons quad rest =>
          have further := walked.next (onward quad (by simp))
          have whole := ih further fun later member => onward later (by simp [member])
          simpa using whole

end Cpl
