import Cpl.Proofs.Lowering.Emission
import Cpl.Proofs.Quad.Flow
import Mathlib.Data.List.Nodup
import Mathlib.Tactic.Tauto

namespace Cpl

/-- Code that keeps its jumps to itself: its labels come from between two counters, each is marked
once, and a label is jumped to exactly if it is marked. -/
structure Closed (code : Listing) (low high : Nat) : Prop where
  once : code.marks.Nodup
  within : ∀ label ∈ code.marks, low < label.index ∧ label.index ≤ high
  matched : ∀ label, label ∈ code.jumps ↔ label ∈ code.marks
  running : Quad.halt ∉ code

/-- Code without labels is closed. -/
theorem closed_plain {code : Listing} (low high : Nat) (marks : code.marks = [])
    (jumps : code.jumps = []) (running : Quad.halt ∉ code) : Closed code low high where
  once := by simp [marks]
  within := by simp [marks]
  matched := by simp [marks, jumps]
  running := running

theorem closed_nil (low high : Nat) : Closed [] low high :=
  closed_plain low high rfl rfl List.not_mem_nil

/-- The labels that come next after `taken` ones. -/
def labelsAfter (taken count : Nat) : List Label := (List.range' (taken + 1) count).map Label.mk

/-- New labels are distinct. -/
theorem labelsAfter_nodup (taken count : Nat) : (labelsAfter taken count).Nodup := by
  apply List.Nodup.map _ List.nodup_range'
  intro first second same
  exact congrArg Label.index same

/-- New labels are numbered right after those that are taken. -/
theorem mem_labelsAfter {taken count : Nat} {label : Label} :
    label ∈ labelsAfter taken count ↔ taken < label.index ∧ label.index ≤ taken + count := by
  constructor
  · intro member
    obtain ⟨index, inside, rfl⟩ := List.mem_map.mp member
    have bounds := List.mem_range'_1.mp inside
    dsimp only
    omega
  · intro bounds
    exact List.mem_map.mpr ⟨label.index, List.mem_range'_1.mpr (by omega), rfl⟩

theorem labelsAfter_two (taken : Nat) : labelsAfter taken 2 = [⟨taken + 1⟩, ⟨taken + 2⟩] := rfl

theorem labelsAfter_four (taken : Nat) :
    labelsAfter taken 4 = [⟨taken + 1⟩, ⟨taken + 2⟩, ⟨taken + 3⟩, ⟨taken + 4⟩] := rfl

/-- Two closed parts are joined by labels of their own. These are taken before or after those of
the parts, and the instructions on them may stand anywhere. -/
theorem closed_join {left right code : Listing} {low first middle last high : Nat}
    (taken count : Nat) (leftClosed : Closed left first middle)
    (rightClosed : Closed right middle last)
    (marks : ∀ label, code.marks.count label =
      left.marks.count label + right.marks.count label + (labelsAfter taken count).count label)
    (jumps : ∀ label, label ∈ code.jumps ↔
      label ∈ left.jumps ∨ label ∈ right.jumps ∨ label ∈ labelsAfter taken count)
    (running : Quad.halt ∉ code) (ordered : first ≤ middle ∧ middle ≤ last)
    (apart : taken + count ≤ first ∨ last ≤ taken)
    (inside : low ≤ first ∧ last ≤ high ∧ low ≤ taken ∧ taken + count ≤ high) :
    Closed code low high := by
  have parts : code.marks.Perm (left.marks ++ right.marks ++ labelsAfter taken count) := by
    apply List.perm_iff_count.mpr
    intro label
    rw [List.count_append, List.count_append, marks label]
  refine ⟨?_, ?_, ?_, running⟩
  · rw [parts.nodup_iff, List.nodup_append, List.nodup_append]
    refine ⟨⟨leftClosed.once, rightClosed.once, ?_⟩, labelsAfter_nodup taken count, ?_⟩
    · intro label leftMember other rightMember same
      have before := leftClosed.within label leftMember
      have after := rightClosed.within other rightMember
      rw [same] at before
      omega
    · intro label member other ownMember same
      have own := mem_labelsAfter.mp ownMember
      rw [← same] at own
      rcases List.mem_append.mp member with leftMember | rightMember
      · have before := leftClosed.within label leftMember
        omega
      · have after := rightClosed.within label rightMember
        omega
  · intro label member
    have member := parts.mem_iff.mp member
    rw [List.mem_append, List.mem_append] at member
    rcases member with (leftMember | rightMember) | ownMember
    · have before := leftClosed.within label leftMember
      omega
    · have after := rightClosed.within label rightMember
      omega
    · have own := mem_labelsAfter.mp ownMember
      omega
  · intro label
    rw [parts.mem_iff, jumps]
    simp only [List.mem_append, leftClosed.matched, rightClosed.matched, or_assoc]

/-- Closed parts follow each other. -/
theorem closed_append {first second : Listing} {low middle high : Nat}
    (start : Closed first low middle) (rest : Closed second middle high)
    (ordered : low ≤ middle ∧ middle ≤ high) : Closed (first ++ second) low high := by
  apply closed_join high 0 start rest _ _ _ ordered (Or.inr (Nat.le_refl _))
    ⟨Nat.le_refl _, Nat.le_refl _, Nat.le_trans ordered.1 ordered.2, Nat.le_refl _⟩
  · simp [labelsAfter]
  · simp [labelsAfter]
  · simp [start.running, rest.running]

/-- An instruction without labels is closed. -/
theorem closed_single (low high : Nat) {quad : Quad} (unmarked : quad.marked? = none)
    (straight : quad.jump? = none) (running : quad ≠ .halt) : Closed [quad] low high :=
  closed_plain low high (by simp [unmarked]) (by simp [straight]) (by simp [running.symm])

section Layouts
variable {left right test : Evaluated} {first second body : Listing} {result : Name}
  {next success failure entry exit : Label} {low middle high : Nat}

/-- A disjunction marks the labels of its sides and its own four. -/
theorem orCode_marks : (orCode left right result next success failure exit).marks =
    left.code.marks ++ next :: (right.code.marks ++ [success, failure, exit]) := by
  simp [orCode, truthTail, Quad.marked?]

/-- A disjunction jumps to the labels of its sides and to its own four. -/
theorem orCode_jumps : (orCode left right result next success failure exit).jumps =
    left.code.jumps ++ next :: success :: (right.code.jumps ++ [failure, exit]) := by
  simp [orCode, truthTail, Quad.jump?]

/-- A conjunction marks the labels of its sides and its own two. -/
theorem andCode_marks : (andCode left right result failure exit).marks =
    left.code.marks ++ (right.code.marks ++ [failure, exit]) := by
  simp [andCode, truthTail, Quad.marked?]

/-- A conjunction jumps to the labels of its sides and to its own two. -/
theorem andCode_jumps : (andCode left right result failure exit).jumps =
    left.code.jumps ++ failure :: (right.code.jumps ++ [failure, exit]) := by
  simp [andCode, truthTail, Quad.jump?]

/-- A branch marks the labels of its parts and its own two. -/
theorem branchCode_marks : (branchCode test first second failure exit).marks =
    test.code.marks ++ (first.marks ++ failure :: (second.marks ++ [exit])) := by
  simp [branchCode, Quad.marked?]

/-- A branch jumps to the labels of its parts and to its own two. -/
theorem branchCode_jumps : (branchCode test first second failure exit).jumps =
    test.code.jumps ++ failure :: (first.jumps ++ exit :: second.jumps) := by
  simp [branchCode, Quad.jump?]

/-- A loop marks the labels of its parts and its own two. -/
theorem loopCode_marks : (loopCode test body entry exit).marks =
    entry :: (test.code.marks ++ (body.marks ++ [exit])) := by
  simp [loopCode, Quad.marked?]

/-- A loop jumps to the labels of its parts and to its own two. -/
theorem loopCode_jumps : (loopCode test body entry exit).jumps =
    test.code.jumps ++ exit :: (body.jumps ++ [entry]) := by
  simp [loopCode, Quad.jump?]

/-- The four labels of a disjunction join its sides. -/
theorem orCode_closed (result : Name) (leftClosed : Closed left.code low middle)
    (rightClosed : Closed right.code middle high) (ordered : low ≤ middle ∧ middle ≤ high) :
    Closed (orCode left right result ⟨high + 1⟩ ⟨high + 2⟩ ⟨high + 3⟩ ⟨high + 4⟩) low (high + 4) := by
  apply closed_join high 4 leftClosed rightClosed _ _ _ ordered (Or.inr (Nat.le_refl _))
    ⟨Nat.le_refl _, Nat.le_add_right _ 4, Nat.le_trans ordered.1 ordered.2, Nat.le_refl _⟩
  · intro label
    simp only [orCode_marks, labelsAfter_four, List.count_append, List.count_cons, List.count_nil]
    omega
  · intro label
    simp only [orCode_jumps, labelsAfter_four, List.mem_append, List.mem_cons]
    tauto
  · simp [orCode, truthTail, leftClosed.running, rightClosed.running]

/-- The two labels of a conjunction join its sides. -/
theorem andCode_closed (result : Name) (leftClosed : Closed left.code low middle)
    (rightClosed : Closed right.code middle high) (ordered : low ≤ middle ∧ middle ≤ high) :
    Closed (andCode left right result ⟨high + 1⟩ ⟨high + 2⟩) low (high + 2) := by
  apply closed_join high 2 leftClosed rightClosed _ _ _ ordered (Or.inr (Nat.le_refl _))
    ⟨Nat.le_refl _, Nat.le_add_right _ 2, Nat.le_trans ordered.1 ordered.2, Nat.le_refl _⟩
  · intro label
    simp only [andCode_marks, labelsAfter_two, List.count_append, List.count_cons, List.count_nil]
    omega
  · intro label
    simp only [andCode_jumps, labelsAfter_two, List.mem_append, List.mem_cons]
    tauto
  · simp [andCode, truthTail, leftClosed.running, rightClosed.running]

/-- The two labels of a branch join its condition and its sides, and either side may come first. -/
theorem branchCode_closed {sides : Listing} (testClosed : Closed test.code low middle)
    (sidesClosed : Closed sides middle high) (exchange : sides.Perm (first ++ second))
    (ordered : low ≤ middle ∧ middle ≤ high) :
    Closed (branchCode test first second ⟨high + 1⟩ ⟨high + 2⟩) low (high + 2) := by
  have marks : sides.marks.Perm (first.marks ++ second.marks) := by
    rw [← Listing.marks_append]
    exact exchange.filterMap Quad.marked?
  have jumps : sides.jumps.Perm (first.jumps ++ second.jumps) := by
    rw [← Listing.jumps_append]
    exact exchange.filterMap Quad.jump?
  have running := sidesClosed.running
  rw [exchange.mem_iff, List.mem_append, not_or] at running
  apply closed_join high 2 testClosed sidesClosed _ _ _ ordered (Or.inr (Nat.le_refl _))
    ⟨Nat.le_refl _, Nat.le_add_right _ 2, Nat.le_trans ordered.1 ordered.2, Nat.le_refl _⟩
  · intro label
    simp only [branchCode_marks, labelsAfter_two, marks.count_eq, List.count_append,
      List.count_cons, List.count_nil]
    omega
  · intro label
    simp only [branchCode_jumps, labelsAfter_two, jumps.mem_iff, List.mem_append, List.mem_cons]
    tauto
  · simp [branchCode, testClosed.running, running]

/-- The two labels of a loop are taken before those of its parts. -/
theorem loopCode_closed (testClosed : Closed test.code (low + 2) middle)
    (bodyClosed : Closed body middle high) (ordered : low + 2 ≤ middle ∧ middle ≤ high) :
    Closed (loopCode test body ⟨low + 1⟩ ⟨low + 2⟩) low high := by
  apply closed_join low 2 testClosed bodyClosed _ _ _ ordered (Or.inl (Nat.le_refl _))
    ⟨Nat.le_add_right _ 2, Nat.le_refl _, Nat.le_refl _, Nat.le_trans ordered.1 ordered.2⟩
  · intro label
    simp only [loopCode_marks, labelsAfter_two, List.count_append, List.count_cons, List.count_nil]
    omega
  · intro label
    simp only [loopCode_jumps, labelsAfter_two, List.mem_append, List.mem_cons]
    tauto
  · simp [loopCode, testClosed.running, bodyClosed.running]

end Layouts

section Parts
variable {scope : Scope} {slot : Option Name} {before after : Supply} {result : Evaluated}

/-- A conversion is closed. -/
theorem conversion_closed (low high : Nat) (source target : Scalar) (place : Name)
    (value : Value) : Closed [conversion source target place value] low high := by
  cases source <;> cases target <;> exact closed_single low high rfl rfl (by simp [conversion])

/-- Code for expressions has no labels of its own. -/
theorem lowerExpr_closed {value : Expr}
    (lowered : lowerExpr scope slot value before = .ok result after) :
    Closed result.code before.labels after.labels := by
  induction value generalizing slot before after result with
  | literal value =>
      obtain ⟨rfl, rfl⟩ := lowerExpr_literal.mp lowered
      exact closed_nil _ _
  | identifier ident =>
      obtain ⟨scalar, _, rfl, rfl⟩ := lowerExpr_identifier.mp lowered
      exact closed_nil _ _
  | binary op left right leftClosed rightClosed =>
      obtain ⟨leftResult, middle, rightResult, last, target, lowerLeft, lowerRight, chosen, rfl⟩ :=
        lowerExpr_binary.mp lowered
      have first := ((lowerExpr_grows scope none left).ok lowerLeft).2
      have second := ((lowerExpr_grows scope none right).ok lowerRight).2
      have third := ((destination_grows scope slot).ok chosen).2
      apply closed_append (closed_append (leftClosed lowerLeft) (rightClosed lowerRight)
        ⟨first, second⟩) _ ⟨Nat.le_trans first second, third⟩
      exact closed_single _ _ rfl rfl (by simp)
  | cast target operand operandClosed =>
      obtain ⟨operandResult, last, place, lowerOperand, chosen, rfl⟩ := lowerExpr_cast.mp lowered
      have first := ((lowerExpr_grows scope none operand).ok lowerOperand).2
      have second := ((destination_grows scope slot).ok chosen).2
      exact closed_append (operandClosed lowerOperand) (conversion_closed _ _ _ _ _ _)
        ⟨first, second⟩

/-- Code for a relation is closed. -/
theorem lowerRelation_closed {scalar : Scalar} {op : RelOp} {left right : Value}
    (lowered : lowerRelation scope scalar op left right before = .ok result after) :
    Closed result.code before.labels after.labels := by
  cases op with
  | equal | notEqual | less | greater =>
      cases lowered
      exact closed_single _ _ rfl rfl (by simp)
  | lessEqual | greaterEqual =>
      cases lowered
      have order := Nat.le_refl before.labels
      exact orCode_closed _ (closed_single _ _ rfl rfl (by simp)) (closed_single _ _ rfl rfl (by simp))
        ⟨order, order⟩

/-- Code for conditions keeps its jumps to itself. -/
theorem lowerCondition_closed {test : Condition}
    (lowered : lowerCondition scope test before = .ok result after) :
    Closed result.code before.labels after.labels := by
  induction test generalizing before after result with
  | or left right leftClosed rightClosed =>
      obtain ⟨leftResult, middle, rightResult, last, lowerLeft, lowerRight, joined⟩ :=
        lowerCondition_or.mp lowered
      have first := ((lowerCondition_grows scope left).ok lowerLeft).2
      have second := ((lowerCondition_grows scope right).ok lowerRight).2
      rw [lowerOr_eq] at joined
      cases joined
      exact orCode_closed _ (leftClosed lowerLeft) (rightClosed lowerRight) ⟨first, second⟩
  | and left right leftClosed rightClosed =>
      obtain ⟨leftResult, middle, rightResult, last, lowerLeft, lowerRight, joined⟩ :=
        lowerCondition_and.mp lowered
      have first := ((lowerCondition_grows scope left).ok lowerLeft).2
      have second := ((lowerCondition_grows scope right).ok lowerRight).2
      rw [lowerAnd_eq] at joined
      cases joined
      exact andCode_closed _ (leftClosed lowerLeft) (rightClosed lowerRight) ⟨first, second⟩
  | not operand operandClosed =>
      obtain ⟨operandResult, last, lowerOperand, rfl, rfl⟩ := lowerCondition_not.mp lowered
      have first := ((lowerCondition_grows scope operand).ok lowerOperand).2
      exact closed_append (operandClosed lowerOperand) (closed_single _ _ rfl rfl (by simp))
        ⟨first, Nat.le_refl _⟩
  | relation op left right =>
      obtain ⟨leftResult, middle, rightResult, last, compared, lowerLeft, lowerRight, related, rfl⟩ :=
        lowerCondition_relation.mp lowered
      have first := ((lowerExpr_grows scope none left).ok lowerLeft).2
      have second := ((lowerExpr_grows scope none right).ok lowerRight).2
      have third := ((lowerRelation_grows scope _ op _ _).ok related).2
      exact closed_append (closed_append (lowerExpr_closed lowerLeft) (lowerExpr_closed lowerRight)
        ⟨first, second⟩) (lowerRelation_closed related) ⟨Nat.le_trans first second, third⟩

/-- A copy to the target of an assignment is closed. -/
theorem copyCode_closed (low high : Nat) (scalar : Scalar) (place : Name) (result : Value)
    (value : Expr) : Closed (copyCode scalar place result value) low high := by
  cases value with
  | literal _ | identifier _ => exact closed_single low high rfl rfl (by simp)
  | binary _ _ _ | cast _ _ => exact closed_nil low high

end Parts

/-- Everything that statements emit keeps its jumps to itself. -/
theorem Emits.closed {scope : Scope} {before after : Supply} {code : Listing}
    (emitted : Emits scope before code after) : Closed code before.labels after.labels := by
  induction emitted with
  | nothing grown => exact closed_nil _ _
  | assign lowered =>
      obtain ⟨scalar, result, _, lowerValue, rfl⟩ := lowerAssign_ok.mp lowered
      have growth := ((lowerExpr_grows scope _ _).ok lowerValue).2
      exact closed_append (lowerExpr_closed lowerValue) (copyCode_closed _ _ _ _ _ _)
        ⟨growth, Nat.le_refl _⟩
  | input lowered =>
      obtain ⟨scalar, _, rfl, rfl⟩ := lowerInput_ok.mp lowered
      exact closed_single _ _ rfl rfl (by simp)
  | output lowered =>
      obtain ⟨result, lowerValue, rfl⟩ := lowerOutput_ok.mp lowered
      have growth := ((lowerExpr_grows scope none _).ok lowerValue).2
      exact closed_append (lowerExpr_closed lowerValue) (closed_single _ _ rfl rfl (by simp))
        ⟨growth, Nat.le_refl _⟩
  | branch lowered first second firstClosed secondClosed =>
      have start := ((lowerCondition_grows scope _).ok lowered).2
      have sides := closed_append firstClosed secondClosed ⟨first.grown.2, second.grown.2⟩
      exact branchCode_closed (lowerCondition_closed lowered) sides (List.Perm.refl _)
        ⟨start, Nat.le_trans first.grown.2 second.grown.2⟩
  | exchanged lowered first second firstClosed secondClosed =>
      have start := ((lowerCondition_grows scope _).ok lowered).2
      have sides := closed_append firstClosed secondClosed ⟨first.grown.2, second.grown.2⟩
      exact branchCode_closed (lowerCondition_closed lowered) sides List.perm_append_comm
        ⟨start, Nat.le_trans first.grown.2 second.grown.2⟩
  | loop lowered inner innerClosed =>
      have start := ((lowerCondition_grows scope _).ok lowered).2
      exact loopCode_closed (lowerCondition_closed lowered) innerClosed ⟨start, inner.grown.2⟩
  | append start rest startClosed restClosed =>
      exact closed_append startClosed restClosed ⟨start.grown.2, rest.grown.2⟩

/-- A complete program marks what its code marks. -/
theorem program_marks (generated : Generated) : generated.program.marks = generated.code.marks := by
  simp [Generated.program, Listing.complete, Quad.marked?]

/-- Every program marks each label once. -/
theorem program_marks_nodup (scope : Scope) (body : List Statement) :
    (generate scope body).program.marks.Nodup := by
  obtain ⟨after, emitted⟩ := generate_emits scope body
  rw [program_marks]
  exact emitted.closed.once

/-- In every program each label is marked at most once, the labels that are jumped to are those
that are marked, and the only halt is the last instruction. -/
theorem generate_controlFlow (scope : Scope) (body : List Statement) :
    let program := (generate scope body).program
    program.marks.Nodup ∧
      (∀ label ∈ program.jumps, label ∈ program.marks) ∧
      (∀ label ∈ program.marks, label ∈ program.jumps) ∧
      ∃ code, program = code ++ [.halt] ∧ Quad.halt ∉ code := by
  obtain ⟨after, emitted⟩ := generate_emits scope body
  have closed := emitted.closed
  have jumps : (generate scope body).program.jumps = (generate scope body).code.jumps := by
    simp [Generated.program, Listing.complete, Quad.jump?]
  dsimp only
  rw [program_marks, jumps]
  refine ⟨closed.once, ?_, ?_, (generate scope body).code, rfl, closed.running⟩
  · exact fun label => (closed.matched label).mp
  · exact fun label => (closed.matched label).mpr

end Cpl
