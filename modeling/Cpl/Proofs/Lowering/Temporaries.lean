import Cpl.Proofs.Lowering.Labels
import Cpl.Proofs.Quad.Assigned

namespace Cpl

/-- What is known for labels up to a bound, and for those above it. -/
def splice (bound : Nat) (below above : Label → Set Nat) (label : Label) : Set Nat :=
  if label.index ≤ bound then below label else above label

section Splice
variable {code : Listing} {low bound high : Nat} {below above : Label → Set Nat}
  {assigned final : Set Nat}

/-- Closed code mentions only the labels that it takes. -/
theorem Closed.mentioned (closed : Closed code low high) {label : Label}
    (member : label ∈ code.jumps ∨ label ∈ code.marks) : low < label.index ∧ label.index ≤ high := by
  rcases member with away | marked
  · exact closed.within label ((closed.matched label).mp away)
  · exact closed.within label marked

/-- Code with labels up to the bound needs only what is known below. -/
theorem assigns_splice_below (closed : Closed code low bound)
    (tracked : Assigns below assigned code final) :
    Assigns (splice bound below above) assigned code final := by
  apply assigns_congr tracked
  intro label member
  exact if_pos (closed.mentioned member).2

/-- Code with labels past the bound needs only what is known above. -/
theorem assigns_splice_above (closed : Closed code low high) (past : bound ≤ low)
    (tracked : Assigns above assigned code final) :
    Assigns (splice bound below above) assigned code final := by
  apply assigns_congr tracked
  intro label member
  exact if_neg (Nat.not_le.mpr (Nat.lt_of_le_of_lt past (closed.mentioned member).1))

/-- Labels above the bound are known from the second part. -/
theorem splice_above {label : Label} (past : bound < label.index) :
    splice bound below above label = above label := if_neg (Nat.not_le.mpr past)

/-- Labels up to the bound are known from the first part. -/
theorem splice_below {label : Label} (within : label.index ≤ bound) :
    splice bound below above label = below label := if_pos within

end Splice

/-- Code that reads only what holds a value, and leaves its own value in place. -/
def Delivers (known : Label → Set Nat) (assigned : Set Nat) (result : Evaluated) : Prop :=
  ∃ final, Assigns known assigned result.code final ∧ assigned ⊆ final ∧ result.value.temps ⊆ final

section Parts
variable {scope : Scope} {slot : Option Name} {before after : Supply} {result : Evaluated}
  {known : Label → Set Nat} {assigned : Set Nat}

/-- An instruction without labels adds its target to what other code leaves. -/
theorem assigns_last {code : Listing} {quad : Quad} {middle : Set Nat} {target : Name}
    (tracked : Assigns known assigned code middle)
    (ready : ∀ value ∈ quad.operands, value.temps ⊆ middle) (straight : quad.jump? = none)
    (unmarked : quad.marked? = none) (written : quad.target? = some target) :
    Assigns known assigned (code ++ [quad]) (middle ∪ (Value.name target).temps) := by
  have running : quad ≠ .halt := by
    intro same
    rw [same] at written
    simp [Quad.target?] at written
  have writes : quad.writes = (Value.name target).temps := by
    simp [Quad.writes, Value.temps, written]
  rw [← writes]
  exact assigns_append tracked (assigns_plain ready straight unmarked running)

/-- Code for an expression leaves its value in place, whatever is known for labels. -/
theorem lowerExpr_assigns {value : Expr} (assigned : Set Nat)
    (lowered : lowerExpr scope slot value before = .ok result after) :
    ∃ final, (∀ known, Assigns known assigned result.code final) ∧ assigned ⊆ final ∧
      result.value.temps ⊆ final := by
  induction value generalizing slot before after result assigned with
  | literal value =>
      obtain ⟨rfl, rfl⟩ := lowerExpr_literal.mp lowered
      exact ⟨assigned, fun _ => Set.Subset.refl _, Set.Subset.refl _, by simp [Value.temps]⟩
  | identifier ident =>
      obtain ⟨scalar, _, rfl, rfl⟩ := lowerExpr_identifier.mp lowered
      exact ⟨assigned, fun _ => Set.Subset.refl _, Set.Subset.refl _, by simp [Value.temps]⟩
  | binary op left right leftAssigns rightAssigns =>
      obtain ⟨leftResult, middle, rightResult, last, target, lowerLeft, lowerRight, chosen, rfl⟩ :=
        lowerExpr_binary.mp lowered
      obtain ⟨afterLeft, trackLeft, growLeft, leftReady⟩ := leftAssigns assigned lowerLeft
      obtain ⟨afterRight, trackRight, growRight, rightReady⟩ := rightAssigns afterLeft lowerRight
      refine ⟨afterRight ∪ (Value.name target).temps, ?_, ?_, Set.subset_union_right⟩
      · intro known
        apply assigns_last (assigns_append (trackLeft known) (trackRight known)) _ rfl rfl rfl
        simpa [Quad.operands] using ⟨Set.Subset.trans leftReady growRight, rightReady⟩
      · exact Set.Subset.trans growLeft (Set.Subset.trans growRight Set.subset_union_left)
  | cast target operand operandAssigns =>
      obtain ⟨operandResult, last, place, lowerOperand, chosen, rfl⟩ := lowerExpr_cast.mp lowered
      obtain ⟨middle, tracked, grown, ready⟩ := operandAssigns assigned lowerOperand
      refine ⟨middle ∪ (Value.name place).temps, ?_, ?_, Set.subset_union_right⟩
      · intro known
        apply assigns_last (tracked known)
        · cases operandResult.scalar <;> cases target <;>
            simpa [conversion, Quad.operands] using ready
        · cases operandResult.scalar <;> cases target <;> rfl
        · cases operandResult.scalar <;> cases target <;> rfl
        · cases operandResult.scalar <;> cases target <;> rfl
      · exact Set.Subset.trans grown Set.subset_union_left

/-- The result of a truth tail holds a value at its exit. -/
theorem truthTail_assigns {result : Name} {failure exit : Label}
    (entered : known failure = assigned)
    (left : known exit = assigned ∪ (Value.name result).temps) :
    Assigns known assigned (truthTail result failure exit) (known exit) := by
  have written (value : Int32) :
      Assigns known assigned [.assign .int result (flag value)] (known exit) := by
    refine ⟨reads_subset (by simp [Quad.operands, flag, Value.temps]),
      by simp [Quad.jump?, Quad.marked?], ?_⟩
    simp [Assigns, Quad.leaves, Quad.writes, Quad.target?, left, Value.temps]
  change Assigns known assigned ([.assign .int result (flag 1)] ++ (.jump exit :: .mark failure ::
    ([.assign .int result (flag 0)] ++ [.mark exit]))) _
  apply assigns_append (written 1)
  apply assigns_jump (Set.Subset.refl _)
  apply assigns_mark (Set.subset_univ _)
  rw [entered]
  apply assigns_append (written 0)
  exact assigns_mark (Set.Subset.refl _) (Set.Subset.refl _)

section Sides
variable {left right : Evaluated} {low middle high : Nat}

/-- What is known for the labels of a disjunction or a conjunction. Only at the exit, which is the
label with index `last`, the result is there. -/
def joinKnown (last : Nat) (assigned : Set Nat) (result : Name) (label : Label) : Set Nat :=
  if label.index = last then assigned ∪ (Value.name result).temps else assigned

/-- Two conditions deliver one after the other, and labels past theirs are free. -/
theorem sides_deliver (own : Set Nat → Label → Set Nat)
    (leftClosed : Closed left.code low middle) (rightClosed : Closed right.code middle high)
    (ordered : middle ≤ high)
    (leftDelivers : ∃ known, Delivers known assigned left)
    (rightDelivers : ∀ larger, assigned ⊆ larger → ∃ known, Delivers known larger right) :
    ∃ known afterLeft afterRight,
      Assigns known assigned left.code afterLeft ∧ assigned ⊆ afterLeft ∧
      left.value.temps ⊆ afterLeft ∧
      Assigns known afterLeft right.code afterRight ∧ afterLeft ⊆ afterRight ∧
      right.value.temps ⊆ afterRight ∧
      ∀ label : Label, high < label.index → known label = own afterLeft label := by
  obtain ⟨leftKnown, afterLeft, trackLeft, growLeft, leftReady⟩ := leftDelivers
  obtain ⟨rightKnown, afterRight, trackRight, growRight, rightReady⟩ :=
    rightDelivers afterLeft growLeft
  refine ⟨splice middle leftKnown (splice high rightKnown (own afterLeft)), afterLeft, afterRight,
    assigns_splice_below leftClosed trackLeft, growLeft, leftReady,
    assigns_splice_above rightClosed (Nat.le_refl _) (assigns_splice_below rightClosed trackRight), growRight,
    rightReady, ?_⟩
  intro label past
  rw [splice_above (Nat.lt_of_le_of_lt ordered past), splice_above past]

/-- A disjunction of sides that deliver their values delivers its own. -/
theorem orCode_delivers (result : Name) (leftClosed : Closed left.code low middle)
    (rightClosed : Closed right.code middle high) (ordered : middle ≤ high)
    (leftDelivers : ∃ known, Delivers known assigned left)
    (rightDelivers : ∀ larger, assigned ⊆ larger → ∃ known, Delivers known larger right) :
    ∃ known, Delivers known assigned
      ⟨orCode left right result ⟨high + 1⟩ ⟨high + 2⟩ ⟨high + 3⟩ ⟨high + 4⟩, .int, .name result⟩ := by
  obtain ⟨known, afterLeft, afterRight, first, growLeft, leftReady, second, growRight, rightReady,
    own⟩ := sides_deliver (fun reached => joinKnown (high + 4) reached result) leftClosed rightClosed
      ordered leftDelivers rightDelivers
  have next : known ⟨high + 1⟩ = afterLeft := by simp [own, joinKnown]
  have success : known ⟨high + 2⟩ = afterLeft := by simp [own, joinKnown]
  have failure : known ⟨high + 3⟩ = afterLeft := by simp [own, joinKnown]
  have exit : known ⟨high + 4⟩ = afterLeft ∪ (Value.name result).temps := by simp [own, joinKnown]
  have chosen : Assigns known afterLeft
      [.jumpIfZero ⟨high + 1⟩ left.value, .jump ⟨high + 2⟩, .mark ⟨high + 1⟩] afterLeft := by
    apply assigns_jumpIfZero leftReady next.le
    apply assigns_jump success.le
    exact assigns_mark (Set.subset_univ _) next.ge
  have decided : Assigns known afterRight
      [.jumpIfZero ⟨high + 3⟩ right.value, .mark ⟨high + 2⟩] afterLeft := by
    apply assigns_jumpIfZero rightReady (failure ▸ growRight)
    exact assigns_mark (success ▸ growRight) success.ge
  refine ⟨known, known ⟨high + 4⟩, ?_, ?_, ?_⟩
  · exact assigns_append (assigns_append (assigns_append (assigns_append first chosen) second)
      decided) (truthTail_assigns failure exit)
  · rw [exit]
    exact Set.Subset.trans growLeft Set.subset_union_left
  · rw [exit]
    exact Set.subset_union_right

/-- A conjunction of sides that deliver their values delivers its own. -/
theorem andCode_delivers (result : Name) (leftClosed : Closed left.code low middle)
    (rightClosed : Closed right.code middle high) (ordered : middle ≤ high)
    (leftDelivers : ∃ known, Delivers known assigned left)
    (rightDelivers : ∀ larger, assigned ⊆ larger → ∃ known, Delivers known larger right) :
    ∃ known, Delivers known assigned
      ⟨andCode left right result ⟨high + 1⟩ ⟨high + 2⟩, .int, .name result⟩ := by
  obtain ⟨known, afterLeft, afterRight, first, growLeft, leftReady, second, growRight, rightReady,
    own⟩ := sides_deliver (fun reached => joinKnown (high + 2) reached result) leftClosed rightClosed
      ordered leftDelivers rightDelivers
  have failure : known ⟨high + 1⟩ = afterLeft := by simp [own, joinKnown]
  have exit : known ⟨high + 2⟩ = afterLeft ∪ (Value.name result).temps := by simp [own, joinKnown]
  have chosen : Assigns known afterLeft [.jumpIfZero ⟨high + 1⟩ left.value] afterLeft :=
    assigns_jumpIfZero leftReady failure.le (Set.Subset.refl _)
  have decided : Assigns known afterRight [.jumpIfZero ⟨high + 1⟩ right.value] afterLeft :=
    assigns_jumpIfZero rightReady (failure ▸ growRight) growRight
  refine ⟨known, known ⟨high + 2⟩, ?_, ?_, ?_⟩
  · exact assigns_append (assigns_append (assigns_append (assigns_append first chosen) second)
      decided) (truthTail_assigns failure exit)
  · rw [exit]
    exact Set.Subset.trans growLeft Set.subset_union_left
  · rw [exit]
    exact Set.subset_union_right

end Sides

/-- A comparison of two values that are in place delivers. -/
theorem compare_delivers {scalar : Scalar} {op : CmpOp} {left right : Value} {target : Name}
    (leftReady : left.temps ⊆ assigned) (rightReady : right.temps ⊆ assigned) :
    Delivers known assigned ⟨[.compare scalar op target left right], .int, .name target⟩ := by
  have empty : Assigns known assigned [] assigned := Set.Subset.refl _
  refine ⟨assigned ∪ (Value.name target).temps, ?_, Set.subset_union_left, Set.subset_union_right⟩
  apply assigns_last empty _ rfl rfl rfl
  simpa [Quad.operands] using ⟨leftReady, rightReady⟩

/-- A relation of values that are in place delivers its own. -/
theorem lowerRelation_delivers {scalar : Scalar} {op : RelOp} {left right : Value}
    (leftReady : left.temps ⊆ assigned) (rightReady : right.temps ⊆ assigned)
    (lowered : lowerRelation scope scalar op left right before = .ok result after) :
    ∃ known, Delivers known assigned result := by
  cases op with
  | equal | notEqual | less | greater =>
      cases lowered
      exact ⟨fun _ => ∅, compare_delivers leftReady rightReady⟩
  | lessEqual | greaterEqual =>
      cases lowered
      have plain {op : CmpOp} {target : Name} :
          Closed [.compare scalar op target left right] before.labels before.labels :=
        closed_single _ _ rfl rfl (by simp)
      apply orCode_delivers _ plain plain (Nat.le_refl _)
      · exact ⟨fun _ => ∅, compare_delivers leftReady rightReady⟩
      · intro larger more
        exact ⟨fun _ => ∅, compare_delivers (Set.Subset.trans leftReady more)
          (Set.Subset.trans rightReady more)⟩

/-- Code for a condition leaves its truth in place. -/
theorem lowerCondition_delivers {test : Condition} (assigned : Set Nat)
    (lowered : lowerCondition scope test before = .ok result after) :
    ∃ known, Delivers known assigned result := by
  induction test generalizing before after result assigned with
  | or left right leftDelivers rightDelivers =>
      obtain ⟨leftResult, middle, rightResult, last, lowerLeft, lowerRight, joined⟩ :=
        lowerCondition_or.mp lowered
      rw [lowerOr_eq] at joined
      cases joined
      exact orCode_delivers _ (lowerCondition_closed lowerLeft) (lowerCondition_closed lowerRight)
        ((lowerCondition_grows scope right).ok lowerRight).2 (leftDelivers assigned lowerLeft)
        fun larger _ => rightDelivers larger lowerRight
  | and left right leftDelivers rightDelivers =>
      obtain ⟨leftResult, middle, rightResult, last, lowerLeft, lowerRight, joined⟩ :=
        lowerCondition_and.mp lowered
      rw [lowerAnd_eq] at joined
      cases joined
      exact andCode_delivers _ (lowerCondition_closed lowerLeft) (lowerCondition_closed lowerRight)
        ((lowerCondition_grows scope right).ok lowerRight).2 (leftDelivers assigned lowerLeft)
        fun larger _ => rightDelivers larger lowerRight
  | not operand operandDelivers =>
      obtain ⟨operandResult, last, lowerOperand, rfl, rfl⟩ := lowerCondition_not.mp lowered
      obtain ⟨known, middle, tracked, grown, ready⟩ := operandDelivers assigned lowerOperand
      refine ⟨known, middle ∪ (Value.name (.temp (scope.nextTemp last.temps))).temps, ?_,
        Set.Subset.trans grown Set.subset_union_left, Set.subset_union_right⟩
      apply assigns_last tracked _ rfl rfl rfl
      simpa [Quad.operands, flag, Value.temps] using ready
  | relation op left right =>
      obtain ⟨leftResult, middle, rightResult, last, compared, lowerLeft, lowerRight, related, rfl⟩ :=
        lowerCondition_relation.mp lowered
      obtain ⟨afterLeft, trackLeft, growLeft, leftReady⟩ := lowerExpr_assigns assigned lowerLeft
      obtain ⟨afterRight, trackRight, growRight, rightReady⟩ :=
        lowerExpr_assigns afterLeft lowerRight
      obtain ⟨known, final, tracked, grown, ready⟩ :=
        lowerRelation_delivers (Set.Subset.trans leftReady growRight) rightReady related
      refine ⟨known, final, ?_, ?_, ready⟩
      · exact assigns_append (assigns_append (trackLeft known) (trackRight known)) tracked
      · exact Set.Subset.trans growLeft (Set.Subset.trans growRight grown)

end Parts

section Layouts
variable {test : Evaluated} {first second body : Listing} {failure entry exit : Label}
  {known : Label → Set Nat}

/-- A branch reads only temporaries that hold a value, like its parts. -/
theorem branchCode_assigns (tested : Delivers known ∅ test) (firstAssigns : Assigns known ∅ first ∅)
    (secondAssigns : Assigns known ∅ second ∅) (entered : known failure = ∅)
    (left : known exit = ∅) : Assigns known ∅ (branchCode test first second failure exit) ∅ := by
  obtain ⟨reached, tracked, _, ready⟩ := tested
  have chosen : Assigns known reached [.jumpIfZero failure test.value] ∅ :=
    assigns_jumpIfZero ready (entered ▸ Set.empty_subset _) (Set.empty_subset _)
  have between : Assigns known ∅ [.jump exit, .mark failure] ∅ :=
    assigns_jump left.le (assigns_mark (Set.subset_univ _) (Set.empty_subset _))
  have done : Assigns known ∅ [.mark exit] ∅ := assigns_mark left.le (Set.empty_subset _)
  exact assigns_append (assigns_append (assigns_append (assigns_append
    (assigns_append tracked chosen) firstAssigns) between) secondAssigns) done

/-- A loop reads only temporaries that hold a value, like its parts. -/
theorem loopCode_assigns (tested : Delivers known ∅ test) (bodyAssigns : Assigns known ∅ body ∅)
    (entered : known entry = ∅) (left : known exit = ∅) :
    Assigns known ∅ (loopCode test body entry exit) ∅ := by
  obtain ⟨reached, tracked, _, ready⟩ := tested
  have start : Assigns known ∅ [.mark entry] ∅ := assigns_mark entered.le (Set.empty_subset _)
  have chosen : Assigns known reached [.jumpIfZero exit test.value] ∅ :=
    assigns_jumpIfZero ready (left ▸ Set.empty_subset _) (Set.empty_subset _)
  have done : Assigns known ∅ [.jump entry, .mark exit] ∅ :=
    assigns_jump entered.le (assigns_mark (Set.subset_univ _) (Set.empty_subset _))
  exact assigns_append (assigns_append (assigns_append (assigns_append start tracked) chosen)
    bodyAssigns) done

/-- A condition and the two sides of its branch are tracked together. -/
theorem branch_known {scope : Scope} {condition : Condition} {before afterTest afterYes after : Supply}
    {yes no : Listing} (lowered : lowerCondition scope condition before = .ok test afterTest)
    (yesEmits : Emits scope afterTest yes afterYes) (noEmits : Emits scope afterYes no after)
    (yesAssigns : ∃ known, Assigns known ∅ yes ∅) (noAssigns : ∃ known, Assigns known ∅ no ∅) :
    ∃ known, Delivers known ∅ test ∧ Assigns known ∅ yes ∅ ∧ Assigns known ∅ no ∅ ∧
      ∀ label : Label, after.labels < label.index → known label = ∅ := by
  obtain ⟨testKnown, reached, trackTest, grown, ready⟩ := lowerCondition_delivers ∅ lowered
  obtain ⟨yesKnown, trackYes⟩ := yesAssigns
  obtain ⟨noKnown, trackNo⟩ := noAssigns
  have yesOrdered := yesEmits.grown.2
  have noOrdered := noEmits.grown.2
  refine ⟨splice afterTest.labels testKnown (splice afterYes.labels yesKnown
    (splice after.labels noKnown fun _ => ∅)), ?_, ?_, ?_, ?_⟩
  · exact ⟨reached, assigns_splice_below (lowerCondition_closed lowered) trackTest, grown, ready⟩
  · exact assigns_splice_above yesEmits.closed (Nat.le_refl _) (assigns_splice_below yesEmits.closed trackYes)
  · exact assigns_splice_above noEmits.closed yesOrdered (assigns_splice_above noEmits.closed
      (Nat.le_refl _) (assigns_splice_below noEmits.closed trackNo))
  · intro label past
    rw [splice_above (by omega), splice_above (by omega), splice_above past]

end Layouts

/-- What statements emit needs no temporary from before, as each round of a loop writes those of
the test again. -/
theorem Emits.assigns {scope : Scope} {before after : Supply} {code : Listing}
    (emitted : Emits scope before code after) : ∃ known, Assigns known ∅ code ∅ := by
  induction emitted with
  | nothing grown => exact ⟨fun _ => ∅, Set.Subset.refl _⟩
  | @assign target value before after code lowered =>
      obtain ⟨scalar, result, _, lowerValue, rfl⟩ := lowerAssign_ok.mp lowered
      obtain ⟨final, tracked, _, ready⟩ := lowerExpr_assigns ∅ lowerValue
      refine ⟨fun _ => ∅, assigns_append (tracked _) ?_⟩
      cases value with
      | literal _ | identifier _ =>
          refine ⟨reads_subset (by simpa [Quad.operands] using ready), ?_, Set.empty_subset _⟩
          simp [Quad.jump?, Quad.marked?]
      | binary _ _ _ | cast _ _ => exact Set.empty_subset _
  | input lowered =>
      obtain ⟨scalar, _, rfl, rfl⟩ := lowerInput_ok.mp lowered
      refine ⟨fun _ => ∅, reads_subset (by simp [Quad.operands]), ?_, Set.empty_subset _⟩
      simp [Quad.jump?, Quad.marked?]
  | output lowered =>
      obtain ⟨result, lowerValue, rfl⟩ := lowerOutput_ok.mp lowered
      obtain ⟨final, tracked, _, ready⟩ := lowerExpr_assigns ∅ lowerValue
      refine ⟨fun _ => ∅, assigns_append (tracked _) ?_⟩
      refine ⟨reads_subset (by simpa [Quad.operands] using ready), ?_, Set.empty_subset _⟩
      simp [Quad.jump?, Quad.marked?]
  | branch lowered first second firstAssigns secondAssigns =>
      obtain ⟨known, tested, trackFirst, trackSecond, own⟩ :=
        branch_known lowered first second firstAssigns secondAssigns
      exact ⟨known, branchCode_assigns tested trackFirst trackSecond (own _ (Nat.lt_add_one _))
        (own _ (by simp))⟩
  | exchanged lowered first second firstAssigns secondAssigns =>
      obtain ⟨known, tested, trackFirst, trackSecond, own⟩ :=
        branch_known lowered first second firstAssigns secondAssigns
      exact ⟨known, branchCode_assigns tested trackSecond trackFirst (own _ (Nat.lt_add_one _))
        (own _ (by simp))⟩
  | @loop test tested before afterTest after body lowered inner innerAssigns =>
      obtain ⟨testKnown, reached, trackTest, grown, ready⟩ := lowerCondition_delivers ∅ lowered
      obtain ⟨bodyKnown, trackBody⟩ := innerAssigns
      have testClosed := lowerCondition_closed lowered
      refine ⟨splice (before.labels + 2) (fun _ => ∅) (splice afterTest.labels testKnown bodyKnown),
        loopCode_assigns ?_ ?_ (splice_below (by simp)) (splice_below (by simp))⟩
      · exact ⟨reached, assigns_splice_above testClosed (Nat.le_refl _)
          (assigns_splice_below testClosed trackTest), grown, ready⟩
      · exact assigns_splice_above inner.closed ((lowerCondition_grows scope test).ok lowered).2
          (assigns_splice_above inner.closed (Nat.le_refl _) trackBody)
  | append start rest startAssigns restAssigns =>
      obtain ⟨startKnown, trackStart⟩ := startAssigns
      obtain ⟨restKnown, trackRest⟩ := restAssigns
      exact ⟨splice _ startKnown restKnown, assigns_append
        (assigns_splice_below start.closed trackStart) (assigns_splice_above rest.closed
          (Nat.le_refl _) trackRest)⟩

/-- Whatever way a walk through a program takes, it meets only temporaries that it has written. -/
theorem generate_tempsWritten (scope : Scope) (body : List Statement) {past ahead : Listing}
    {quad : Quad} {index : Nat} (walk : Walk (generate scope body).program past (quad :: ahead))
    (read : Value.name (.temp index) ∈ quad.operands) :
    ∃ earlier ∈ past, earlier.target? = some (.temp index) := by
  obtain ⟨after, emitted⟩ := generate_emits scope body
  obtain ⟨known, tracked⟩ := emitted.assigns
  have ended : Assigns known ∅ [.halt] ∅ :=
    ⟨reads_subset (by simp [Quad.operands]), by simp [Quad.jump?, Quad.marked?], Set.empty_subset _⟩
  obtain ⟨reached, written, reads, _⟩ := walk_assigned (assigns_append tracked ended) walk
  exact written index (reads read)

/-- A loop that adds one to a variable as long as it is less than one. -/
def countingLoop : Statement :=
  .loop (.relation .less (.identifier ⟨"x", .point 0⟩) (.literal (.integer 1)))
    (.assign ⟨"x", .point 0⟩ (.binary .add (.identifier ⟨"x", .point 0⟩) (.literal (.integer 1))))

/-- The second time round, the test reads the temporary that the comparison wrote. -/
theorem countingLoop_tempsWritten :
    let program := (generate ⟨[("x", .int)]⟩ [countingLoop]).program
    let past := program.take 4 ++ [.jump ⟨1⟩] ++ program.take 2
    Walk program past (.jumpIfZero ⟨2⟩ (.name (.temp 1)) :: program.drop 3) ∧
      ∃ earlier ∈ past, earlier.target? = some (.temp 1) := by
  intro program past
  have once : Walk program (program.take 4) (.jump ⟨1⟩ :: program.drop 5) :=
    walk_straight 4 .start (by decide)
  have place : program = [] ++ .mark ⟨1⟩ :: program.drop 1 := by decide
  have again : Walk program (program.take 4 ++ [.jump ⟨1⟩]) (.mark ⟨1⟩ :: program.drop 1) :=
    once.jump rfl place
  have walk : Walk program past (.jumpIfZero ⟨2⟩ (.name (.temp 1)) :: program.drop 3) :=
    walk_straight 2 again (by decide)
  exact ⟨walk, generate_tempsWritten _ _ walk (by simp [Quad.operands])⟩

end Cpl
