import Cpl.Proofs.Lowering.Complete
import Cpl.Proofs.Lowering.Labels
import Cpl.Proofs.Lowering.Parts
import Cpl.Proofs.Program.Constructs
import Cpl.Proofs.Quad.Direction

namespace Cpl

section Parts
variable {scope : Scope} {before after : Supply} {left right result : Evaluated} {place : Name}
  {next success failure exit : Label}

/-- A conversion does not jump. -/
theorem conversion_straight (source target : Scalar) (place : Name) (value : Value) :
    (conversion source target place value).jump? = none := by
  cases source <;> cases target <;> rfl

/-- Code for expressions does not jump at all. -/
theorem Expr.Lowers.ahead {value : Expr} (lowers : Expr.Lowers scope value before result after) :
    result.code.Ahead [] := by
  induction lowers with
  | literal | identifier _ => trivial
  | binary _ _ left right => exact (left.append right).append (Listing.ahead_single rfl)
  | cast _ operand => exact operand.append (Listing.ahead_single (conversion_straight _ _ _ _))

/-- Code for an assigned expression does not jump. -/
theorem Expr.LowersTo.ahead {target : Ident} {value : Expr} {code : Listing}
    (lowers : Expr.LowersTo scope target value before code after) : code.Ahead [] := by
  cases lowers with
  | literal | identifier => exact Listing.ahead_single rfl
  | binary onLeft onRight =>
      exact (onLeft.ahead.append onRight.ahead).append (Listing.ahead_single rfl)
  | cast onOperand =>
      exact onOperand.ahead.append (Listing.ahead_single (conversion_straight _ _ _ _))

/-- A disjunction jumps ahead only. -/
theorem orCode_ahead (onLeft : left.code.Ahead []) (onRight : right.code.Ahead []) :
    (orCode left right place next success failure exit).Ahead [] := by
  simp [orCode, truthTail, Quad.jump?, Quad.marked?, onLeft.mono, onRight.mono]

/-- A conjunction jumps ahead only. -/
theorem andCode_ahead (onLeft : left.code.Ahead []) (onRight : right.code.Ahead []) :
    (andCode left right place failure exit).Ahead [] := by
  simp [andCode, truthTail, Quad.jump?, Quad.marked?, onLeft.mono, onRight.mono]

/-- A relation jumps ahead only. -/
theorem lowerRelation_ahead {scalar : Scalar} {op : RelOp} {left right : Value}
    (lowered : lowerRelation scope scalar op left right before = .ok result after) :
    result.code.Ahead [] := by
  cases op with
  | equal | notEqual | less | greater =>
      cases lowered
      exact Listing.ahead_single rfl
  | lessEqual | greaterEqual =>
      cases lowered
      exact orCode_ahead (Listing.ahead_single rfl) (Listing.ahead_single rfl)

/-- Conditions skip what need not be evaluated, but never go back. -/
theorem Condition.Lowers.ahead {test : Condition}
    (lowers : Condition.Lowers scope test before result after) : result.code.Ahead [] := by
  induction lowers with
  | or _ _ left right => exact orCode_ahead left right
  | and _ _ left right => exact andCode_ahead left right
  | not _ operand => exact operand.append (Listing.ahead_single rfl)
  | relation onLeft onRight related =>
      exact (onLeft.ahead.append onRight.ahead).append (lowerRelation_ahead related)

/-- There is no loop in an expression. -/
theorem Expr.constructs_no_loop (value : Expr) (assigned : Bool) :
    (value.constructs scope assigned).count .loop = 0 := by
  induction value generalizing assigned with
  | literal _ | identifier _ => cases assigned <;> rfl
  | binary op left right leftNone rightNone => simp [Expr.constructs, leftNone, rightNone]
  | cast target operand operandNone => simp [Expr.constructs, operandNone]

/-- There is no loop in a condition. -/
theorem Condition.constructs_no_loop (test : Condition) :
    (test.constructs scope).count .loop = 0 := by
  induction test with
  | or left right leftNone rightNone | and left right leftNone rightNone =>
      simp [Condition.constructs, leftNone, rightNone]
  | not operand operandNone => simp [Condition.constructs, operandNone]
  | relation op left right =>
      cases op <;> simp [Condition.constructs, RelOp.construct, Expr.constructs_no_loop]

/-- The loops of a branch are those of its sides. -/
theorem Statement.branch_loops (test : Condition) (yes no : Statement) :
    ((Statement.branch test yes no).constructs scope).count .loop =
      (yes.constructs scope).count .loop + (no.constructs scope).count .loop := by
  rw [Statement.constructs, List.count_cons_of_ne (by decide), List.count_append, List.count_append,
    Condition.constructs_no_loop, Nat.zero_add]

end Parts

/-- Code goes back only to entries that it marks, as many as it has loops. -/
def Returns (code : Listing) (loops : Nat) : Prop :=
  ∃ entries, Onward [] code [] entries ∧ entries.length = loops ∧
    ∀ label, entries.count label ≤ code.marks.count label

section Layouts
variable {test : Evaluated} {first second body : Listing} {loops more : Nat}
  {failure entry exit : Label}

/-- Code that jumps ahead only has no loops. -/
theorem Listing.Ahead.returns {code : Listing} (ahead : code.Ahead []) : Returns code 0 :=
  ⟨[], onward_of_ahead ahead, rfl, by simp⟩

/-- Two pieces of code have the loops of both. -/
theorem returns_append (start : Returns first loops) (rest : Returns second more) :
    Returns (first ++ second) (loops + more) := by
  obtain ⟨entries, onFirst, length, counts⟩ := start
  obtain ⟨others, onSecond, moreLength, moreCounts⟩ := rest
  refine ⟨entries ++ others, ?_, by simp [length, moreLength], fun label => ?_⟩
  · exact onward_append onFirst.anywhere onSecond.anywhere
  · have here := counts label
    have there := moreCounts label
    rw [List.count_append, Listing.marks_append, List.count_append]
    omega

/-- Code for a branch has the loops of its sides. -/
theorem branchCode_returns (onTest : test.code.Ahead []) (onFirst : Returns first loops)
    (onSecond : Returns second more) :
    Returns (branchCode test first second failure exit) (loops + more) := by
  obtain ⟨entries, firstOnward, length, counts⟩ := onFirst
  obtain ⟨others, secondOnward, moreLength, moreCounts⟩ := onSecond
  refine ⟨entries ++ others, ?_, by simp [length, moreLength], fun label => ?_⟩
  · simp only [branchCode, List.append_assoc]
    refine onward_front (onTest.mono (List.nil_subset _)) ?_
    refine onward_front (by simp [Quad.jump?, Quad.marked?]) ?_
    refine onward_append firstOnward.anywhere ?_
    refine onward_front (by simp [Quad.jump?, Quad.marked?]) ?_
    rw [← List.append_nil others]
    exact onward_append secondOnward.anywhere (onward_of_ahead (Listing.ahead_single rfl))
  · have here := counts label
    have there := moreCounts label
    simp only [branchCode_marks, List.count_append, List.count_cons]
    omega

/-- Code for a loop has one more loop than its body. -/
theorem loopCode_returns (onTest : test.code.Ahead []) (onBody : Returns body loops) :
    Returns (loopCode test body entry exit) (loops + 1) := by
  obtain ⟨entries, bodyOnward, length, counts⟩ := onBody
  refine ⟨entries ++ [entry], ?_, by simp [length], fun label => ?_⟩
  · simp only [loopCode, List.append_assoc]
    refine onward_front (Listing.ahead_single rfl) ?_
    refine onward_front (onTest.mono (List.nil_subset _)) ?_
    refine onward_front (by simp [Quad.jump?, Quad.marked?]) ?_
    refine onward_append bodyOnward.anywhere ?_
    exact .back (by simp [Quad.marked?]) (onward_of_ahead (Listing.ahead_single rfl))
  · have here := counts label
    simp only [loopCode_marks, List.count_append, List.count_cons, List.count_nil]
    omega

end Layouts

/-- Code that is lowered as a whole goes back once for each loop. -/
theorem Lowers.returns {scope : Scope} {body : List Statement} {before after : Supply}
    {code : Listing} (lowers : Lowers scope body before code after) :
    Returns code ((Statement.constructsOf scope body).count .loop) := by
  induction lowers with
  | nil => exact Listing.ahead_nil.returns
  | cons _ _ start below =>
      rw [Statement.constructsOf_singleton] at start
      rw [Statement.constructsOf, List.count_append]
      exact returns_append start below
  | assign lowered =>
      rw [Statement.constructsOf_singleton, Statement.constructs, Expr.constructs_no_loop]
      exact (lowerAssign_lowers lowered).ahead.returns
  | input lowered =>
      obtain ⟨scalar, _, rfl, rfl⟩ := lowerInput_ok.mp lowered
      exact (Listing.ahead_single rfl).returns
  | output lowered =>
      obtain ⟨result, lowerValue, rfl⟩ := lowerOutput_ok.mp lowered
      rw [Statement.constructsOf_singleton, Statement.constructs, List.count_cons,
        Expr.constructs_no_loop]
      exact ((lowerExpr_iff.mpr lowerValue).ahead.append (Listing.ahead_single rfl)).returns
  | branch _ lowered _ _ onYes onNo =>
      rw [Statement.constructsOf_singleton] at onYes onNo ⊢
      rw [Statement.branch_loops]
      exact branchCode_returns (lowerCondition_lowers lowered).ahead onYes onNo
  | exchanged lowered _ _ onYes onNo =>
      rw [Statement.constructsOf_singleton] at onYes onNo ⊢
      rw [Statement.branch_loops, Nat.add_comm (List.count _ _)]
      exact branchCode_returns (lowerCondition_lowers lowered).ahead onNo onYes
  | loop lowered _ inside =>
      rw [Statement.constructsOf_singleton] at inside ⊢
      rw [Statement.constructs, List.count_cons_self, List.count_append,
        Condition.constructs_no_loop, Nat.zero_add]
      exact loopCode_returns (lowerCondition_lowers lowered).ahead inside
  | block _ inside =>
      rw [Statement.constructsOf_singleton]
      exact inside

/-- Replaces a number that is not between one and five. -/
def choice : Statement :=
  let x : Ident := ⟨"x", .point 0⟩
  .branch (.or (.relation .less (.identifier x) (.literal (.integer 1)))
      (.relation .greater (.identifier x) (.literal (.integer 5))))
    (.assign x (.literal (.integer 1))) (.output (.identifier x))

end Cpl
