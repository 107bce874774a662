import Cpl.Proofs.Lowering.Names

namespace Cpl

namespace Expr

/-- No constant is real, and nothing is converted to a real. -/
def integral : Expr → Bool
  | literal value => value.scalar = .int
  | identifier _ => true
  | binary _ left right => left.integral && right.integral
  | cast target operand => target = .int && operand.integral

end Expr

namespace Condition

def integral : Condition → Bool
  | or left right => left.integral && right.integral
  | and left right => left.integral && right.integral
  | not operand => operand.integral
  | relation _ left right => left.integral && right.integral

/-- A condition without its outermost negation has the same constants and conversions. -/
theorem positive_integral (test : Condition) : test.positive.integral = test.integral := by
  cases test <;> rfl

end Condition

mutual

/-- A statement without real constants and without conversions to reals. -/
def Statement.integral : Statement → Bool
  | .assign _ value => value.integral
  | .input _ => true
  | .output value => value.integral
  | .branch test yes no => test.integral && (yes.integral && no.integral)
  | .loop test body => test.integral && body.integral
  | .block body => Statement.integralAll body

def Statement.integralAll : List Statement → Bool
  | [] => true
  | first :: later => first.integral && Statement.integralAll later

end

/-- All variables are integers. -/
def Scope.Integral (scope : Scope) : Prop :=
  ∀ name scalar, scope.scalar? name = some scalar → scalar = .int

/-- An instruction that has a type is one on integers, and nothing is converted. -/
def Opcode.integral : Opcode → Bool
  | assign scalar | input scalar | print scalar | arith scalar _ | compare scalar _ => scalar = .int
  | toReal | toInt => false
  | jump | jumpIfZero | mark _ | halt => true

namespace Listing

def Integral (code : Listing) : Prop := ∀ quad ∈ code, quad.opcode.integral = true

@[simp] theorem integral_nil : Integral [] := by simp [Integral]

@[simp] theorem integral_cons {quad : Quad} {rest : Listing} :
    Integral (quad :: rest) ↔ quad.opcode.integral = true ∧ Integral rest :=
  List.forall_mem_cons

@[simp] theorem integral_append {first second : Listing} :
    Integral (first ++ second) ↔ Integral first ∧ Integral second :=
  List.forall_mem_append

end Listing

/-- A result that is an integer, and code on integers for it. -/
structure Evaluated.Integral (result : Evaluated) : Prop where
  scalar : result.scalar = .int
  code : result.code.Integral

section Parts
variable {scope : Scope}

/-- Nothing may be asked of what a lowering succeeds with. -/
theorem yields_any {A : Type} (lowering : Lowering A) : Yields (fun _ => True) lowering :=
  fun _ _ _ _ => trivial

/-- All names are integers in a scope of integers. -/
theorem resolve_integral (integers : scope.Integral) (ident : Ident) :
    Yields (· = .int) (resolve scope ident) := by
  intro before scalar after done
  exact integers ident.name scalar (resolve_ok.mp done).1

/-- An integer that is converted to an integer is copied. -/
theorem conversion_integral {source target : Scalar} (fromInt : source = .int)
    (toInt : target = .int) (place : Name) (value : Value) :
    (conversion source target place value).opcode.integral = true := by
  rw [fromInt, toInt]
  rfl

/-- Expressions over integers are lowered to code over integers. -/
theorem lowerExpr_integral (integers : scope.Integral) {slot : Option Name} {value : Expr}
    (plain : value.integral = true) : Yields Evaluated.Integral (lowerExpr scope slot value) := by
  induction value generalizing slot with
  | literal value => exact yields_pure ⟨of_decide_eq_true plain, Listing.integral_nil⟩
  | identifier ident =>
      refine yields_bind (resolve_integral integers ident) fun scalar isInt => ?_
      exact yields_pure ⟨isInt, Listing.integral_nil⟩
  | binary op left right leftIntegral rightIntegral =>
      rw [Expr.integral, Bool.and_eq_true] at plain
      refine yields_bind (leftIntegral plain.1) fun left onLeft => ?_
      refine yields_bind (rightIntegral plain.2) fun right onRight => ?_
      refine yields_bind (yields_any (destination scope slot)) fun target _ => ?_
      have isInt : left.scalar.promote right.scalar = .int := by
        rw [onLeft.scalar, onRight.scalar]
        rfl
      refine yields_pure ⟨isInt, ?_⟩
      simp [onLeft.code, onRight.code, isInt, Quad.opcode, Opcode.integral]
  | cast target operand operandIntegral =>
      rw [Expr.integral, Bool.and_eq_true, decide_eq_true_eq] at plain
      refine yields_bind (operandIntegral plain.2) fun operand onOperand => ?_
      refine yields_bind (yields_any (destination scope slot)) fun place _ => ?_
      refine yields_pure ⟨plain.1, ?_⟩
      simp [onOperand.code, conversion_integral onOperand.scalar plain.1]

section Sides
variable {left right : Evaluated} (onLeft : left.code.Integral) (onRight : right.code.Integral)
include onLeft onRight

/-- Disjunctions of code over integers are code over integers. -/
theorem lowerOr_integral : Yields Evaluated.Integral (lowerOr scope left right) := by
  intro before result after done
  rw [lowerOr_eq] at done
  cases done
  refine ⟨rfl, ?_⟩
  simp [orCode, truthTail, onLeft, onRight, Quad.opcode, Opcode.integral]

/-- Conjunctions of code over integers are code over integers. -/
theorem lowerAnd_integral : Yields Evaluated.Integral (lowerAnd scope left right) := by
  intro before result after done
  rw [lowerAnd_eq] at done
  cases done
  refine ⟨rfl, ?_⟩
  simp [andCode, truthTail, onLeft, onRight, Quad.opcode, Opcode.integral]

end Sides

/-- Comparisons of integers are code over integers. -/
theorem lowerCompare_integral (op : CmpOp) (left right : Value) :
    Yields Evaluated.Integral (lowerCompare scope .int op left right) := by
  intro before result after done
  rw [lowerCompare_eq] at done
  cases done
  refine ⟨rfl, ?_⟩
  simp [Quad.opcode, Opcode.integral]

/-- Relations of integers are code over integers. -/
theorem lowerRelation_integral (op : RelOp) (left right : Value) :
    Yields Evaluated.Integral (lowerRelation scope .int op left right) := by
  have either (strict : CmpOp) :
      Yields Evaluated.Integral (lowerOrEqual scope .int strict left right) := by
    refine yields_bind (lowerCompare_integral .equal left right) fun equal onEqual => ?_
    refine yields_bind (lowerCompare_integral strict left right) fun unequal onUnequal => ?_
    exact lowerOr_integral onEqual.code onUnequal.code
  cases op with
  | equal | notEqual | less | greater => exact lowerCompare_integral _ left right
  | lessEqual | greaterEqual => exact either _

/-- Conditions over integers are lowered to code over integers. -/
theorem lowerCondition_integral (integers : scope.Integral) {test : Condition}
    (plain : test.integral = true) : Yields Evaluated.Integral (lowerCondition scope test) := by
  induction test with
  | or left right leftIntegral rightIntegral =>
      rw [Condition.integral, Bool.and_eq_true] at plain
      refine yields_bind (leftIntegral plain.1) fun left onLeft => ?_
      refine yields_bind (rightIntegral plain.2) fun right onRight => ?_
      exact lowerOr_integral onLeft.code onRight.code
  | and left right leftIntegral rightIntegral =>
      rw [Condition.integral, Bool.and_eq_true] at plain
      refine yields_bind (leftIntegral plain.1) fun left onLeft => ?_
      refine yields_bind (rightIntegral plain.2) fun right onRight => ?_
      exact lowerAnd_integral onLeft.code onRight.code
  | not operand operandIntegral =>
      refine yields_bind (operandIntegral plain) fun operand onOperand => ?_
      refine yields_bind (yields_any (freshTemp scope)) fun result _ => ?_
      refine yields_pure ⟨rfl, ?_⟩
      simp [onOperand.code, Quad.opcode, Opcode.integral]
  | relation op left right =>
      rw [Condition.integral, Bool.and_eq_true] at plain
      refine yields_bind (lowerExpr_integral integers plain.1) fun left onLeft => ?_
      refine yields_bind (lowerExpr_integral integers plain.2) fun right onRight => ?_
      rw [onLeft.scalar, onRight.scalar]
      refine yields_bind (lowerRelation_integral op left.value right.value)
        fun compared onCompared => ?_
      refine yields_pure ⟨onCompared.scalar, ?_⟩
      simp [onLeft.code, onRight.code, onCompared.code]

end Parts

section Statements
variable {scope : Scope}

/-- Code over integers is kept, or nothing is. -/
theorem keepOrDrop_integral {lowering : Lowering Listing}
    (yields : Yields Listing.Integral lowering) (before : Supply) :
    (keepOrDrop lowering before).1.code.Integral := by
  unfold keepOrDrop
  split
  · rename_i lowered
    exact yields before _ _ lowered
  · exact Listing.integral_nil

/-- Branches of code over integers are code over integers. -/
theorem branchCode_integral {test : Evaluated} {first second : Listing} (tested : test.Integral)
    (onFirst : first.Integral) (onSecond : second.Integral) (failure exit : Label) :
    (branchCode test first second failure exit).Integral := by
  simp [branchCode, tested.code, onFirst, onSecond, Quad.opcode, Opcode.integral]

/-- Loops of code over integers are code over integers. -/
theorem loopCode_integral {test : Evaluated} {body : Listing} (tested : test.Integral)
    (onBody : body.Integral) (entry exit : Label) :
    (loopCode test body entry exit).Integral := by
  simp [loopCode, tested.code, onBody, Quad.opcode, Opcode.integral]

/-- Assignments of expressions over integers are code over integers. -/
theorem lowerAssign_integral (integers : scope.Integral) (target : Ident) {value : Expr}
    (plain : value.integral = true) :
    Yields Listing.Integral (lowerAssign scope target value) := by
  refine yields_bind (resolve_integral integers target) fun scalar isInt => ?_
  refine yields_bind (lowerExpr_integral integers plain) fun result onResult => ?_
  cases value with
  | literal _ | identifier _ =>
      apply yields_pure
      simp [onResult.code, isInt, Quad.opcode, Opcode.integral]
  | binary _ _ _ | cast _ _ => exact yields_pure onResult.code

/-- Inputs of integers are code over integers. -/
theorem lowerInput_integral (integers : scope.Integral) (target : Ident) :
    Yields Listing.Integral (lowerInput scope target) := by
  refine yields_bind (resolve_integral integers target) fun scalar isInt => ?_
  apply yields_pure
  simp [isInt, Quad.opcode, Opcode.integral]

/-- Outputs of expressions over integers are code over integers. -/
theorem lowerOutput_integral (integers : scope.Integral) {value : Expr}
    (plain : value.integral = true) : Yields Listing.Integral (lowerOutput scope value) := by
  refine yields_bind (lowerExpr_integral integers plain) fun result onResult => ?_
  apply yields_pure
  simp [onResult.code, onResult.scalar, Quad.opcode, Opcode.integral]

mutual

/-- What is kept of a statement over integers is code on integers. -/
theorem lowerStatement_integral (integers : scope.Integral) :
    ∀ (statement : Statement) (before : Supply), statement.integral = true →
      (lowerStatement scope statement before).1.code.Integral
  | .assign target value, before, plain => by
      rw [lowerStatement]
      exact keepOrDrop_integral (lowerAssign_integral integers target plain) before
  | .input target, before, _ => by
      rw [lowerStatement]
      exact keepOrDrop_integral (lowerInput_integral integers target) before
  | .output value, before, plain => by
      rw [lowerStatement]
      exact keepOrDrop_integral (lowerOutput_integral integers plain) before
  | .branch test yes no, before, plain => by
      rw [Statement.integral, Bool.and_eq_true, Bool.and_eq_true, ← test.positive_integral] at plain
      obtain ⟨testPlain, yesPlain, noPlain⟩ := plain
      cases lowered : lowerCondition scope test.positive before with
      | error error afterTest =>
          rw [lowerStatement_branch_error lowered]
          exact Listing.integral_nil
      | ok tested afterTest =>
          have onTest := lowerCondition_integral integers testPlain before tested afterTest lowered
          have first := lowerStatement_integral integers yes afterTest yesPlain
          have second :=
            lowerStatement_integral integers no (lowerStatement scope yes afterTest).2 noPlain
          rw [lowerStatement_branch_ok lowered]
          dsimp only
          split
          · exact branchCode_integral onTest second first _ _
          · exact branchCode_integral onTest first second _ _
  | .loop test body, before, plain => by
      rw [Statement.integral, Bool.and_eq_true] at plain
      cases lowered : lowerCondition scope test ⟨before.temps, before.labels + 2⟩ with
      | error error afterTest =>
          rw [lowerStatement_loop_error lowered]
          exact Listing.integral_nil
      | ok tested afterTest =>
          have onTest := lowerCondition_integral integers plain.1 _ tested afterTest lowered
          rw [lowerStatement_loop_ok lowered]
          exact loopCode_integral onTest (lowerStatement_integral integers body afterTest plain.2) _ _
  | .block body, before, plain => by
      rw [lowerStatement]
      exact lowerStatements_integral integers body before plain

/-- Statements over integers are lowered to code over integers. -/
theorem lowerStatements_integral (integers : scope.Integral) :
    ∀ (body : List Statement) (before : Supply), Statement.integralAll body = true →
      (lowerStatements scope body before).1.code.Integral
  | [], _, _ => Listing.integral_nil
  | first :: later, before, plain => by
      rw [Statement.integralAll, Bool.and_eq_true] at plain
      rw [lowerStatements]
      exact Listing.integral_append.mpr ⟨lowerStatement_integral integers first before plain.1,
        lowerStatements_integral integers later (lowerStatement scope first before).2 plain.2⟩

end

end Statements

section Lines

/-- The first word of an instruction on integers is neither an operation on reals nor a
conversion. -/
theorem Opcode.integral_text {opcode : Opcode} (integral : opcode.integral = true)
    (rest : List Char) : ¬['R'] <+: opcode.text.toList ++ rest ∧
      ¬"ITOR".toList <+: opcode.text.toList ++ rest := by
  obtain ⟨label, rfl⟩ | listed := mark_or_unmarked opcode
  · simp [text, Label.text, String.toList_append]
  · have words : ∀ opcode ∈ unmarked, opcode.integral = true →
        ¬['R'].isPrefixOf opcode.text.toList ∧ ¬"ITOR".toList.isPrefixOf opcode.text.toList ∧
          opcode.text.toList.length = 4 := by decide +kernel
    obtain ⟨noReal, noConversion, length⟩ := words opcode listed integral
    rw [List.isPrefixOf_iff_prefix] at noReal noConversion
    constructor
    · intro front
      exact noReal (List.prefix_of_prefix_length_le front (List.prefix_append _ _) (by simp [length]))
    · intro front
      exact noConversion
        (List.prefix_of_prefix_length_le front (List.prefix_append _ _) (by rw [length]; rfl))

/-- The line of an instruction starts with its opcode. -/
theorem Quad.text_opcode (quad : Quad) :
    ∃ rest, quad.text.toList = quad.opcode.text.toList ++ rest := by
  rw [text, words_eq, String.toList_intercalate, List.map_cons]
  cases quad.jump?.toList.map Label.text ++ quad.mentions.map Value.text with
  | nil => exact ⟨[], by simp⟩
  | cons word later =>
      rw [List.map_cons, List.intercalate_cons_cons, List.append_assoc]
      exact ⟨_, rfl⟩

end Lines

/-- A program over integers, with errors in it or not, has only instructions on integers. No line of
it starts with the letter for reals, and none with the word for a conversion to a real. -/
theorem generate_integral {scope : Scope} {body : List Statement} (integers : scope.Integral)
    (plain : Statement.integralAll body = true) :
    let program := (generate scope body).program
    (∀ quad ∈ program, quad.opcode.integral = true) ∧
      ∀ line ∈ program.lines, ¬['R'] <+: line.toList ∧ ¬"ITOR".toList <+: line.toList := by
  intro program
  have whole : program.Integral := by
    apply Listing.integral_append.mpr
    exact ⟨lowerStatements_integral integers body ⟨0, 0⟩ plain, by simp [Quad.opcode, Opcode.integral]⟩
  refine ⟨whole, ?_⟩
  intro line shown
  obtain ⟨quad, member, rfl⟩ := List.mem_map.mp shown
  obtain ⟨rest, line⟩ := quad.text_opcode
  rw [line]
  exact Opcode.integral_text (whole quad member) rest

/-- A number is doubled while it is at most nine. The choice that follows is left out with one of
its sides, for it uses a name that is not declared. -/
theorem doubling_integral :
    let x : Ident := ⟨"x", .point 0⟩
    let y : Ident := ⟨"y", .point 5⟩
    let double := Expr.binary .multiply (.cast .int (.identifier x)) (.literal (.integer 2))
    let scope : Scope := ⟨[("x", .int)]⟩
    let body := [.loop (.relation .lessEqual (.identifier x) (.literal (.integer 9)))
        (.assign x double),
      .branch (.not (.relation .less (.identifier y) (.identifier x))) (.input x) (.input y)]
    let program := (generate scope body).program
    scope.Integral ∧ Statement.integralAll body = true ∧
      (generate scope body).errors = [⟨.undeclared "y", y.span⟩, ⟨.undeclared "y", y.span⟩] ∧
      (∀ quad ∈ program, quad.opcode.integral = true) ∧ "IMLT x t4 2" ∈ program.lines ∧
      ¬['R'] <+: "IMLT x t4 2".toList ∧ ¬"ITOR".toList <+: "IMLT x t4 2".toList := by
  intro x y double scope body program
  have integers : scope.Integral := by
    intro name scalar found
    simp only [scope, Scope.scalar?, List.lookup_cons, List.lookup_nil] at found
    split at found
    · exact (Option.some.inj found).symm
    · cases found
  have plain : Statement.integralAll body = true := by decide
  obtain ⟨whole, lines⟩ := generate_integral integers plain
  have shown : "IMLT x t4 2" ∈ program.lines := by decide +kernel
  exact ⟨integers, plain, by decide, whole, shown, lines _ shown⟩

end Cpl
