import Cpl.Proofs.Lowering.Emission

namespace Cpl

/-- The ways in which code for an expression comes about that is not offered a place. -/
inductive Expr.Lowers (scope : Scope) : Expr → Supply → Evaluated → Supply → Prop
  | literal {value : Literal} {supply : Supply} :
      Expr.Lowers scope (.literal value) supply ⟨[], value.scalar, .literal value⟩ supply
  | identifier {ident : Ident} {scalar : Scalar} {supply : Supply}
      (found : scope.scalar? ident.name = some scalar) :
      Expr.Lowers scope (.identifier ident) supply ⟨[], scalar, .name (.var ident.name)⟩ supply
  | binary {op : ArithOp} {left right : Expr} {leftResult rightResult : Evaluated}
      {before middle last : Supply} (onLeft : Expr.Lowers scope left before leftResult middle)
      (onRight : Expr.Lowers scope right middle rightResult last) :
      Expr.Lowers scope (.binary op left right) before
        ⟨leftResult.code ++ rightResult.code ++
          [.arith (leftResult.scalar.promote rightResult.scalar) op
            (.temp (scope.nextTemp last.temps)) leftResult.value rightResult.value],
          leftResult.scalar.promote rightResult.scalar, .name (.temp (scope.nextTemp last.temps))⟩
        ⟨scope.nextTemp last.temps, last.labels⟩
  | cast {target : Scalar} {operand : Expr} {result : Evaluated} {before last : Supply}
      (onOperand : Expr.Lowers scope operand before result last) :
      Expr.Lowers scope (.cast target operand) before
        ⟨result.code ++ [conversion result.scalar target (.temp (scope.nextTemp last.temps))
          result.value], target, .name (.temp (scope.nextTemp last.temps))⟩
        ⟨scope.nextTemp last.temps, last.labels⟩

/-- The ways in which code for a condition comes about. -/
inductive Condition.Lowers (scope : Scope) : Condition → Supply → Evaluated → Supply → Prop
  | or {left right : Condition} {leftResult rightResult : Evaluated} {before middle last : Supply}
      (onLeft : Condition.Lowers scope left before leftResult middle)
      (onRight : Condition.Lowers scope right middle rightResult last) :
      Condition.Lowers scope (.or left right) before
        ⟨orCode leftResult rightResult (.temp (scope.nextTemp last.temps)) ⟨last.labels + 1⟩
          ⟨last.labels + 2⟩ ⟨last.labels + 3⟩ ⟨last.labels + 4⟩, .int,
          .name (.temp (scope.nextTemp last.temps))⟩
        ⟨scope.nextTemp last.temps, last.labels + 4⟩
  | and {left right : Condition} {leftResult rightResult : Evaluated} {before middle last : Supply}
      (onLeft : Condition.Lowers scope left before leftResult middle)
      (onRight : Condition.Lowers scope right middle rightResult last) :
      Condition.Lowers scope (.and left right) before
        ⟨andCode leftResult rightResult (.temp (scope.nextTemp last.temps)) ⟨last.labels + 1⟩
          ⟨last.labels + 2⟩, .int, .name (.temp (scope.nextTemp last.temps))⟩
        ⟨scope.nextTemp last.temps, last.labels + 2⟩
  | not {operand : Condition} {result : Evaluated} {before last : Supply}
      (onOperand : Condition.Lowers scope operand before result last) :
      Condition.Lowers scope (.not operand) before
        ⟨result.code ++ [.compare .int .equal (.temp (scope.nextTemp last.temps)) result.value
          (flag 0)], .int, .name (.temp (scope.nextTemp last.temps))⟩
        ⟨scope.nextTemp last.temps, last.labels⟩
  | relation {op : RelOp} {left right : Expr} {leftResult rightResult compared : Evaluated}
      {before middle last after : Supply} (onLeft : Expr.Lowers scope left before leftResult middle)
      (onRight : Expr.Lowers scope right middle rightResult last)
      (related : lowerRelation scope (leftResult.scalar.promote rightResult.scalar) op
        leftResult.value rightResult.value last = .ok compared after) :
      Condition.Lowers scope (.relation op left right) before
        { compared with code := leftResult.code ++ rightResult.code ++ compared.code } after

/-- The ways in which code for an assignment comes about. -/
inductive Expr.LowersTo (scope : Scope) (target : Ident) : Expr → Supply → Listing → Supply → Prop
  | literal {value : Literal} {scalar : Scalar} {supply : Supply} :
      Expr.LowersTo scope target (.literal value) supply
        [.assign scalar (.var target.name) (.literal value)] supply
  | identifier {ident : Ident} {scalar : Scalar} {supply : Supply} :
      Expr.LowersTo scope target (.identifier ident) supply
        [.assign scalar (.var target.name) (.name (.var ident.name))] supply
  | binary {op : ArithOp} {left right : Expr} {leftResult rightResult : Evaluated}
      {before middle after : Supply} (onLeft : Expr.Lowers scope left before leftResult middle)
      (onRight : Expr.Lowers scope right middle rightResult after) :
      Expr.LowersTo scope target (.binary op left right) before
        (leftResult.code ++ rightResult.code ++
          [.arith (leftResult.scalar.promote rightResult.scalar) op (.var target.name)
            leftResult.value rightResult.value]) after
  | cast {result : Scalar} {operand : Expr} {operandResult : Evaluated} {before after : Supply}
      (onOperand : Expr.Lowers scope operand before operandResult after) :
      Expr.LowersTo scope target (.cast result operand) before
        (operandResult.code ++ [conversion operandResult.scalar result (.var target.name)
          operandResult.value]) after

section Successes
variable {scope : Scope} {before after : Supply} {result : Evaluated}

/-- Expressions are lowered as the relation says, and only so. -/
theorem lowerExpr_iff {value : Expr} : Expr.Lowers scope value before result after ↔
    lowerExpr scope none value before = .ok result after := by
  constructor
  · intro lowers
    induction lowers with
    | literal => exact lowerExpr_literal.mpr ⟨rfl, rfl⟩
    | identifier found => exact lowerExpr_identifier.mpr ⟨_, found, rfl, rfl⟩
    | binary _ _ left right =>
        exact lowerExpr_binary.mpr
          ⟨_, _, _, _, _, left, right, destination_none.mpr ⟨rfl, rfl⟩, rfl⟩
    | cast _ operand =>
        exact lowerExpr_cast.mpr ⟨_, _, _, operand, destination_none.mpr ⟨rfl, rfl⟩, rfl⟩
  · intro lowered
    induction value generalizing before after result with
    | literal value =>
        obtain ⟨rfl, rfl⟩ := lowerExpr_literal.mp lowered
        exact .literal
    | identifier ident =>
        obtain ⟨scalar, found, rfl, rfl⟩ := lowerExpr_identifier.mp lowered
        exact .identifier found
    | binary op left right leftLowers rightLowers =>
        obtain ⟨_, _, _, _, _, lowerLeft, lowerRight, chosen, rfl⟩ := lowerExpr_binary.mp lowered
        obtain ⟨rfl, rfl⟩ := destination_none.mp chosen
        exact .binary (leftLowers lowerLeft) (rightLowers lowerRight)
    | cast target operand operandLowers =>
        obtain ⟨_, _, _, lowerOperand, chosen, rfl⟩ := lowerExpr_cast.mp lowered
        obtain ⟨rfl, rfl⟩ := destination_none.mp chosen
        exact .cast (operandLowers lowerOperand)

/-- Conditions are lowered as the relation says. -/
theorem lowerCondition_lowers {test : Condition}
    (lowered : lowerCondition scope test before = .ok result after) :
    Condition.Lowers scope test before result after := by
  induction test generalizing before after result with
  | or left right leftLowers rightLowers =>
      obtain ⟨_, _, _, _, lowerLeft, lowerRight, joined⟩ := lowerCondition_or.mp lowered
      rw [lowerOr_eq] at joined
      cases joined
      exact .or (leftLowers lowerLeft) (rightLowers lowerRight)
  | and left right leftLowers rightLowers =>
      obtain ⟨_, _, _, _, lowerLeft, lowerRight, joined⟩ := lowerCondition_and.mp lowered
      rw [lowerAnd_eq] at joined
      cases joined
      exact .and (leftLowers lowerLeft) (rightLowers lowerRight)
  | not operand operandLowers =>
      obtain ⟨_, _, lowerOperand, rfl, rfl⟩ := lowerCondition_not.mp lowered
      exact .not (operandLowers lowerOperand)
  | relation op left right =>
      obtain ⟨_, _, _, _, _, lowerLeft, lowerRight, related, rfl⟩ :=
        lowerCondition_relation.mp lowered
      exact .relation (lowerExpr_iff.mpr lowerLeft) (lowerExpr_iff.mpr lowerRight) related

/-- Assigned expressions are lowered as the relation says. -/
theorem lowerAssign_lowers {target : Ident} {value : Expr} {code : Listing}
    (lowered : lowerAssign scope target value before = .ok code after) :
    Expr.LowersTo scope target value before code after := by
  obtain ⟨scalar, result, _, lowerValue, rfl⟩ := lowerAssign_ok.mp lowered
  cases value with
  | literal value =>
      obtain ⟨rfl, rfl⟩ := lowerExpr_literal.mp lowerValue
      exact .literal
  | identifier ident =>
      obtain ⟨_, _, rfl, rfl⟩ := lowerExpr_identifier.mp lowerValue
      exact .identifier
  | binary op left right =>
      obtain ⟨_, _, _, _, _, lowerLeft, lowerRight, chosen, rfl⟩ := lowerExpr_binary.mp lowerValue
      obtain ⟨rfl, rfl⟩ := destination_some.mp chosen
      rw [copyCode, List.append_nil]
      exact .binary (lowerExpr_iff.mpr lowerLeft) (lowerExpr_iff.mpr lowerRight)
  | cast result operand =>
      obtain ⟨_, _, _, lowerOperand, chosen, rfl⟩ := lowerExpr_cast.mp lowerValue
      obtain ⟨rfl, rfl⟩ := destination_some.mp chosen
      rw [copyCode, List.append_nil]
      exact .cast (lowerExpr_iff.mpr lowerOperand)

end Successes

end Cpl
