/-
Quad code for programs. A statement that uses an undeclared name is left out and its error is
kept. Numbers taken for temporaries and labels on the way are not given back.
-/

import Cpl.Quad
import Cpl.Scope

namespace Cpl

/-- How many temporaries and labels have been taken. -/
structure Supply where
  temps : Nat
  labels : Nat
deriving DecidableEq

namespace Scope

/-- The first index from `index` on whose temporary no variable is named like. Only as many
indices as there are attempts are passed over. -/
def freeIndex (scope : Scope) : (attempts index : Nat) → Nat
  | 0, index => index
  | attempts + 1, index =>
      if scope.contains (Name.temp index).text then scope.freeIndex attempts (index + 1)
      else index

/-- The index of the temporary after the last one. Variables can take at most as many names as
there are variables. -/
def nextTemp (scope : Scope) (last : Nat) : Nat := scope.freeIndex scope.size (last + 1)

/-- The indices after `last` and up to `limit` that are passed over for variables. -/
def passedOver (scope : Scope) (last limit : Nat) : List Nat :=
  (List.range' (last + 1) (limit - last)).filter fun index =>
    scope.contains (Name.temp index).text

end Scope

namespace Supply

/-- The next temporary. -/
def temp (supply : Supply) (scope : Scope) : Name × Supply :=
  let index := scope.nextTemp supply.temps
  (.temp index, { supply with temps := index })

/-- The next label. -/
def label (supply : Supply) : Label × Supply :=
  (⟨supply.labels + 1⟩, { supply with labels := supply.labels + 1 })

end Supply

/-- Lowering that can fail. What was taken from the supply up to the failure stays taken. -/
abbrev Lowering := EStateM SemanticError Supply

def freshTemp (scope : Scope) : Lowering Name := fun supply =>
  let (name, rest) := supply.temp scope
  .ok name rest

def freshLabel : Lowering Label := fun supply =>
  let (label, rest) := supply.label
  .ok label rest

/-- The type of a variable. -/
def resolve (scope : Scope) (ident : Ident) : Lowering Scalar := fun supply =>
  match scope.lookup ident.name with
  | .ok scalar => .ok scalar supply
  | .error cause => .error ⟨cause, ident.span⟩ supply

/-- Code for an expression or a condition, and where its value is afterwards. -/
structure Evaluated where
  code : Listing
  scalar : Scalar
  value : Value
deriving DecidableEq

/-- The place for a result: the one offered, or a temporary. -/
def destination (scope : Scope) : Option Name → Lowering Name
  | some name => pure name
  | none => freshTemp scope

/-- The instruction that converts a value to a type. A value of that type is copied. -/
def conversion (source result : Scalar) (target : Name) (value : Value) : Quad :=
  match source, result with
  | .int, .float => .toReal target value
  | .float, .int => .toInt target value
  | scalar, _ => .assign scalar target value

/-- Code for an expression. Operations write to the offered place, if there is one. -/
def lowerExpr (scope : Scope) (slot : Option Name) : Expr → Lowering Evaluated
  | .literal value => return ⟨[], value.scalar, .literal value⟩
  | .identifier ident => do
      let scalar ← resolve scope ident
      return ⟨[], scalar, .name (.var ident.name)⟩
  | .binary op left right => do
      let left ← lowerExpr scope none left
      let right ← lowerExpr scope none right
      let scalar := left.scalar.promote right.scalar
      let target ← destination scope slot
      return ⟨left.code ++ right.code ++ [.arith scalar op target left.value right.value], scalar,
        .name target⟩
  | .cast result operand => do
      let operand ← lowerExpr scope none operand
      let target ← destination scope slot
      return ⟨operand.code ++ [conversion operand.scalar result target operand.value], result,
        .name target⟩

def flag (value : Int32) : Value := .literal (.integer value)

/-- Stores 1 when entered from above, and 0 when entered at the label for failure. -/
def truthTail (result : Name) (failure exit : Label) : Listing :=
  [.assign .int result (flag 1), .jump exit, .mark failure, .assign .int result (flag 0),
    .mark exit]

/-- The right side is skipped when the left side holds. -/
def lowerOr (scope : Scope) (left right : Evaluated) : Lowering Evaluated := do
  let result ← freshTemp scope
  let second ← freshLabel
  let success ← freshLabel
  let failure ← freshLabel
  let exit ← freshLabel
  return ⟨left.code ++ [.jumpIfZero second left.value, .jump success, .mark second] ++ right.code
    ++ [.jumpIfZero failure right.value, .mark success] ++ truthTail result failure exit,
    .int, .name result⟩

/-- The right side is skipped when the left side fails. -/
def lowerAnd (scope : Scope) (left right : Evaluated) : Lowering Evaluated := do
  let result ← freshTemp scope
  let failure ← freshLabel
  let exit ← freshLabel
  return ⟨left.code ++ [.jumpIfZero failure left.value] ++ right.code
    ++ [.jumpIfZero failure right.value] ++ truthTail result failure exit, .int, .name result⟩

/-- One comparison into a temporary. -/
def lowerCompare (scope : Scope) (scalar : Scalar) (op : CmpOp) (left right : Value) :
    Lowering Evaluated := do
  let result ← freshTemp scope
  return ⟨[.compare scalar op result left right], .int, .name result⟩

/-- Two comparisons, of which either may hold. -/
def lowerOrEqual (scope : Scope) (scalar : Scalar) (strict : CmpOp) (left right : Value) :
    Lowering Evaluated := do
  let equal ← lowerCompare scope scalar .equal left right
  let unequal ← lowerCompare scope scalar strict left right
  lowerOr scope equal unequal

/-- A comparison of two values. -/
def lowerRelation (scope : Scope) (scalar : Scalar) (op : RelOp) (left right : Value) :
    Lowering Evaluated :=
  match op with
  | .equal => lowerCompare scope scalar .equal left right
  | .notEqual => lowerCompare scope scalar .notEqual left right
  | .less => lowerCompare scope scalar .less left right
  | .greater => lowerCompare scope scalar .greater left right
  | .lessEqual => lowerOrEqual scope scalar .less left right
  | .greaterEqual => lowerOrEqual scope scalar .greater left right

/-- Code that leaves 1 in a temporary if the condition holds, and 0 otherwise. -/
def lowerCondition (scope : Scope) : Condition → Lowering Evaluated
  | .or left right => do
      let left ← lowerCondition scope left
      let right ← lowerCondition scope right
      lowerOr scope left right
  | .and left right => do
      let left ← lowerCondition scope left
      let right ← lowerCondition scope right
      lowerAnd scope left right
  | .not operand => do
      let operand ← lowerCondition scope operand
      let result ← freshTemp scope
      return ⟨operand.code ++ [.compare .int .equal result operand.value (flag 0)], .int,
        .name result⟩
  | .relation op left right => do
      let left ← lowerExpr scope none left
      let right ← lowerExpr scope none right
      let scalar := left.scalar.promote right.scalar
      let result ← lowerRelation scope scalar op left.value right.value
      return { result with code := left.code ++ right.code ++ result.code }

/-- Operations write their result to the target; names and constants are copied there. -/
def lowerAssign (scope : Scope) (target : Ident) (value : Expr) : Lowering Listing := do
  let scalar ← resolve scope target
  let place := Name.var target.name
  let result ← lowerExpr scope (some place) value
  match value with
  | .literal _ | .identifier _ => return result.code ++ [.assign scalar place result.value]
  | .binary .. | .cast .. => return result.code

def lowerInput (scope : Scope) (target : Ident) : Lowering Listing := do
  let scalar ← resolve scope target
  return [.input scalar (.var target.name)]

def lowerOutput (scope : Scope) (value : Expr) : Lowering Listing := do
  let result ← lowerExpr scope none value
  return result.code ++ [.print result.scalar result.value]

/-- A statement that was left out, and how many temporaries were taken by then. -/
structure Drop where
  error : SemanticError
  temps : Nat
deriving DecidableEq

/-- Code for statements, and those of them that were left out. -/
structure Lowered where
  code : Listing
  drops : List Drop
deriving DecidableEq

/-- Leaves a statement out, after those of its parts that were left out. -/
def giveUp (error : SemanticError) (drops : List Drop) (supply : Supply) : Lowered × Supply :=
  (⟨[], drops ++ [⟨error, supply.temps⟩]⟩, supply)

def keepOrDrop (lowering : Lowering Listing) (supply : Supply) : Lowered × Supply :=
  match lowering supply with
  | .ok code rest => (⟨code, []⟩, rest)
  | .error error rest => giveUp error [] rest

/-- The supply after lowering, whether it failed or not. -/
def supplyAfter {Result : Type} : EStateM.Result SemanticError Supply Result → Supply
  | .ok _ supply => supply
  | .error _ supply => supply

/-- The code between the labels of a branch. -/
def branchCode (test : Evaluated) (first second : Listing) (failure exit : Label) : Listing :=
  test.code ++ [.jumpIfZero failure test.value] ++ first ++ [.jump exit, .mark failure] ++ second
    ++ [.mark exit]

/-- The code between the labels of a loop. -/
def loopCode (test : Evaluated) (body : Listing) (entry exit : Label) : Listing :=
  [.mark entry] ++ test.code ++ [.jumpIfZero exit test.value] ++ body
    ++ [.jump entry, .mark exit]

namespace Condition

/-- Whether a negation stands in front. -/
def isNegation : Condition → Bool
  | .not _ => true
  | _ => false

/-- The condition without a negation in front. -/
def positive : Condition → Condition
  | .not operand => operand
  | test => test

end Condition

mutual

/-- Code for a statement. Its parts are lowered even if its condition fails. A branch on a
negated condition is one on the condition itself, with the sides exchanged. -/
def lowerStatement (scope : Scope) : Statement → Supply → Lowered × Supply
  | .assign target value, supply => keepOrDrop (lowerAssign scope target value) supply
  | .input target, supply => keepOrDrop (lowerInput scope target) supply
  | .output value, supply => keepOrDrop (lowerOutput scope value) supply
  | .branch test yes no, supply =>
      let tested := lowerCondition scope test.positive supply
      let (yes, supply) := lowerStatement scope yes (supplyAfter tested)
      let (no, supply) := lowerStatement scope no supply
      let drops := yes.drops ++ no.drops
      match tested with
      | .error error _ => giveUp error drops supply
      | .ok result _ =>
          let (failure, supply) := supply.label
          let (exit, supply) := supply.label
          let code :=
            if test.isNegation then branchCode result no.code yes.code failure exit
            else branchCode result yes.code no.code failure exit
          (⟨code, drops⟩, supply)
  | .loop test body, supply =>
      let (entry, supply) := supply.label
      let (exit, supply) := supply.label
      let tested := lowerCondition scope test supply
      let (body, supply) := lowerStatement scope body (supplyAfter tested)
      match tested with
      | .error error _ => giveUp error body.drops supply
      | .ok result _ => (⟨loopCode result body.code entry exit, body.drops⟩, supply)
  | .block body, supply => lowerStatements scope body supply

def lowerStatements (scope : Scope) : List Statement → Supply → Lowered × Supply
  | [], supply => (⟨[], []⟩, supply)
  | first :: later, supply =>
      let (first, supply) := lowerStatement scope first supply
      let (later, supply) := lowerStatements scope later supply
      (⟨first.code ++ later.code, first.drops ++ later.drops⟩, supply)

end

/-- The code of a program, the statements that were left out of it, and the number of
temporaries taken. -/
structure Generated where
  code : Listing
  drops : List Drop
  temps : Nat
deriving DecidableEq

namespace Generated

def errors (generated : Generated) : List SemanticError := generated.drops.map Drop.error

/-- The complete program. -/
def program (generated : Generated) : Listing := generated.code.complete

end Generated

/-- Code for the body of a program. -/
def generate (scope : Scope) (body : List Statement) : Generated :=
  let (lowered, supply) := lowerStatements scope body ⟨0, 0⟩
  ⟨lowered.code, lowered.drops, supply.temps⟩

end Cpl
