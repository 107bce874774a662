import Cpl.Quad
import Cpl.Scope
import Mathlib.Logic.Function.Basic

namespace Cpl

/-- A domain of values. Arithmetic and reading may fault. Truth is kept as the integers one and
zero, which the test for zero and the comparison with zero tell apart. -/
structure Domain where
  Val : Type
  Fault : Type
  Input : Type
  literal : Literal → Val
  arith : Scalar → ArithOp → Val → Val → Except Fault Val
  compare : Scalar → CmpOp → Val → Val → Bool
  toReal : Val → Val
  toInt : Val → Val
  read : Scalar → Input → Except Fault (Val × Input)
  isZero : Val → Bool
  isZeroZero : isZero (literal (.integer 0)) = true
  isZeroOne : isZero (literal (.integer 1)) = false
  equalZero : compare .int .equal (literal (.integer 0)) (literal (.integer 0)) = true
  equalOne : compare .int .equal (literal (.integer 1)) (literal (.integer 0)) = false

namespace Domain

/-- The value that stands for a truth value. -/
def truth (domain : Domain) (holds : Bool) : domain.Val :=
  domain.literal (.integer (if holds then 1 else 0))

/-- A truth value is false if it equals zero. -/
theorem equal_truth (domain : Domain) (holds : Bool) :
    domain.compare .int .equal (domain.truth holds) (domain.literal (.integer 0)) = !holds := by
  cases holds with
  | false => exact domain.equalZero
  | true => exact domain.equalOne

/-- A conversion changes a value only if the types differ. -/
def convert (domain : Domain) (source result : Scalar) (value : domain.Val) : domain.Val :=
  match source, result with
  | .int, .float => domain.toReal value
  | .float, .int => domain.toInt value
  | _, _ => value

/-- The meaning of a relation. The relations that include equality look at it first. -/
def relate (domain : Domain) (scalar : Scalar) (op : RelOp) (left right : domain.Val) : Bool :=
  match op with
  | .equal => domain.compare scalar .equal left right
  | .notEqual => domain.compare scalar .notEqual left right
  | .less => domain.compare scalar .less left right
  | .greater => domain.compare scalar .greater left right
  | .lessEqual => domain.compare scalar .equal left right || domain.compare scalar .less left right
  | .greaterEqual =>
      domain.compare scalar .equal left right || domain.compare scalar .greater left right

end Domain

/-- The values of the variables, the input that is still to be read, and what has been printed. -/
structure State (domain : Domain) where
  store : String → domain.Val
  input : domain.Input
  output : List (Scalar × domain.Val)

namespace State

def assign {domain : Domain} (state : State domain) (name : String) (value : domain.Val) :
    State domain :=
  { state with store := Function.update state.store name value }

def print {domain : Domain} (state : State domain) (scalar : Scalar) (value : domain.Val) :
    State domain :=
  { state with output := state.output ++ [(scalar, value)] }

end State

/-- The type of a declared name. -/
def Scope.typeOf (scope : Scope) (name : String) : Scalar := (scope.scalar? name).getD .int

/-- The static type of an expression. -/
def Expr.typeIn (scope : Scope) : Expr → Scalar
  | .literal value => value.scalar
  | .identifier ident => scope.typeOf ident.name
  | .binary _ left right => (left.typeIn scope).promote (right.typeIn scope)
  | .cast target _ => target

/-- The value of an expression. Operands are evaluated from left to right, and an operation is
performed at the type at which its operands meet. -/
def Expr.eval (domain : Domain) (scope : Scope) (store : String → domain.Val) :
    Expr → Except domain.Fault domain.Val
  | .literal value => .ok (domain.literal value)
  | .identifier ident => .ok (store ident.name)
  | .binary op left right => do
      let leftValue ← left.eval domain scope store
      let rightValue ← right.eval domain scope store
      domain.arith ((left.typeIn scope).promote (right.typeIn scope)) op leftValue rightValue
  | .cast target operand => do
      let value ← operand.eval domain scope store
      return domain.convert (operand.typeIn scope) target value

/-- The truth of a condition. The right side of a disjunction or a conjunction is evaluated only if
the left side does not decide. -/
def Condition.eval (domain : Domain) (scope : Scope) (store : String → domain.Val) :
    Condition → Except domain.Fault Bool
  | .or left right => do
      if ← left.eval domain scope store then return true
      else right.eval domain scope store
  | .and left right => do
      if ← left.eval domain scope store then right.eval domain scope store
      else return false
  | .not operand => do
      let holds ← operand.eval domain scope store
      return !holds
  | .relation op left right => do
      let leftValue ← left.eval domain scope store
      let rightValue ← right.eval domain scope store
      return domain.relate ((left.typeIn scope).promote (right.typeIn scope)) op leftValue rightValue

/-- How a run ends: it is done, it meets a fault, or it is cut short in a loop. -/
inductive Outcome (domain : Domain) where
  | done (state : State domain)
  | fault (error : domain.Fault) (state : State domain)
  | cut (state : State domain)

namespace Outcome
variable {domain : Domain}

/-- The state in which a run ends. -/
def state : Outcome domain → State domain
  | done state => state
  | fault _ state => state
  | cut state => state

/-- Goes on from a run that is done. -/
def andThen (outcome : Outcome domain) (next : State domain → Outcome domain) : Outcome domain :=
  match outcome with
  | done state => next state
  | fault error state => fault error state
  | cut state => cut state

/-- Goes on with a value, or ends with the fault in its place. -/
def ofValue {Value : Type} (value : Except domain.Fault Value) (state : State domain)
    (next : Value → Outcome domain) : Outcome domain :=
  match value with
  | .ok value => next value
  | .error error => fault error state

end Outcome

/-- Repeats a body as long as a test holds, for at most so many rounds. -/
def repeatWhile {domain : Domain} (test : State domain → Except domain.Fault Bool)
    (body : State domain → Outcome domain) : Nat → State domain → Outcome domain
  | 0, state => .cut state
  | rounds + 1, state =>
      .ofValue (test state) state fun holds =>
        if holds then (body state).andThen (repeatWhile test body rounds) else .done state

mutual

/-- Runs a statement. No loop is entered for more than the given number of rounds. -/
def Statement.run (domain : Domain) (scope : Scope) (rounds : Nat) :
    Statement → State domain → Outcome domain
  | .assign target value, state =>
      .ofValue (value.eval domain scope state.store) state fun result =>
        .done (state.assign target.name result)
  | .input target, state =>
      .ofValue (domain.read (scope.typeOf target.name) state.input) state fun (value, later) =>
        .done ({ state with input := later }.assign target.name value)
  | .output value, state =>
      .ofValue (value.eval domain scope state.store) state fun result =>
        .done (state.print (value.typeIn scope) result)
  | .branch test yes no, state =>
      .ofValue (test.eval domain scope state.store) state fun holds =>
        if holds then yes.run domain scope rounds state else no.run domain scope rounds state
  | .loop test body, state =>
      repeatWhile (fun state => test.eval domain scope state.store)
        (body.run domain scope rounds) rounds state
  | .block body, state => Statement.runAll domain scope rounds body state

/-- Runs statements one after the other. -/
def Statement.runAll (domain : Domain) (scope : Scope) (rounds : Nat) :
    List Statement → State domain → Outcome domain
  | [], state => .done state
  | first :: later, state =>
      (first.run domain scope rounds state).andThen (Statement.runAll domain scope rounds later)

end

end Cpl
