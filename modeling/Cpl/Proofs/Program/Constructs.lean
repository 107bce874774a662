import Cpl.Proofs.Meaning.Evaluation
import Cpl.Quad.Lowering

namespace Cpl

/-- A part of a program. Of an operation it is told whether its result is assigned to a variable
directly, and of a conversion also from which type it is. -/
inductive Construct where
  | binary (op : ArithOp) (assigned : Bool)
  | cast (source target : Scalar) (assigned : Bool)
  /-- An assignment of a constant or a variable. -/
  | copy
  /-- One of `==`, `!=`, `<` and `>`. -/
  | comparison
  /-- One of `<=` and `>=`. -/
  | inclusive
  | or
  | and
  | not
  | input
  | output
  | branch
  | loop
deriving DecidableEq

namespace Construct

def isBinary (op : ArithOp) : Construct → Bool
  | binary own _ => own = op
  | _ => false

def isCast (source target : Scalar) : Construct → Bool
  | cast ownSource ownTarget _ => ownSource = source ∧ ownTarget = target
  | _ => false

/-- Whether it is an operation whose result is not assigned directly. -/
def isOperand : Construct → Bool
  | binary _ assigned | cast _ _ assigned => !assigned
  | _ => false

end Construct

/-- The parts of an expression. -/
def Expr.constructs (scope : Scope) (assigned : Bool) : Expr → List Construct
  | literal _ | identifier _ => if assigned then [.copy] else []
  | binary op left right =>
      .binary op assigned :: (left.constructs scope false ++ right.constructs scope false)
  | cast target operand =>
      .cast (operand.typeIn scope) target assigned :: operand.constructs scope false

def RelOp.construct : RelOp → Construct
  | equal | notEqual | less | greater => .comparison
  | lessEqual | greaterEqual => .inclusive

def Condition.constructs (scope : Scope) : Condition → List Construct
  | or left right => .or :: (left.constructs scope ++ right.constructs scope)
  | and left right => .and :: (left.constructs scope ++ right.constructs scope)
  | not operand => .not :: operand.constructs scope
  | relation op left right =>
      op.construct :: (left.constructs scope false ++ right.constructs scope false)

mutual

/-- The parts of a statement, at any depth. A negation in front of the condition of a branch is not
one of them. -/
def Statement.constructs (scope : Scope) : Statement → List Construct
  | .assign _ value => value.constructs scope true
  | .input _ => [.input]
  | .output value => .output :: value.constructs scope false
  | .branch test yes no =>
      .branch :: (test.positive.constructs scope ++ (yes.constructs scope ++ no.constructs scope))
  | .loop test body => .loop :: (test.constructs scope ++ body.constructs scope)
  | .block body => Statement.constructsOf scope body

def Statement.constructsOf (scope : Scope) : List Statement → List Construct
  | [] => []
  | first :: later => first.constructs scope ++ Statement.constructsOf scope later

end

mutual

/-- The variables that a statement assigns or reads in, each as often as it does so. -/
def Statement.targets : Statement → List String
  | .assign target _ | .input target => [target.name]
  | .output _ => []
  | .branch _ yes no => yes.targets ++ no.targets
  | .loop _ body => body.targets
  | .block body => Statement.targetsOf body

def Statement.targetsOf : List Statement → List String
  | [] => []
  | first :: later => first.targets ++ Statement.targetsOf later

end

/-- Halves a number that is read in until it is seven or below three, and prints one more than a
number below three. One variable is named like a temporary. -/
def halving : List Statement :=
  let x : Ident := ⟨"x", .point 0⟩
  let last : Ident := ⟨"t1", .point 0⟩
  let halve := Statement.assign x (.binary .divide (.identifier x) (.literal (.integer 2)))
  let finish := Statement.assign last
    (.cast .float (.binary .add (.identifier x) (.literal (.integer 1))))
  [.input x,
    .loop (.and (.relation .greaterEqual (.identifier x) (.literal (.integer 1)))
        (.not (.relation .equal (.identifier x) (.literal (.integer 7)))))
      (.branch (.not (.relation .less (.identifier x) (.literal (.integer 3)))) halve
        (.block [finish, .assign x (.literal (.integer 0))])),
    .output (.identifier last)]

/-- A condition that is no negation is left as it is. -/
theorem Condition.positive_of_plain {test : Condition} (plain : test.isNegation = false) :
    test.positive = test := by
  cases test with
  | not _ => cases plain
  | or _ _ | and _ _ | relation _ _ _ => rfl

/-- A body of one statement has its constructs. -/
theorem Statement.constructsOf_singleton (scope : Scope) (statement : Statement) :
    Statement.constructsOf scope [statement] = statement.constructs scope := by
  rw [Statement.constructsOf, Statement.constructsOf, List.append_nil]

/-- A body of one statement has its targets. -/
theorem Statement.targetsOf_singleton (statement : Statement) :
    Statement.targetsOf [statement] = statement.targets := by
  rw [Statement.targetsOf, Statement.targetsOf, List.append_nil]

end Cpl
