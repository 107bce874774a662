import Cpl.Proofs.Lowering.Complete
import Cpl.Proofs.Lowering.Names
import Cpl.Proofs.Lowering.Parts
import Cpl.Proofs.Lowering.Writes
import Cpl.Proofs.Program.Constructs

namespace Cpl

/-- What an instruction does, whatever its type and its operands. -/
inductive Action where
  | assign
  | input
  | print
  | arith (op : ArithOp)
  | compare
  | toReal
  | toInt
  | jump
  | jumpIfZero
  | mark
  | halt
deriving DecidableEq

def Quad.action : Quad → Action
  | assign .. => .assign
  | input .. => .input
  | print .. => .print
  | arith _ op _ _ _ => .arith op
  | compare .. => .compare
  | toReal .. => .toReal
  | toInt .. => .toInt
  | jump _ => .jump
  | jumpIfZero .. => .jumpIfZero
  | mark _ => .mark
  | halt => .halt

def Listing.actions (code : Listing) : List Action := code.map Quad.action

@[simp] theorem Listing.actions_nil : Listing.actions [] = [] := rfl

@[simp] theorem Listing.actions_cons (quad : Quad) (rest : Listing) :
    Listing.actions (quad :: rest) = quad.action :: Listing.actions rest := rfl

@[simp] theorem Listing.actions_append (first second : Listing) :
    Listing.actions (first ++ second) = Listing.actions first ++ Listing.actions second :=
  List.map_append

/-- How many instructions do an action. -/
def Listing.tally (code : Listing) (action : Action) : Nat := code.actions.count action

/-- What converts a value of one type to another. -/
def Scalar.conversion : Scalar → Scalar → Action
  | int, float => .toReal
  | float, int => .toInt
  | int, int | float, float => .assign

/-- What is done for a part of a program, besides what is done for its own parts. -/
def Construct.actions : Construct → List Action
  | binary op _ => [.arith op]
  | cast source target _ => [source.conversion target]
  | copy => [.assign]
  | comparison | not => [.compare]
  | or => [.jumpIfZero, .jump, .mark, .jumpIfZero, .mark, .assign, .jump, .mark, .assign, .mark]
  | and => [.jumpIfZero, .jumpIfZero, .assign, .jump, .mark, .assign, .mark]
  | inclusive => [.compare, .jumpIfZero, .jump, .mark, .compare, .jumpIfZero, .mark, .assign, .jump,
      .mark, .assign, .mark]
  | input => [.input]
  | output => [.print]
  | branch => [.jumpIfZero, .jump, .mark, .mark]
  | loop => [.mark, .jumpIfZero, .jump, .mark]

/-- Code does what its constructs ask for, each once, in some order. -/
def Accounts (code : Listing) (found : List Construct) : Prop :=
  code.actions.Perm (found.flatMap Construct.actions)

section Rules
variable {code rest : Listing} {found others : List Construct} {construct : Construct}

/-- Two pieces of code do what the constructs of both ask for. -/
theorem accounts_append (start : Accounts code found) (below : Accounts rest others) :
    Accounts (code ++ rest) (found ++ others) := by
  rw [Accounts, Listing.actions_append, List.flatMap_append]
  exact start.append below

/-- The instructions of a construct may stand below those of its parts. -/
theorem accounts_below (parts : Accounts code found) (own : rest.actions = construct.actions) :
    Accounts (code ++ rest) (construct :: found) := by
  rw [Accounts, Listing.actions_append, List.flatMap_cons, own]
  exact (parts.append_right _).trans List.perm_append_comm

/-- The instructions of a construct may also stand around and between those of its parts. -/
theorem accounts_join {left right : Listing} (onLeft : Accounts left found)
    (onRight : Accounts right others)
    (actions : ∀ action, code.actions.count action = left.actions.count action +
      right.actions.count action + construct.actions.count action) :
    Accounts code (construct :: (found ++ others)) := by
  apply List.perm_iff_count.mpr
  intro action
  rw [List.flatMap_cons, List.flatMap_append, List.count_append, List.count_append,
    ← onLeft.count_eq action, ← onRight.count_eq action, actions action]
  omega

end Rules

section Layouts
variable {left right test : Evaluated} {first second body : Listing} {result : Name}
  {next success failure entry exit : Label} {found others : List Construct}

/-- A disjunction does what it and its sides ask for. -/
theorem orCode_accounts (onLeft : Accounts left.code found) (onRight : Accounts right.code others) :
    Accounts (orCode left right result next success failure exit) (.or :: (found ++ others)) := by
  apply accounts_join onLeft onRight
  intro action
  simp only [orCode, truthTail, Listing.actions_append, Listing.actions_cons, Listing.actions_nil,
    Quad.action, Construct.actions, List.count_append, List.count_cons, List.count_nil]
  omega

/-- A conjunction does what it and its sides ask for. -/
theorem andCode_accounts (onLeft : Accounts left.code found) (onRight : Accounts right.code others) :
    Accounts (andCode left right result failure exit) (.and :: (found ++ others)) := by
  apply accounts_join onLeft onRight
  intro action
  simp only [andCode, truthTail, Listing.actions_append, Listing.actions_cons, Listing.actions_nil,
    Quad.action, Construct.actions, List.count_append, List.count_cons, List.count_nil]
  omega

/-- Either side of a branch may come first. -/
theorem branchCode_accounts {sides : Listing} (onTest : Accounts test.code found)
    (onSides : Accounts sides others) (exchange : sides.Perm (first ++ second)) :
    Accounts (branchCode test first second failure exit) (.branch :: (found ++ others)) := by
  apply accounts_join onTest onSides
  intro action
  have same : sides.actions.count action = (first ++ second).actions.count action :=
    (exchange.map Quad.action).count_eq action
  simp only [same, branchCode, Listing.actions_append, Listing.actions_cons, Listing.actions_nil,
    Quad.action, Construct.actions, List.count_append, List.count_cons, List.count_nil]
  omega

/-- A loop does what it, its condition and its body ask for. -/
theorem loopCode_accounts (onTest : Accounts test.code found) (onBody : Accounts body others) :
    Accounts (loopCode test body entry exit) (.loop :: (found ++ others)) := by
  apply accounts_join onTest onBody
  intro action
  simp only [loopCode, Listing.actions_append, Listing.actions_cons, Listing.actions_nil,
    Quad.action, Construct.actions, List.count_append, List.count_cons, List.count_nil]
  omega

end Layouts

section Parts
variable {scope : Scope} {before after : Supply} {result : Evaluated}

/-- The action of a conversion depends on its two types. -/
theorem conversion_action (source target : Scalar) (place : Name) (value : Value) :
    (conversion source target place value).action = source.conversion target := by
  cases source <;> cases target <;> rfl

/-- A conversion is emitted for the type that its operand has in the program. -/
theorem conversion_accounts {operand : Expr} {assigned : Bool}
    (onOperand : Expr.Lowers scope operand before result after)
    (accounts : Accounts result.code (operand.constructs scope false)) (target : Scalar)
    (place : Name) :
    Accounts (result.code ++ [conversion result.scalar target place result.value])
      ((Expr.cast target operand).constructs scope assigned) := by
  apply accounts_below accounts
  rw [← lowerExpr_typeIn (lowerExpr_iff.mp onOperand), Listing.actions_cons, conversion_action]
  rfl

/-- Every operation of an expression is emitted. -/
theorem Expr.Lowers.accounts {value : Expr} (lowers : Expr.Lowers scope value before result after) :
    Accounts result.code (value.constructs scope false) := by
  induction lowers with
  | literal | identifier _ => exact .refl _
  | binary _ _ left right => exact accounts_below (accounts_append left right) rfl
  | cast onOperand operand => exact conversion_accounts onOperand operand _ _

/-- An assignment is emitted as the last operation of its value, or as a copy. -/
theorem Expr.LowersTo.accounts {target : Ident} {value : Expr} {code : Listing}
    (lowers : Expr.LowersTo scope target value before code after) :
    Accounts code (value.constructs scope true) := by
  cases lowers with
  | literal | identifier => exact .refl _
  | binary onLeft onRight =>
      exact accounts_below (accounts_append onLeft.accounts onRight.accounts) rfl
  | cast onOperand => exact conversion_accounts onOperand onOperand.accounts _ _

/-- A relation is lowered to the actions of its sign. -/
theorem lowerRelation_actions {scalar : Scalar} {op : RelOp} {left right : Value}
    (lowered : lowerRelation scope scalar op left right before = .ok result after) :
    result.code.actions = op.construct.actions := by
  cases op <;> cases lowered <;> rfl

/-- Every part of a condition is emitted. -/
theorem Condition.Lowers.accounts {test : Condition}
    (lowers : Condition.Lowers scope test before result after) :
    Accounts result.code (test.constructs scope) := by
  induction lowers with
  | or _ _ left right => exact orCode_accounts left right
  | and _ _ left right => exact andCode_accounts left right
  | not _ operand => exact accounts_below operand rfl
  | relation onLeft onRight related =>
      exact accounts_below (accounts_append onLeft.accounts onRight.accounts)
        (lowerRelation_actions related)

end Parts

section Statements
variable {scope : Scope} {body : List Statement} {before after : Supply} {code : Listing}

/-- Every part of a program that is lowered as a whole is emitted. -/
theorem Lowers.accounts (lowers : Lowers scope body before code after) :
    Accounts code (Statement.constructsOf scope body) := by
  induction lowers with
  | nil => exact .refl _
  | cons _ _ start below =>
      rw [Statement.constructsOf_singleton] at start
      exact accounts_append start below
  | assign lowered =>
      rw [Statement.constructsOf_singleton]
      exact (lowerAssign_lowers lowered).accounts
  | input lowered =>
      obtain ⟨scalar, _, rfl, rfl⟩ := lowerInput_ok.mp lowered
      exact .refl _
  | output lowered =>
      obtain ⟨result, lowerValue, rfl⟩ := lowerOutput_ok.mp lowered
      rw [Statement.constructsOf_singleton]
      exact accounts_below (lowerExpr_iff.mpr lowerValue).accounts rfl
  | branch plain lowered _ _ onYes onNo =>
      rw [Statement.constructsOf_singleton] at onYes onNo ⊢
      rw [Statement.constructs, Condition.positive_of_plain plain]
      exact branchCode_accounts (lowerCondition_lowers lowered).accounts (accounts_append onYes onNo)
        (List.Perm.refl _)
  | exchanged lowered _ _ onYes onNo =>
      rw [Statement.constructsOf_singleton] at onYes onNo ⊢
      exact branchCode_accounts (lowerCondition_lowers lowered).accounts (accounts_append onYes onNo)
        List.perm_append_comm
  | loop lowered _ inside =>
      rw [Statement.constructsOf_singleton] at inside ⊢
      exact loopCode_accounts (lowerCondition_lowers lowered).accounts inside
  | block _ inside =>
      rw [Statement.constructsOf_singleton]
      exact inside

/-- The variables that the code writes are the targets of the statements. -/
theorem Lowers.targets (lowers : Lowers scope body before code after) :
    (code.varWrites.map Prod.fst).Perm (Statement.targetsOf body) := by
  induction lowers with
  | nil => exact .refl _
  | cons _ _ start below =>
      rw [Statement.targetsOf_singleton] at start
      rw [Listing.varWrites_append, List.map_append]
      exact start.append below
  | assign lowered =>
      rw [lowerAssign_writes lowered]
      exact .refl _
  | input lowered =>
      rw [lowerInput_writes lowered]
      exact .refl _
  | output lowered =>
      rw [lowerOutput_writes lowered]
      exact .refl _
  | branch _ lowered _ _ onYes onNo =>
      rw [Statement.targetsOf_singleton] at onYes onNo ⊢
      rw [branchCode_writes, lowerCondition_writes lowered, List.nil_append, List.map_append]
      exact onYes.append onNo
  | exchanged lowered _ _ onYes onNo =>
      rw [Statement.targetsOf_singleton] at onYes onNo ⊢
      rw [branchCode_writes, lowerCondition_writes lowered, List.nil_append, List.map_append]
      exact List.perm_append_comm.trans (onYes.append onNo)
  | loop lowered _ inside =>
      rw [Statement.targetsOf_singleton] at inside ⊢
      rw [loopCode_writes, lowerCondition_writes lowered, List.nil_append]
      exact inside
  | block _ inside =>
      rw [Statement.targetsOf_singleton]
      exact inside

end Statements

/-- How often each action is done for the parts of a program. -/
structure Tallies (tally : Action → Nat) (found : List Construct) : Prop where
  arith : ∀ op, tally (.arith op) = found.countP (Construct.isBinary op)
  input : tally .input = found.count .input
  print : tally .print = found.count .output
  toReal : tally .toReal = found.countP (Construct.isCast .int .float)
  toInt : tally .toInt = found.countP (Construct.isCast .float .int)
  assign : tally .assign = found.countP (Construct.isCast .int .int) +
    found.countP (Construct.isCast .float .float) + found.count .copy +
    2 * (found.count .or + found.count .and + found.count .inclusive)
  compare : tally .compare =
    found.count .comparison + 2 * found.count .inclusive + found.count .not
  jumpIfZero : tally .jumpIfZero = found.count .branch + found.count .loop +
    2 * (found.count .or + found.count .and + found.count .inclusive)
  jump : tally .jump = found.count .branch + found.count .loop +
    2 * (found.count .or + found.count .inclusive) + found.count .and
  mark : tally .mark = 2 * found.count .branch + 2 * found.count .loop +
    4 * (found.count .or + found.count .inclusive) + 2 * found.count .and

section Totals
variable {tally more : Action → Nat} {found others : List Construct}

/-- All numbers of actions are sums over the parts. -/
theorem tallies_append (start : Tallies tally found) (below : Tallies more others) :
    Tallies (fun action => tally action + more action) (found ++ others) := by
  constructor <;> simp only [List.count_append, List.countP_append]
  case arith =>
    intro op
    rw [start.arith op, below.arith op]
  case input => rw [start.input, below.input]
  case print => rw [start.print, below.print]
  case toReal => rw [start.toReal, below.toReal]
  case toInt => rw [start.toInt, below.toInt]
  case assign =>
    rw [start.assign, below.assign]
    omega
  case compare =>
    rw [start.compare, below.compare]
    omega
  case jumpIfZero =>
    rw [start.jumpIfZero, below.jumpIfZero]
    omega
  case jump =>
    rw [start.jump, below.jump]
    omega
  case mark =>
    rw [start.mark, below.mark]
    omega

/-- The actions of one construct are tallied by it. -/
theorem tallies_single (construct : Construct) :
    Tallies (construct.actions.count ·) [construct] := by
  cases construct with
  | binary op assigned =>
      constructor <;> try rfl
      intro other
      simp [Construct.actions, Construct.isBinary, List.count_singleton, List.countP_singleton]
  | cast source target assigned =>
      cases source <;> cases target <;> constructor <;> intros <;> rfl
  | copy | comparison | inclusive | or | and | not | input | output | branch | loop =>
      constructor <;> intros <;> rfl

/-- The actions of constructs are tallied by them. -/
theorem tallies_flatMap (found : List Construct) :
    Tallies ((found.flatMap Construct.actions).count ·) found := by
  induction found with
  | nil => constructor <;> intros <;> rfl
  | cons construct rest ih =>
      simp only [List.flatMap_cons, List.count_append]
      exact tallies_append (tallies_single construct) ih

/-- Code that does what its constructs ask for is tallied by them. -/
theorem Accounts.tallies {code : Listing} (accounts : Accounts code found) :
    Tallies code.tally found := by
  have same : code.tally = ((found.flatMap Construct.actions).count ·) :=
    funext fun action => accounts.count_eq action
  rw [same]
  exact tallies_flatMap found

end Totals

/-- The final halt is not counted. -/
theorem complete_tallies {code : Listing} {found : List Construct}
    (tallies : Tallies code.tally found) : Tallies code.complete.tally found := by
  have final : Tallies ([Action.halt].count ·) [] := by constructor <;> intros <;> rfl
  have same :
      code.complete.tally = fun action => code.tally action + [Action.halt].count action := by
    funext action
    rw [Listing.tally, Listing.complete, Listing.actions_append, List.count_append]
    rfl
  rw [same, ← List.append_nil found]
  exact tallies_append tallies final

/-- A variable is written by the instructions that have it as their target. -/
theorem write_var {quad : Quad} {name : String} :
    quad.write?.map Prod.fst = some name ↔ quad.target? = some (.var name) := by
  cases quad with
  | print _ _ | jump _ | jumpIfZero _ _ | mark _ | halt => simp [Quad.write?, Quad.target?]
  | assign _ target _ | input _ target | arith _ _ target _ _ | compare _ _ target _ _
  | toReal target _ | toInt target _ =>
      cases target <;> simp [Quad.write?, Quad.target?, Quad.written?]

/-- A declared variable is written where an instruction names it as its target. -/
theorem count_varWrites {scope : Scope} {constants : Set Literal} {code : Listing} {name : String}
    (within : code.Within (scope.vocabulary constants)) (declared : scope.contains name = true) :
    code.countP (fun quad => quad.target?.map Name.text = some name) =
      (code.varWrites.map Prod.fst).count name := by
  rw [Listing.varWrites, List.map_filterMap, List.count_filterMap]
  apply List.countP_congr
  intro quad member
  rw [decide_eq_true_eq, beq_iff_eq, write_var, Option.map_eq_some_iff]
  constructor
  · rintro ⟨target, written, named⟩
    have mentioned : Value.name target ∈ quad.mentions := by simp [Quad.mentions, written]
    have known := within _ (List.mem_flatMap.mpr ⟨quad, member, mentioned⟩)
    have variableKnown : Value.name (.var name) ∈ scope.vocabulary constants := declared
    rw [written, name_text_injective known variableKnown named]
  · intro written
    exact ⟨.var name, written, rfl⟩

/-- Whatever a program without errors is made of is emitted once. A declared variable is written as
often as statements have it as their target. -/
theorem generate_tallies {scope : Scope} {body : List Statement}
    (clean : (generate scope body).errors = []) :
    let program := (generate scope body).program
    Tallies program.tally (Statement.constructsOf scope body) ∧
      ∀ name, scope.contains name = true →
        program.countP (fun quad => quad.target?.map Name.text = some name) =
          (Statement.targetsOf body).count name := by
  obtain ⟨after, lowers⟩ := generate_lowers clean
  refine ⟨complete_tallies lowers.accounts.tallies, ?_⟩
  intro name declared
  have within : (generate scope body).program.Within (scope.vocabulary Set.univ) :=
    generate_within fun _ _ => Set.mem_univ _
  rw [count_varWrites within declared, ← lowers.targets.count_eq name]
  simp [Generated.program, Listing.complete, Quad.write?, Quad.target?]

/-- The negation in front of the branch is not emitted, but the one within the loop's condition is,
and `x` is written once by each of three statements. -/
theorem halving_tallies :
    let scope : Scope := ⟨[("x", .int), ("t1", .float)]⟩
    let program := (generate scope halving).program
    (generate scope halving).errors = [] ∧ program.tally .compare = 5 ∧ program.tally .jump = 5 ∧
      program.tally .toReal = 1 ∧ scope.contains "x" = true ∧
      program.countP (fun quad => quad.target?.map Name.text = some "x") = 3 := by
  intro scope program
  have clean : (generate scope halving).errors = [] := by decide
  have declared : scope.contains "x" = true := by decide
  obtain ⟨tallies, targets⟩ := generate_tallies clean
  exact ⟨clean, tallies.compare.trans (by decide), tallies.jump.trans (by decide),
    tallies.toReal.trans (by decide), declared, (targets "x" declared).trans (by decide)⟩

end Cpl
