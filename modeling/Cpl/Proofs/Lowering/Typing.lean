import Cpl.Proofs.Lowering.Emission
import Cpl.Proofs.Quad.Typed
import Mathlib.Logic.Function.Basic
import Mathlib.Tactic.Tauto

namespace Cpl

/-- No type is chosen for a temporary past a bound. -/
def TempTypes.UpTo (temps : TempTypes) (bound : Nat) : Prop :=
  ∀ index, bound < index → temps index = none

/-- The values have the types that they are listed with. -/
def Holds (scope : Scope) (temps : TempTypes) (values : List (Value × Scalar)) : Prop :=
  ∀ entry ∈ values, entry.1.scalar? scope temps = some entry.2

/-- Given the types of some values, types can be chosen for the temporaries between two bounds so
that the code is well typed and the values after it have their types. -/
def Typable (scope : Scope) (given : List (Value × Scalar)) (low high : Nat) (code : Listing)
    (values : List (Value × Scalar)) : Prop :=
  ∀ temps : TempTypes, temps.UpTo low → Holds scope temps given →
    ∃ later : TempTypes, temps.Extends later ∧ later.UpTo high ∧ code.Typed scope later ∧
      Holds scope later values

section Rules
variable {scope : Scope} {low middle high : Nat} {code first second : Listing}
  {given needed values others : List (Value × Scalar)}

/-- Values keep their types when types are chosen for more temporaries. -/
theorem Holds.extends {temps later : TempTypes} (holds : Holds scope temps values)
    (more : temps.Extends later) : Holds scope later values :=
  fun entry member => Value.scalar?_extends more (holds entry member)

/-- Fewer values have their types. -/
theorem Holds.subset {temps : TempTypes} (holds : Holds scope temps values)
    (fewer : others ⊆ values) : Holds scope temps others :=
  fun entry member => holds entry (fewer member)

/-- Nothing needs to be chosen where there is no code. -/
theorem typable_nil (ordered : low ≤ high)
    (known : ∀ temps, Holds scope temps given → Holds scope temps values) :
    Typable scope given low high [] values := by
  intro temps bounded holds
  refine ⟨temps, temps.extends_refl, ?_, by simp [Listing.Typed], known temps holds⟩
  exact fun index past => bounded index (Nat.lt_of_le_of_lt ordered past)

/-- What was given is still there in the end. -/
theorem Typable.frame (typable : Typable scope given low high code values) :
    Typable scope given low high code (given ++ values) := by
  intro temps bounded holds
  obtain ⟨later, more, inside, typed, after⟩ := typable temps bounded holds
  exact ⟨later, more, inside, typed, List.forall_mem_append.mpr ⟨holds.extends more, after⟩⟩

/-- The order of instructions does not matter to their types. More may be given than is needed, and
less may be asked for. -/
theorem Typable.subset (typable : Typable scope needed low high first values)
    (enough : needed ⊆ given) (within : second ⊆ first) (fewer : others ⊆ values) :
    Typable scope given low high second others := by
  intro temps bounded holds
  obtain ⟨later, more, inside, typed, after⟩ := typable temps bounded (holds.subset enough)
  exact ⟨later, more, inside, fun quad member => typed quad (within member), after.subset fewer⟩

/-- Code after code is typable if its values have their types by then. -/
theorem typable_append (start : Typable scope given low middle first values)
    (rest : Typable scope needed middle high second others) (enough : needed ⊆ given ++ values) :
    Typable scope given low high (first ++ second) others := by
  intro temps bounded holds
  obtain ⟨middleTypes, chosen, within, firstTyped, kept⟩ := start.frame temps bounded holds
  obtain ⟨later, more, inside, secondTyped, after⟩ := rest middleTypes within (kept.subset enough)
  exact ⟨later, chosen.trans more, inside,
    List.forall_mem_append.mpr ⟨firstTyped.extends more, secondTyped⟩, after⟩

/-- Instructions for which the given types are enough. -/
theorem typable_plain (typed : ∀ temps, Holds scope temps given → code.Typed scope temps) :
    Typable scope given low low code [] :=
  fun temps bounded holds => ⟨temps, temps.extends_refl, bounded, typed temps holds, by simp [Holds]⟩

/-- Instructions that write a new temporary, at one type. -/
theorem typable_fresh {index : Nat} {scalar : Scalar} (fresh : low < index)
    (typed : ∀ temps : TempTypes, Holds scope temps given → temps index = some scalar →
      code.Typed scope temps) :
    Typable scope given low index code [(.name (.temp index), scalar)] := by
  intro temps bounded holds
  have added : temps.Extends (Function.update temps index (some scalar)) := by
    intro other found chosen
    have different : other ≠ index := by
      rintro rfl
      simp [bounded other fresh] at chosen
    rw [Function.update_of_ne different, chosen]
  have here : Function.update temps index (some scalar) index = some scalar :=
    Function.update_self ..
  refine ⟨Function.update temps index (some scalar), added, ?_, typed _ (holds.extends added) here, ?_⟩
  · intro other past
    rw [Function.update_of_ne (Nat.ne_of_gt past)]
    exact bounded other (Nat.lt_trans fresh past)
  · exact List.forall_mem_singleton.mpr here

end Rules

section Instructions
variable {scope : Scope} {temps : TempTypes} {left right value : Value} {place : Name}
  {first second source result : Scalar}

/-- A place may be written at a type. Variables may be written at any. -/
def Name.Accepts (temps : TempTypes) (place : Name) (scalar : Scalar) : Prop :=
  ∀ index, place = .temp index → temps index = some scalar

/-- A variable may be written at any type. -/
theorem var_accepts (name : String) (scalar : Scalar) : (Name.var name).Accepts temps scalar :=
  fun _ same => by cases same

/-- A temporary may be written at the type chosen for it. -/
theorem temp_accepts {index : Nat} {scalar : Scalar} (chosen : temps index = some scalar) :
    (Name.temp index).Accepts temps scalar := by
  rintro _ ⟨rfl⟩
  exact chosen

/-- Arithmetic at the wider type of its operands is well typed. -/
theorem arith_typed {op : ArithOp} (leftTyped : left.scalar? scope temps = some first)
    (rightTyped : right.scalar? scope temps = some second)
    (accepts : place.Accepts temps (first.promote second)) :
    (Quad.arith (first.promote second) op place left right).Typed scope temps where
  fits := ⟨first, second, leftTyped, rightTyped, rfl⟩
  written index target := accepts index (Option.some.inj target)

/-- A comparison at the wider type of its operands is well typed. -/
theorem compare_typed {op : CmpOp} (leftTyped : left.scalar? scope temps = some first)
    (rightTyped : right.scalar? scope temps = some second) (accepts : place.Accepts temps .int) :
    (Quad.compare (first.promote second) op place left right).Typed scope temps where
  fits := ⟨first, second, leftTyped, rightTyped, rfl⟩
  written index target := accepts index (Option.some.inj target)

/-- A copy at the type of its value is well typed. -/
theorem assign_typed (typed : value.scalar? scope temps = some source)
    (accepts : place.Accepts temps source) : (Quad.assign source place value).Typed scope temps where
  fits := by
    cases place with
    | var name => trivial
    | temp index => exact typed
  written index target := accepts index (Option.some.inj target)

/-- A conversion from the type of its value is well typed. -/
theorem conversion_typed (typed : value.scalar? scope temps = some source)
    (accepts : place.Accepts temps result) :
    (conversion source result place value).Typed scope temps := by
  cases source with
  | int =>
      cases result with
      | int => exact assign_typed typed accepts
      | float => exact ⟨typed, fun index target => accepts index (Option.some.inj target)⟩
  | float =>
      cases result with
      | int => exact ⟨typed, fun index target => accepts index (Option.some.inj target)⟩
      | float => exact assign_typed typed accepts

/-- A jump on an integer is well typed. -/
theorem jumpIfZero_typed {label : Label} (typed : value.scalar? scope temps = some .int) :
    (Quad.jumpIfZero label value).Typed scope temps :=
  Quad.typed_of_fits typed (by simp [Quad.target?])

theorem jump_typed (label : Label) : (Quad.jump label).Typed scope temps :=
  Quad.typed_of_fits trivial (by simp [Quad.target?])

theorem mark_typed (label : Label) : (Quad.mark label).Typed scope temps :=
  Quad.typed_of_fits trivial (by simp [Quad.target?])

/-- Both values of a truth tail are integers. -/
theorem truthTail_typed (failure exit : Label) (accepts : place.Accepts temps .int) :
    (truthTail place failure exit).Typed scope temps := by
  have stored (truth : Int32) : (Quad.assign .int place (flag truth)).Typed scope temps :=
    assign_typed rfl accepts
  simp [truthTail, Listing.Typed, stored, jump_typed, mark_typed]

end Instructions

section Parts
variable {scope : Scope} {before after : Supply} {result : Evaluated}

theorem holds_one {temps : TempTypes} {value : Value} {scalar : Scalar} :
    Holds scope temps [(value, scalar)] ↔ value.scalar? scope temps = some scalar :=
  List.forall_mem_singleton

theorem holds_two {temps : TempTypes} {left right : Value} {first second : Scalar} :
    Holds scope temps [(left, first), (right, second)] ↔
      left.scalar? scope temps = some first ∧ right.scalar? scope temps = some second := by
  simp [Holds]

/-- Two operands keep their types until both are there. -/
theorem operands_typable {left right : Evaluated} {low middle high : Nat}
    (leftTypable : Typable scope [] low middle left.code [(left.value, left.scalar)])
    (rightTypable : Typable scope [] middle high right.code [(right.value, right.scalar)]) :
    Typable scope [] low high (left.code ++ right.code)
      [(left.value, left.scalar), (right.value, right.scalar)] := by
  have kept := (rightTypable.subset (List.nil_subset [(left.value, left.scalar)])
    (List.Subset.refl _) (List.Subset.refl _)).frame
  exact typable_append leftTypable kept (List.Subset.refl _)

/-- An expression has its value where its type says, if it is not offered a place. -/
theorem lowerExpr_typable {value : Expr}
    (lowered : lowerExpr scope none value before = .ok result after) :
    Typable scope [] before.temps after.temps result.code [(result.value, result.scalar)] := by
  induction value generalizing before after result with
  | literal value =>
      obtain ⟨rfl, rfl⟩ := lowerExpr_literal.mp lowered
      exact typable_nil (Nat.le_refl _) fun _ _ => holds_one.mpr rfl
  | identifier ident =>
      obtain ⟨scalar, found, rfl, rfl⟩ := lowerExpr_identifier.mp lowered
      exact typable_nil (Nat.le_refl _) fun _ _ => holds_one.mpr found
  | binary op left right leftTypable rightTypable =>
      obtain ⟨leftResult, middle, rightResult, last, target, lowerLeft, lowerRight, chosen, rfl⟩ :=
        lowerExpr_binary.mp lowered
      obtain ⟨rfl, rfl⟩ := destination_none.mp chosen
      apply typable_append (operands_typable (leftTypable lowerLeft) (rightTypable lowerRight))
        (typable_fresh (nextTemp_gt scope last.temps) _) (List.Subset.refl _)
      intro temps holds here
      obtain ⟨leftTyped, rightTyped⟩ := holds_two.mp holds
      exact List.forall_mem_singleton.mpr (arith_typed leftTyped rightTyped (temp_accepts here))
  | cast target operand operandTypable =>
      obtain ⟨operandResult, last, place, lowerOperand, chosen, rfl⟩ := lowerExpr_cast.mp lowered
      obtain ⟨rfl, rfl⟩ := destination_none.mp chosen
      apply typable_append (operandTypable lowerOperand)
        (typable_fresh (nextTemp_gt scope last.temps) _) (List.Subset.refl _)
      intro temps holds here
      exact List.forall_mem_singleton.mpr (conversion_typed (holds_one.mp holds) (temp_accepts here))

/-- An expression that is offered a variable is well typed, whatever the type of the variable. -/
theorem lowerExpr_var_typable {value : Expr} {name : String}
    (lowered : lowerExpr scope (some (.var name)) value before = .ok result after) :
    Typable scope [] before.temps after.temps result.code [] := by
  cases value with
  | literal value =>
      obtain ⟨rfl, rfl⟩ := lowerExpr_literal.mp lowered
      exact typable_nil (Nat.le_refl _) fun _ => id
  | identifier ident =>
      obtain ⟨scalar, found, rfl, rfl⟩ := lowerExpr_identifier.mp lowered
      exact typable_nil (Nat.le_refl _) fun _ => id
  | binary op left right =>
      obtain ⟨leftResult, middle, rightResult, last, target, lowerLeft, lowerRight, chosen, rfl⟩ :=
        lowerExpr_binary.mp lowered
      obtain ⟨rfl, rfl⟩ := destination_some.mp chosen
      apply typable_append (operands_typable (lowerExpr_typable lowerLeft)
        (lowerExpr_typable lowerRight)) (typable_plain _) (List.Subset.refl _)
      intro temps holds
      obtain ⟨leftTyped, rightTyped⟩ := holds_two.mp holds
      exact List.forall_mem_singleton.mpr (arith_typed leftTyped rightTyped (var_accepts _ _))
  | cast target operand =>
      obtain ⟨operandResult, last, place, lowerOperand, chosen, rfl⟩ := lowerExpr_cast.mp lowered
      obtain ⟨rfl, rfl⟩ := destination_some.mp chosen
      apply typable_append (lowerExpr_typable lowerOperand) (typable_plain _) (List.Subset.refl _)
      intro temps holds
      exact List.forall_mem_singleton.mpr (conversion_typed (holds_one.mp holds) (var_accepts _ _))

section Sides
variable {given : List (Value × Scalar)} {left right : Evaluated} {low middle high index : Nat}

/-- A disjunction or a conjunction is typed like its sides: what stands between them only tests
their truth, and its own result is an integer. -/
theorem sides_typable {between decided : Listing} {failure exit : Label}
    (leftTypable : Typable scope given low middle left.code [(left.value, .int)])
    (rightTypable : Typable scope given middle high right.code [(right.value, .int)])
    (fresh : high < index)
    (tested : ∀ temps, left.value.scalar? scope temps = some .int → between.Typed scope temps)
    (settled : ∀ temps, right.value.scalar? scope temps = some .int → decided.Typed scope temps) :
    Typable scope given low index (left.code ++ between ++ right.code ++ decided ++
      truthTail (.temp index) failure exit) [(.name (.temp index), .int)] := by
  have chosen : Typable scope [(left.value, .int)] middle middle between [] :=
    typable_plain fun temps holds => tested temps (holds_one.mp holds)
  have joined : Typable scope [(right.value, .int)] high high decided [] :=
    typable_plain fun temps holds => settled temps (holds_one.mp holds)
  have stored : Typable scope [] high index (truthTail (.temp index) failure exit)
      [(.name (.temp index), .int)] :=
    typable_fresh fresh fun temps _ here => truthTail_typed failure exit (temp_accepts here)
  have first := typable_append leftTypable chosen (List.subset_append_right _ _)
  have second := typable_append first rightTypable (List.subset_append_left _ _)
  have third := typable_append second joined (List.subset_append_right _ _)
  exact typable_append third stored (List.nil_subset _)

/-- A disjunction is typable if its sides are. -/
theorem orCode_typable (next success failure exit : Label)
    (leftTypable : Typable scope given low middle left.code [(left.value, .int)])
    (rightTypable : Typable scope given middle high right.code [(right.value, .int)])
    (fresh : high < index) :
    Typable scope given low index (orCode left right (.temp index) next success failure exit)
      [(.name (.temp index), .int)] := by
  apply sides_typable leftTypable rightTypable fresh
  · intro temps typed
    simp [Listing.Typed, jumpIfZero_typed typed, jump_typed, mark_typed]
  · intro temps typed
    simp [Listing.Typed, jumpIfZero_typed typed, mark_typed]

/-- A conjunction is typable if its sides are. -/
theorem andCode_typable (failure exit : Label)
    (leftTypable : Typable scope given low middle left.code [(left.value, .int)])
    (rightTypable : Typable scope given middle high right.code [(right.value, .int)])
    (fresh : high < index) :
    Typable scope given low index (andCode left right (.temp index) failure exit)
      [(.name (.temp index), .int)] := by
  apply sides_typable leftTypable rightTypable fresh
  · intro temps typed
    simp [Listing.Typed, jumpIfZero_typed typed]
  · intro temps typed
    simp [Listing.Typed, jumpIfZero_typed typed]

end Sides

/-- A comparison of values of given types. -/
theorem compare_typable {op : CmpOp} {left right : Value} {first second : Scalar} {low index : Nat}
    (fresh : low < index) :
    Typable scope [(left, first), (right, second)] low index
      [.compare (first.promote second) op (.temp index) left right] [(.name (.temp index), .int)] := by
  apply typable_fresh fresh
  intro temps holds here
  obtain ⟨leftTyped, rightTyped⟩ := holds_two.mp holds
  exact List.forall_mem_singleton.mpr (compare_typed leftTyped rightTyped (temp_accepts here))

/-- A relation at the wider type of its sides is typable. -/
theorem lowerRelation_typable {op : RelOp} {left right : Value} {first second : Scalar}
    (lowered : lowerRelation scope (first.promote second) op left right before = .ok result after) :
    Typable scope [(left, first), (right, second)] before.temps after.temps result.code
      [(result.value, .int)] := by
  cases op with
  | equal | notEqual | less | greater =>
      cases lowered
      exact compare_typable (nextTemp_gt scope before.temps)
  | lessEqual | greaterEqual =>
      cases lowered
      exact orCode_typable _ _ _ _ (compare_typable (nextTemp_gt scope _))
        (compare_typable (nextTemp_gt scope _)) (nextTemp_gt scope _)

/-- The truth of a condition is an integer. -/
theorem lowerCondition_typable {test : Condition}
    (lowered : lowerCondition scope test before = .ok result after) :
    Typable scope [] before.temps after.temps result.code [(result.value, .int)] := by
  induction test generalizing before after result with
  | or left right leftTypable rightTypable =>
      obtain ⟨leftResult, middle, rightResult, last, lowerLeft, lowerRight, joined⟩ :=
        lowerCondition_or.mp lowered
      rw [lowerOr_eq] at joined
      cases joined
      exact orCode_typable _ _ _ _ (leftTypable lowerLeft) (rightTypable lowerRight)
        (nextTemp_gt scope last.temps)
  | and left right leftTypable rightTypable =>
      obtain ⟨leftResult, middle, rightResult, last, lowerLeft, lowerRight, joined⟩ :=
        lowerCondition_and.mp lowered
      rw [lowerAnd_eq] at joined
      cases joined
      exact andCode_typable _ _ (leftTypable lowerLeft) (rightTypable lowerRight)
        (nextTemp_gt scope last.temps)
  | not operand operandTypable =>
      obtain ⟨operandResult, last, lowerOperand, rfl, rfl⟩ := lowerCondition_not.mp lowered
      apply typable_append (operandTypable lowerOperand)
        (typable_fresh (nextTemp_gt scope last.temps) _) (List.Subset.refl _)
      intro temps holds here
      have zero : (flag 0).scalar? scope temps = some .int := rfl
      exact List.forall_mem_singleton.mpr
        (compare_typed (holds_one.mp holds) zero (temp_accepts here))
  | relation op left right =>
      obtain ⟨leftResult, middle, rightResult, last, compared, lowerLeft, lowerRight, related, rfl⟩ :=
        lowerCondition_relation.mp lowered
      exact typable_append (operands_typable (lowerExpr_typable lowerLeft)
        (lowerExpr_typable lowerRight)) (lowerRelation_typable related) (List.Subset.refl _)

end Parts

section Statements
variable {scope : Scope} {before after : Supply}

/-- A branch is typed like its condition and its sides, and either side may come first. -/
theorem branchCode_typable {test : Evaluated} {first second sides : Listing} {failure exit : Label}
    {low middle high : Nat}
    (testTypable : Typable scope [] low middle test.code [(test.value, .int)])
    (sidesTypable : Typable scope [] middle high sides []) (exchange : first ++ second ⊆ sides) :
    Typable scope [] low high (branchCode test first second failure exit) [] := by
  have tested : Typable scope [(test.value, .int)] middle middle
      [.jumpIfZero failure test.value, .jump exit, .mark failure, .mark exit] [] := by
    apply typable_plain
    intro temps holds
    simp [Listing.Typed, jumpIfZero_typed (holds_one.mp holds), jump_typed, mark_typed]
  have whole := typable_append (typable_append testTypable tested (List.Subset.refl _)) sidesTypable
    (List.nil_subset _)
  apply whole.subset (List.Subset.refl _) _ (List.Subset.refl _)
  intro quad member
  have moved : quad ∈ first ++ second → quad ∈ sides := fun side => exchange side
  simp only [branchCode, List.mem_append, List.mem_cons, List.not_mem_nil, or_false]
    at member moved ⊢
  tauto

/-- A loop is typable if its parts are. -/
theorem loopCode_typable {test : Evaluated} {body : Listing} {entry exit : Label}
    {low middle high : Nat}
    (testTypable : Typable scope [] low middle test.code [(test.value, .int)])
    (bodyTypable : Typable scope [] middle high body []) :
    Typable scope [] low high (loopCode test body entry exit) [] := by
  have tested : Typable scope [(test.value, .int)] middle middle
      [.mark entry, .jumpIfZero exit test.value, .jump entry, .mark exit] [] := by
    apply typable_plain
    intro temps holds
    simp [Listing.Typed, jumpIfZero_typed (holds_one.mp holds), jump_typed, mark_typed]
  have whole := typable_append (typable_append testTypable tested (List.Subset.refl _)) bodyTypable
    (List.nil_subset _)
  apply whole.subset (List.Subset.refl _) _ (List.Subset.refl _)
  intro quad member
  simp only [loopCode, List.mem_append, List.mem_cons, List.not_mem_nil, or_false] at member ⊢
  tauto

/-- What an assignment copies to its target may be of any type. -/
theorem copyCode_typed (scalar : Scalar) (name : String) (result : Value) (value : Expr)
    (temps : TempTypes) : (copyCode scalar (.var name) result value).Typed scope temps := by
  cases value with
  | literal _ | identifier _ =>
      exact List.forall_mem_singleton.mpr (Quad.typed_of_fits trivial (by simp [Quad.target?]))
  | binary _ _ _ | cast _ _ => exact fun quad member => absurd member List.not_mem_nil

/-- Everything that statements emit can be typed. -/
theorem Emits.typable {code : Listing} (emitted : Emits scope before code after) :
    Typable scope [] before.temps after.temps code [] := by
  induction emitted with
  | nothing grown => exact typable_nil grown.1 fun _ => id
  | @assign target value before after code lowered =>
      obtain ⟨scalar, result, _, lowerValue, rfl⟩ := lowerAssign_ok.mp lowered
      exact typable_append (lowerExpr_var_typable lowerValue)
        (typable_plain fun temps _ => copyCode_typed scalar target.name result.value value temps)
        (List.Subset.refl _)
  | input lowered =>
      obtain ⟨scalar, found, rfl, rfl⟩ := lowerInput_ok.mp lowered
      apply typable_plain
      intro temps _
      exact List.forall_mem_singleton.mpr
        (Quad.typed_of_fits ⟨_, rfl, found⟩ (by simp [Quad.target?]))
  | output lowered =>
      obtain ⟨result, lowerValue, rfl⟩ := lowerOutput_ok.mp lowered
      apply typable_append (lowerExpr_typable lowerValue) (typable_plain _) (List.Subset.refl _)
      intro temps holds
      exact List.forall_mem_singleton.mpr
        (Quad.typed_of_fits (holds_one.mp holds) (by simp [Quad.target?]))
  | branch lowered first second firstTypable secondTypable =>
      have sides := typable_append firstTypable secondTypable (List.Subset.refl _)
      exact branchCode_typable (lowerCondition_typable lowered) sides (List.Subset.refl _)
  | exchanged lowered first second firstTypable secondTypable =>
      have sides := typable_append firstTypable secondTypable (List.Subset.refl _)
      exact branchCode_typable (lowerCondition_typable lowered) sides
        List.perm_append_comm.subset
  | loop lowered inner innerTypable =>
      have tested := lowerCondition_typable lowered
      exact loopCode_typable tested innerTypable
  | append start rest startTypable restTypable =>
      exact typable_append startTypable restTypable (List.Subset.refl _)

/-- There are types for the temporaries of a program under which each of its instructions is well
typed. Those for which none was chosen do not occur, and may be of any type. -/
theorem generate_typed (scope : Scope) (body : List Statement) :
    ∃ temps : Nat → Scalar,
      (generate scope body).program.Typed scope fun index => some (temps index) := by
  obtain ⟨after, emitted⟩ := generate_emits scope body
  have ended : Typable scope [] after.temps after.temps [.halt] [] :=
    typable_plain fun temps _ => List.forall_mem_singleton.mpr
      (Quad.typed_of_fits trivial (by simp [Quad.target?]))
  obtain ⟨chosen, _, _, typed, _⟩ := typable_append emitted.typable ended (List.Subset.refl _)
    (fun _ => none) (fun _ _ => rfl) fun _ member => absurd member List.not_mem_nil
  refine ⟨fun index => (chosen index).getD .int, typed.extends ?_⟩
  intro index scalar found
  simp only [found, Option.getD_some]

end Statements

end Cpl
