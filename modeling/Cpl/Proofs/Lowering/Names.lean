import Cpl.Proofs.Grammar.Literals
import Cpl.Proofs.Quad.Text
import Cpl.Proofs.Scope.Declarations
import Cpl.Proofs.Scope.FreeIndices

namespace Cpl

/-- What code for a program may mention: declared variables, temporaries with a name of their own,
and some constants besides the two truths. -/
def Scope.vocabulary (scope : Scope) (constants : Set Literal) : Set Value := {value |
  match value with
  | .literal constant => constant ∈ constants ∨ value = flag 0 ∨ value = flag 1
  | .name (.var name) => scope.contains name = true
  | .name (.temp index) => scope.contains (Name.temp index).text = false}

/-- A result and its code mention only some values. -/
structure Evaluated.Within (words : Set Value) (result : Evaluated) : Prop where
  value : result.value ∈ words
  code : result.code.Within words

section Yields
variable {A B : Type} {first : Lowering A} {next : A → Lowering B}

/-- Whatever a lowering succeeds with has a property. -/
def Yields (property : A → Prop) (lowering : Lowering A) : Prop :=
  ∀ before value after, lowering before = .ok value after → property value

/-- A value with a property is yielded with it. -/
theorem yields_pure {property : A → Prop} {value : A} (holds : property value) :
    Yields property (pure value) := by
  rintro before _ after ⟨rfl, rfl⟩
  exact holds

/-- The second of two lowerings yields a property if it does after what the first one yields. -/
theorem yields_bind {property : A → Prop} {other : B → Prop} (start : Yields property first)
    (later : ∀ value, property value → Yields other (next value)) :
    Yields other (first >>= next) := by
  intro before result after done
  obtain ⟨value, middle, lowered, rest⟩ := lowering_bind_ok.mp done
  exact later value (start before value middle lowered) middle result after rest

end Yields

section Parts
variable (scope : Scope) (constants : Set Literal)

/-- A name that is found is declared. -/
theorem resolve_yields (ident : Ident) :
    Yields (fun _ => scope.contains ident.name = true) (resolve scope ident) := by
  intro before scalar after done
  obtain ⟨found, _⟩ := resolve_ok.mp done
  rw [Scope.contains, found]
  rfl

/-- The next temporary is in the vocabulary. -/
theorem nextTemp_within (last : Nat) :
    .name (.temp (scope.nextTemp last)) ∈ scope.vocabulary constants := scope.nextTemp_free last

/-- New temporaries are in the vocabulary. -/
theorem freshTemp_yields :
    Yields (fun place => .name place ∈ scope.vocabulary constants) (freshTemp scope) := by
  rintro before _ after ⟨rfl, rfl⟩
  exact nextTemp_within scope constants before.temps

/-- Destinations are in the vocabulary if the place that is offered is. -/
theorem destination_yields {slot : Option Name}
    (offered : ∀ place ∈ slot, .name place ∈ scope.vocabulary constants) :
    Yields (fun place => .name place ∈ scope.vocabulary constants) (destination scope slot) := by
  cases slot with
  | none => exact freshTemp_yields scope constants
  | some place => exact yields_pure (offered place rfl)

variable {scope constants}

@[simp] theorem no_within : flag 0 ∈ scope.vocabulary constants := Or.inr (Or.inl rfl)

@[simp] theorem yes_within : flag 1 ∈ scope.vocabulary constants := Or.inr (Or.inr rfl)

/-- A conversion mentions its place and its value only. -/
theorem conversion_within {words : Set Value} {source target : Scalar} {place : Name} {value : Value}
    (written : .name place ∈ words) (read : value ∈ words) :
    ∀ mentioned ∈ (conversion source target place value).mentions, mentioned ∈ words := by
  cases source <;> cases target <;>
    simp [conversion, Quad.mentions, Quad.target?, Quad.operands, written, read]

/-- Expressions are lowered to code over the vocabulary. -/
theorem lowerExpr_within {slot : Option Name} {value : Expr}
    (offered : ∀ place ∈ slot, .name place ∈ scope.vocabulary constants)
    (known : ∀ literal ∈ value.literals, literal ∈ constants) :
    Yields (Evaluated.Within (scope.vocabulary constants)) (lowerExpr scope slot value) := by
  induction value generalizing slot with
  | literal value => exact yields_pure ⟨Or.inl (known value (List.mem_singleton.mpr rfl)), by simp⟩
  | identifier ident =>
      refine yields_bind (resolve_yields scope ident) fun _ declared => ?_
      exact yields_pure ⟨declared, by simp⟩
  | binary op left right leftWithin rightWithin =>
      obtain ⟨leftKnown, rightKnown⟩ := List.forall_mem_append.mp known
      refine yields_bind (leftWithin (by simp) leftKnown) fun left leftUses => ?_
      refine yields_bind (rightWithin (by simp) rightKnown) fun right rightUses => ?_
      refine yields_bind (destination_yields scope constants offered) fun target written => ?_
      refine yields_pure ⟨written, ?_⟩
      simp [leftUses.code, rightUses.code, Quad.mentions, Quad.target?, Quad.operands, written,
        leftUses.value, rightUses.value]
  | cast result operand operandWithin =>
      refine yields_bind (operandWithin (by simp) known) fun operand uses => ?_
      refine yields_bind (destination_yields scope constants offered) fun target written => ?_
      refine yields_pure ⟨written, ?_⟩
      simp only [Listing.within_append, Listing.within_cons, Listing.within_nil, and_true]
      exact ⟨uses.code, conversion_within written uses.value⟩

section Sides
variable {left right : Evaluated} (leftUses : left.Within (scope.vocabulary constants))
  (rightUses : right.Within (scope.vocabulary constants))
include leftUses rightUses

/-- Disjunctions of code over the vocabulary are code over it. -/
theorem lowerOr_within :
    Yields (Evaluated.Within (scope.vocabulary constants)) (lowerOr scope left right) := by
  intro before result after done
  rw [lowerOr_eq] at done
  cases done
  have written := nextTemp_within scope constants before.temps
  refine ⟨written, ?_⟩
  simp [orCode, truthTail, Quad.mentions, Quad.target?, Quad.operands, leftUses.code,
    leftUses.value, rightUses.code, rightUses.value, written]

/-- Conjunctions of code over the vocabulary are code over it. -/
theorem lowerAnd_within :
    Yields (Evaluated.Within (scope.vocabulary constants)) (lowerAnd scope left right) := by
  intro before result after done
  rw [lowerAnd_eq] at done
  cases done
  have written := nextTemp_within scope constants before.temps
  refine ⟨written, ?_⟩
  simp [andCode, truthTail, Quad.mentions, Quad.target?, Quad.operands, leftUses.code,
    leftUses.value, rightUses.code, rightUses.value, written]

end Sides

section Comparison
variable {left right : Value} (leftKnown : left ∈ scope.vocabulary constants)
  (rightKnown : right ∈ scope.vocabulary constants)
include leftKnown rightKnown

/-- Comparisons of values of the vocabulary are code over it. -/
theorem lowerCompare_within (scalar : Scalar) (op : CmpOp) :
    Yields (Evaluated.Within (scope.vocabulary constants))
      (lowerCompare scope scalar op left right) := by
  refine yields_bind (freshTemp_yields scope constants) fun result written => ?_
  refine yields_pure ⟨written, ?_⟩
  simp [Quad.mentions, Quad.target?, Quad.operands, written, leftKnown, rightKnown]

/-- Relations of values of the vocabulary are code over it. -/
theorem lowerRelation_within (scalar : Scalar) (op : RelOp) :
    Yields (Evaluated.Within (scope.vocabulary constants))
      (lowerRelation scope scalar op left right) := by
  have compared := lowerCompare_within leftKnown rightKnown scalar
  have either (strict : CmpOp) : Yields (Evaluated.Within (scope.vocabulary constants))
      (lowerOrEqual scope scalar strict left right) := by
    refine yields_bind (compared .equal) fun equal equalUses => ?_
    refine yields_bind (compared strict) fun unequal unequalUses => ?_
    exact lowerOr_within equalUses unequalUses
  cases op with
  | equal => exact compared .equal
  | notEqual => exact compared .notEqual
  | less => exact compared .less
  | greater => exact compared .greater
  | lessEqual => exact either .less
  | greaterEqual => exact either .greater

end Comparison

/-- Conditions are lowered to code over the vocabulary. -/
theorem lowerCondition_within {test : Condition}
    (known : ∀ literal ∈ test.literals, literal ∈ constants) :
    Yields (Evaluated.Within (scope.vocabulary constants)) (lowerCondition scope test) := by
  induction test with
  | or left right leftWithin rightWithin =>
      obtain ⟨leftKnown, rightKnown⟩ := List.forall_mem_append.mp known
      refine yields_bind (leftWithin leftKnown) fun left leftUses => ?_
      exact yields_bind (rightWithin rightKnown) fun right => lowerOr_within leftUses
  | and left right leftWithin rightWithin =>
      obtain ⟨leftKnown, rightKnown⟩ := List.forall_mem_append.mp known
      refine yields_bind (leftWithin leftKnown) fun left leftUses => ?_
      exact yields_bind (rightWithin rightKnown) fun right => lowerAnd_within leftUses
  | not operand operandWithin =>
      refine yields_bind (operandWithin known) fun operand uses => ?_
      refine yields_bind (freshTemp_yields scope constants) fun result written => ?_
      refine yields_pure ⟨written, ?_⟩
      simp [uses.code, Quad.mentions, Quad.target?, Quad.operands, written, uses.value]
  | relation op left right =>
      obtain ⟨leftKnown, rightKnown⟩ := List.forall_mem_append.mp known
      refine yields_bind (lowerExpr_within (by simp) leftKnown) fun left leftUses => ?_
      refine yields_bind (lowerExpr_within (by simp) rightKnown) fun right rightUses => ?_
      refine yields_bind (lowerRelation_within leftUses.value rightUses.value _ op)
        fun compared uses => ?_
      refine yields_pure ⟨uses.value, ?_⟩
      simp [leftUses.code, rightUses.code, uses.code]

end Parts

section Statements
variable {scope : Scope} {constants : Set Literal}

/-- Assignments are lowered to code over the vocabulary. -/
theorem lowerAssign_within {target : Ident} {value : Expr}
    (known : ∀ literal ∈ value.literals, literal ∈ constants) :
    Yields (Listing.Within (scope.vocabulary constants)) (lowerAssign scope target value) := by
  refine yields_bind (resolve_yields scope target) fun scalar declared => ?_
  have written : .name (.var target.name) ∈ scope.vocabulary constants := declared
  refine yields_bind (lowerExpr_within (by simpa using written) known) fun result uses => ?_
  cases value with
  | literal _ | identifier _ =>
      apply yields_pure
      simp [uses.code, Quad.mentions, Quad.target?, Quad.operands, written, uses.value]
  | binary _ _ _ | cast _ _ => exact yields_pure uses.code

/-- Inputs are lowered to code over the vocabulary. -/
theorem lowerInput_within (target : Ident) :
    Yields (Listing.Within (scope.vocabulary constants)) (lowerInput scope target) := by
  refine yields_bind (resolve_yields scope target) fun scalar declared => ?_
  have written : .name (.var target.name) ∈ scope.vocabulary constants := declared
  apply yields_pure
  simp [Quad.mentions, Quad.target?, Quad.operands, written]

/-- Outputs are lowered to code over the vocabulary. -/
theorem lowerOutput_within {value : Expr} (known : ∀ literal ∈ value.literals, literal ∈ constants) :
    Yields (Listing.Within (scope.vocabulary constants)) (lowerOutput scope value) := by
  refine yields_bind (lowerExpr_within (by simp) known) fun result uses => ?_
  apply yields_pure
  simp [uses.code, Quad.mentions, Quad.target?, Quad.operands, uses.value]

/-- Code over some values is kept, or nothing is. -/
theorem keepOrDrop_within {words : Set Value} {lowering : Lowering Listing}
    (yields : Yields (Listing.Within words) lowering) (before : Supply) :
    (keepOrDrop lowering before).1.code.Within words := by
  unfold keepOrDrop
  split
  · rename_i lowered
    exact yields before _ _ lowered
  · exact Listing.within_nil

/-- Branches of code over some values are code over them. -/
theorem branchCode_within {words : Set Value} {test : Evaluated} {first second : Listing}
    (tested : test.Within words) (firstUses : first.Within words) (secondUses : second.Within words)
    (failure exit : Label) : (branchCode test first second failure exit).Within words := by
  simp [branchCode, Quad.mentions, Quad.target?, Quad.operands, tested.code, tested.value, firstUses,
    secondUses]

/-- Loops of code over some values are code over them. -/
theorem loopCode_within {words : Set Value} {test : Evaluated} {body : Listing}
    (tested : test.Within words) (uses : body.Within words) (entry exit : Label) :
    (loopCode test body entry exit).Within words := by
  simp [loopCode, Quad.mentions, Quad.target?, Quad.operands, tested.code, tested.value, uses]

/-- A condition without its outermost negation has the same constants. -/
theorem Condition.positive_literals (test : Condition) : test.positive.literals = test.literals := by
  cases test <;> rfl

mutual

/-- The code of a statement stays within the vocabulary, whether parts of it are left out or not. -/
theorem lowerStatement_within : ∀ (statement : Statement) (before : Supply),
    (∀ literal ∈ statement.literals, literal ∈ constants) →
      (lowerStatement scope statement before).1.code.Within (scope.vocabulary constants)
  | .assign target value, before, known => by
      rw [lowerStatement]
      exact keepOrDrop_within (lowerAssign_within known) before
  | .input target, before, _ => by
      rw [lowerStatement]
      exact keepOrDrop_within (lowerInput_within target) before
  | .output value, before, known => by
      rw [lowerStatement]
      exact keepOrDrop_within (lowerOutput_within known) before
  | .branch test yes no, before, known => by
      rw [Statement.literals, ← test.positive_literals] at known
      obtain ⟨front, noKnown⟩ := List.forall_mem_append.mp known
      obtain ⟨testKnown, yesKnown⟩ := List.forall_mem_append.mp front
      cases lowered : lowerCondition scope test.positive before with
      | error error afterTest =>
          rw [lowerStatement_branch_error lowered]
          exact Listing.within_nil
      | ok tested afterTest =>
          have testUses := lowerCondition_within testKnown before tested afterTest lowered
          have first := lowerStatement_within yes afterTest yesKnown
          have second := lowerStatement_within no (lowerStatement scope yes afterTest).2 noKnown
          rw [lowerStatement_branch_ok lowered]
          dsimp only
          split
          · exact branchCode_within testUses second first _ _
          · exact branchCode_within testUses first second _ _
  | .loop test body, before, known => by
      obtain ⟨testKnown, bodyKnown⟩ := List.forall_mem_append.mp known
      cases lowered : lowerCondition scope test ⟨before.temps, before.labels + 2⟩ with
      | error error afterTest =>
          rw [lowerStatement_loop_error lowered]
          exact Listing.within_nil
      | ok tested afterTest =>
          have testUses := lowerCondition_within testKnown _ tested afterTest lowered
          rw [lowerStatement_loop_ok lowered]
          exact loopCode_within testUses (lowerStatement_within body afterTest bodyKnown) _ _
  | .block body, before, known => by
      rw [lowerStatement]
      exact lowerStatements_within body before known

/-- Statements are lowered to code over the vocabulary. -/
theorem lowerStatements_within : ∀ (body : List Statement) (before : Supply),
    (∀ literal ∈ Statement.literalsOf body, literal ∈ constants) →
      (lowerStatements scope body before).1.code.Within (scope.vocabulary constants)
  | [], _, _ => Listing.within_nil
  | first :: later, before, known => by
      obtain ⟨firstKnown, laterKnown⟩ := List.forall_mem_append.mp known
      rw [lowerStatements]
      exact Listing.within_append.mpr ⟨lowerStatement_within first before firstKnown,
        lowerStatements_within later (lowerStatement scope first before).2 laterKnown⟩

end

/-- A program mentions nothing but its vocabulary. -/
theorem generate_within {body : List Statement}
    (known : ∀ literal ∈ Statement.literalsOf body, literal ∈ constants) :
    (generate scope body).program.Within (scope.vocabulary constants) := by
  refine Listing.within_append.mpr ⟨lowerStatements_within body ⟨0, 0⟩ known, ?_⟩
  simp [Quad.mentions, Quad.target?, Quad.operands]

end Statements

/-- The text of a variable or a temporary says which one it is, for none is named like another. -/
theorem name_text_injective {scope : Scope} {constants : Set Literal} {first second : Name}
    (known : .name first ∈ scope.vocabulary constants)
    (otherKnown : .name second ∈ scope.vocabulary constants) (same : first.text = second.text) :
    first = second := by
  cases first with
  | var name =>
      cases second with
      | var other => exact congrArg Name.var same
      | temp index =>
          have declared : scope.contains name = true := known
          have free : scope.contains (Name.temp index).text = false := otherKnown
          rw [← same] at free
          cases declared.symm.trans free
  | temp index =>
      cases second with
      | var name =>
          have free : scope.contains (Name.temp index).text = false := known
          have declared : scope.contains name = true := otherKnown
          rw [same] at free
          cases declared.symm.trans free
      | temp other => exact congrArg Name.temp (temp_text_injective same)

/-- The variables in a program are declared, and no temporary in it is named like a declared
variable. So names in it that have the same text are the same. -/
theorem generate_names (program : Program) :
    let declared := (program.declarations.flatMap Declaration.idents).map Ident.name
    let code := (generate (Scope.ofDeclarations program.declarations).1 program.body).program
    (∀ name, .name (.var name) ∈ code.mentions → name ∈ declared) ∧
      (∀ index, .name (.temp index) ∈ code.mentions → (Name.temp index).text ∉ declared) ∧
      (∀ first second : Name, .name first ∈ code.mentions → .name second ∈ code.mentions →
        first.text = second.text → first = second) := by
  intro declared code
  have within : code.Within
      ((Scope.ofDeclarations program.declarations).1.vocabulary Set.univ) :=
    generate_within fun _ _ => Set.mem_univ _
  refine ⟨fun name mentioned => ?_, fun index mentioned => ?_, ?_⟩
  · have contained : (Scope.ofDeclarations program.declarations).1.contains name = true :=
      within _ mentioned
    rw [Scope.ofDeclarations_contains] at contained
    exact of_decide_eq_true contained
  · have free : (Scope.ofDeclarations program.declarations).1.contains (Name.temp index).text =
        false := within _ mentioned
    rw [Scope.ofDeclarations_contains] at free
    exact of_decide_eq_false free
  · intro first second mentioned otherMentioned same
    exact name_text_injective (within _ mentioned) (within _ otherMentioned) same

end Cpl
