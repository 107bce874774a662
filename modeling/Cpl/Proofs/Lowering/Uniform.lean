import Cpl.Proofs.Lowering.Emission
import Cpl.Proofs.Quad.Renumbering

namespace Cpl

/-- What is taken in two runs is paired in increasing order. -/
structure Pairing.Between (pairing : Pairing) (before after : Supply × Supply) : Prop where
  temps : Rising pairing.temps (before.1.temps, before.2.temps) (after.1.temps, after.2.temps)
  labels : Rising pairing.labels (before.1.labels, before.2.labels) (after.1.labels, after.2.labels)

section Between
variable {before middle after : Supply × Supply}

/-- No pairs are needed if nothing is taken. -/
theorem between_nil (grown : before ≤ after) : Pairing.Between ⟨[], []⟩ before after where
  temps := rising_nil ⟨grown.1.1, grown.2.1⟩
  labels := rising_nil ⟨grown.1.2, grown.2.2⟩

/-- Pairs of later runs follow those of earlier ones. -/
theorem between_append {first second : Pairing} (start : first.Between before middle)
    (rest : second.Between middle after) : (first ++ second).Between before after where
  temps := rising_append start.temps rest.temps
  labels := rising_append start.labels rest.labels

/-- A new temporary on each side makes a pair. -/
theorem between_temp (scope : Scope) (before : Supply × Supply) :
    Pairing.Between ⟨[(scope.nextTemp before.1.temps, scope.nextTemp before.2.temps)], []⟩ before
      (⟨scope.nextTemp before.1.temps, before.1.labels⟩,
        ⟨scope.nextTemp before.2.temps, before.2.labels⟩) where
  temps := rising_single ⟨nextTemp_gt scope _, nextTemp_gt scope _⟩
  labels := rising_nil (le_refl _)

/-- The next labels of two supplies are a pair. -/
theorem between_label (before : Supply × Supply) :
    Pairing.Between ⟨[], [(before.1.labels + 1, before.2.labels + 1)]⟩ before
      (⟨before.1.temps, before.1.labels + 1⟩, ⟨before.2.temps, before.2.labels + 1⟩) where
  temps := rising_nil (le_refl _)
  labels := rising_single ⟨Nat.lt_add_one _, Nat.lt_add_one _⟩

end Between

def Evaluated.renumber (numbers : Renumbering) (result : Evaluated) : Evaluated :=
  ⟨result.code.renumber numbers, result.scalar, result.value.renumber numbers⟩

section Runs
variable {A B : Type} {renumber : Renumbering → A → A} {also : Renumbering → B → B}

/-- Whenever one lowering succeeds from some supply, another one succeeds from any other, and its
result is the renumbered one. What the other lowers may be renumbered, too. -/
def Uniform (renumber : Renumbering → A → A) (one : Lowering A) (other : Renumbering → Lowering A) :
    Prop :=
  ∀ (before start : Supply) (value : A) (after : Supply), one before = .ok value after →
    ∃ pairing last, Pairing.Between pairing (before, start) (after, last) ∧
      ∀ numbers : Renumbering, numbers.Agrees pairing →
        other numbers start = .ok (renumber numbers value) last

/-- A value is lowered to its renumbered self. -/
theorem uniform_pure {value : A} {image : Renumbering → A}
    (same : ∀ numbers, image numbers = renumber numbers value) :
    Uniform renumber (pure value) fun numbers => pure (image numbers) := by
  rintro before start _ after ⟨rfl, rfl⟩
  refine ⟨⟨[], []⟩, start, between_nil (le_refl _), fun numbers _ => ?_⟩
  simp only [same]
  rfl

/-- Uniform lowerings are uniform one after the other. -/
theorem uniform_bind {one : Lowering A} {other : Renumbering → Lowering A} {next : A → Lowering B}
    {image : Renumbering → A → Lowering B} (first : Uniform renumber one other)
    (later : ∀ value, Uniform also (next value) fun numbers =>
      image numbers (renumber numbers value)) :
    Uniform also (one >>= next) fun numbers => other numbers >>= image numbers := by
  intro before start result after done
  obtain ⟨value, middle, lowered, rest⟩ := lowering_bind_ok.mp done
  obtain ⟨early, reached, paired, same⟩ := first before start value middle lowered
  obtain ⟨late, last, pairedLater, sameLater⟩ := later value middle reached result after rest
  refine ⟨early ++ late, last, between_append paired pairedLater, fun numbers agrees => ?_⟩
  obtain ⟨agreesEarly, agreesLate⟩ := agrees_append.mp agrees
  exact lowering_bind_ok.mpr ⟨_, reached, same numbers agreesEarly, sameLater numbers agreesLate⟩

/-- A lowering that is not renumbered itself has one result, which agrees with all renumberings. -/
theorem Uniform.image {one other : Lowering A} {before after : Supply} {value : A}
    (uniform : Uniform renumber one fun _ => other) (lowered : one before = .ok value after)
    (start : Supply) :
    ∃ pairing image last, other start = .ok image last ∧
      Pairing.Between pairing (before, start) (after, last) ∧
      ∀ numbers : Renumbering, numbers.Agrees pairing → image = renumber numbers value := by
  obtain ⟨pairing, last, paired, same⟩ := uniform before start value after lowered
  have done := same _ (Pairing.numbers_agrees paired.temps.increasing paired.labels.increasing)
  refine ⟨pairing, _, last, done, paired, fun numbers agrees => ?_⟩
  have equal := done.symm.trans (same numbers agrees)
  injection equal

end Runs

section Lowering
variable (scope : Scope)

/-- Taking a temporary is uniform. -/
theorem freshTemp_uniform : Uniform Name.renumber (freshTemp scope) fun _ => freshTemp scope := by
  rintro before start _ after ⟨rfl, rfl⟩
  refine ⟨_, _, between_temp scope (before, start), fun numbers agrees => ?_⟩
  have taken := agrees.temps _ (List.mem_singleton.mpr rfl)
  simp only [freshTemp, Supply.temp, Name.renumber, taken]

/-- Taking a label is uniform. -/
theorem freshLabel_uniform : Uniform Label.renumber freshLabel fun _ => freshLabel := by
  rintro before start _ after ⟨rfl, rfl⟩
  refine ⟨_, _, between_label (before, start), fun numbers agrees => ?_⟩
  have taken := agrees.labels _ (List.mem_singleton.mpr rfl)
  simp only [freshLabel, Supply.label, Label.renumber, taken]

/-- Looking up a name is uniform. -/
theorem resolve_uniform (ident : Ident) :
    Uniform (fun _ scalar => scalar) (resolve scope ident) fun _ => resolve scope ident := by
  intro before start scalar after done
  obtain ⟨found, rfl⟩ := resolve_ok.mp done
  exact ⟨⟨[], []⟩, start, between_nil (le_refl _), fun _ _ => resolve_ok.mpr ⟨found, rfl⟩⟩

/-- Choosing a destination is uniform. -/
theorem destination_uniform (slot : Option Name) :
    Uniform Name.renumber (destination scope slot) fun numbers =>
      destination scope (slot.map (Name.renumber numbers)) := by
  cases slot with
  | none => exact freshTemp_uniform scope
  | some name => exact uniform_pure fun _ => rfl

/-- A conversion is renumbered in its place and its value. -/
theorem conversion_renumber (numbers : Renumbering) (source target : Scalar) (place : Name)
    (value : Value) : (conversion source target place value).renumber numbers =
      conversion source target (place.renumber numbers) (value.renumber numbers) := by
  cases source <;> cases target <;> rfl

/-- Lowering an expression is uniform. -/
theorem lowerExpr_uniform (slot : Option Name) (value : Expr) :
    Uniform Evaluated.renumber (lowerExpr scope slot value) fun numbers =>
      lowerExpr scope (slot.map (Name.renumber numbers)) value := by
  induction value generalizing slot with
  | literal value => exact uniform_pure fun _ => rfl
  | identifier ident =>
      apply uniform_bind (resolve_uniform scope ident)
      exact fun scalar => uniform_pure fun _ => rfl
  | binary op left right leftUniform rightUniform =>
      apply uniform_bind (leftUniform none)
      intro left
      apply uniform_bind (rightUniform none)
      intro right
      apply uniform_bind (destination_uniform scope slot)
      intro target
      apply uniform_pure
      simp [Evaluated.renumber, Quad.renumber, Value.renumber]
  | cast result operand operandUniform =>
      apply uniform_bind (operandUniform none)
      intro operand
      apply uniform_bind (destination_uniform scope slot)
      intro target
      apply uniform_pure
      simp [Evaluated.renumber, conversion_renumber, Value.renumber]

/-- Lowering a disjunction is uniform. -/
theorem lowerOr_uniform (left right : Evaluated) :
    Uniform Evaluated.renumber (lowerOr scope left right) fun numbers =>
      lowerOr scope (left.renumber numbers) (right.renumber numbers) := by
  apply uniform_bind (freshTemp_uniform scope)
  intro result
  apply uniform_bind freshLabel_uniform
  intro second
  apply uniform_bind freshLabel_uniform
  intro success
  apply uniform_bind freshLabel_uniform
  intro failure
  apply uniform_bind freshLabel_uniform
  intro exit
  apply uniform_pure
  simp [Evaluated.renumber, truthTail, Quad.renumber, Value.renumber, flag]

/-- Lowering a conjunction is uniform. -/
theorem lowerAnd_uniform (left right : Evaluated) :
    Uniform Evaluated.renumber (lowerAnd scope left right) fun numbers =>
      lowerAnd scope (left.renumber numbers) (right.renumber numbers) := by
  apply uniform_bind (freshTemp_uniform scope)
  intro result
  apply uniform_bind freshLabel_uniform
  intro failure
  apply uniform_bind freshLabel_uniform
  intro exit
  apply uniform_pure
  simp [Evaluated.renumber, truthTail, Quad.renumber, Value.renumber, flag]

/-- Lowering a comparison is uniform. -/
theorem lowerCompare_uniform (scalar : Scalar) (op : CmpOp) (left right : Value) :
    Uniform Evaluated.renumber (lowerCompare scope scalar op left right) fun numbers =>
      lowerCompare scope scalar op (left.renumber numbers) (right.renumber numbers) := by
  apply uniform_bind (freshTemp_uniform scope)
  exact fun result => uniform_pure fun _ => rfl

/-- Lowering a comparison that allows equality is uniform. -/
theorem lowerOrEqual_uniform (scalar : Scalar) (strict : CmpOp) (left right : Value) :
    Uniform Evaluated.renumber (lowerOrEqual scope scalar strict left right) fun numbers =>
      lowerOrEqual scope scalar strict (left.renumber numbers) (right.renumber numbers) := by
  apply uniform_bind (lowerCompare_uniform scope scalar .equal left right)
  intro equal
  apply uniform_bind (lowerCompare_uniform scope scalar strict left right)
  exact fun unequal => lowerOr_uniform scope equal unequal

/-- Lowering a relation is uniform. -/
theorem lowerRelation_uniform (scalar : Scalar) (op : RelOp) (left right : Value) :
    Uniform Evaluated.renumber (lowerRelation scope scalar op left right) fun numbers =>
      lowerRelation scope scalar op (left.renumber numbers) (right.renumber numbers) := by
  cases op with
  | equal | notEqual | less | greater => exact lowerCompare_uniform scope scalar _ left right
  | lessEqual | greaterEqual => exact lowerOrEqual_uniform scope scalar _ left right

/-- Lowering a condition is uniform. -/
theorem lowerCondition_uniform (test : Condition) :
    Uniform Evaluated.renumber (lowerCondition scope test) fun _ => lowerCondition scope test := by
  induction test with
  | or left right leftUniform rightUniform =>
      apply uniform_bind leftUniform
      intro left
      exact uniform_bind rightUniform fun right => lowerOr_uniform scope left right
  | and left right leftUniform rightUniform =>
      apply uniform_bind leftUniform
      intro left
      exact uniform_bind rightUniform fun right => lowerAnd_uniform scope left right
  | not operand operandUniform =>
      apply uniform_bind operandUniform
      intro operand
      apply uniform_bind (freshTemp_uniform scope)
      intro result
      apply uniform_pure
      simp [Evaluated.renumber, Quad.renumber, Value.renumber, flag]
  | relation op left right =>
      apply uniform_bind (lowerExpr_uniform scope none left)
      intro left
      apply uniform_bind (lowerExpr_uniform scope none right)
      intro right
      apply uniform_bind (lowerRelation_uniform scope _ op left.value right.value)
      intro compared
      apply uniform_pure
      simp [Evaluated.renumber]

/-- Lowering an assignment is uniform. -/
theorem lowerAssign_uniform (target : Ident) (value : Expr) :
    Uniform Listing.renumber (lowerAssign scope target value) fun _ =>
      lowerAssign scope target value := by
  apply uniform_bind (resolve_uniform scope target)
  intro scalar
  apply uniform_bind (lowerExpr_uniform scope (some (.var target.name)) value)
  intro result
  cases value with
  | literal _ | identifier _ =>
      apply uniform_pure
      simp [Evaluated.renumber, Quad.renumber, Name.renumber]
  | binary _ _ _ | cast _ _ => exact uniform_pure fun _ => rfl

/-- Lowering an input is uniform. -/
theorem lowerInput_uniform (target : Ident) :
    Uniform Listing.renumber (lowerInput scope target) fun _ => lowerInput scope target := by
  apply uniform_bind (resolve_uniform scope target)
  exact fun scalar => uniform_pure fun _ => rfl

/-- Lowering an output is uniform. -/
theorem lowerOutput_uniform (value : Expr) :
    Uniform Listing.renumber (lowerOutput scope value) fun _ => lowerOutput scope value := by
  apply uniform_bind (lowerExpr_uniform scope none value)
  intro result
  apply uniform_pure
  simp [Evaluated.renumber, Quad.renumber]

end Lowering

end Cpl
