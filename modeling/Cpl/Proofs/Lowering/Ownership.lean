import Cpl.Proofs.Lowering.Parts
import Cpl.Proofs.Quad.Renumbering
import Cpl.Proofs.Scope.FreeIndices

namespace Cpl

namespace Listing

/-- The instructions that write a temporary, in order. -/
def writers (code : Listing) (index : Nat) : Listing :=
  code.filter fun quad => quad.target? = some (.temp index)

@[simp] theorem writers_append (first second : Listing) (index : Nat) :
    (first ++ second).writers index = first.writers index ++ second.writers index :=
  List.filter_append ..

/-- A temporary has no writers if it is no target. -/
theorem writers_eq_nil {code : Listing} {index : Nat} :
    code.writers index = [] ↔ ∀ quad ∈ code, quad.target? ≠ some (.temp index) := by
  simp [writers, List.filter_eq_nil_iff]

end Listing

@[simp] theorem Value.literal_temps (value : Literal) : (Value.literal value).temps = ∅ := by
  simp [Value.temps]

@[simp] theorem Value.var_temps (name : String) : (Value.name (.var name)).temps = ∅ := by
  simp [Value.temps]

/-- A temporary is written once, or twice by the code that stores a truth. -/
inductive Settled (code : Listing) (index : Nat) : Prop
  | once {quad : Quad} (alone : code.writers index = [quad])
  | truth {failure exit : Label} (tail : truthTail (.temp index) failure exit <:+: code)
      (pair : code.writers index =
        [.assign .int (.temp index) (flag 1), .assign .int (.temp index) (flag 0)])

/-- A temporary stays settled amid code that does not write it. -/
theorem Settled.around {code : Listing} {index : Nat} (settled : Settled code index)
    (before after : Listing) (above : before.writers index = [])
    (below : after.writers index = []) : Settled (before ++ code ++ after) index := by
  have same : (before ++ code ++ after).writers index = code.writers index := by simp [above, below]
  cases settled with
  | once alone => exact .once (same.trans alone)
  | truth tail pair =>
      exact .truth (tail.trans (List.infix_append before code after)) (same.trans pair)

/-- An instruction that writes no temporary and reads only some. -/
def Quad.Plain (given : Set Nat) (quad : Quad) : Prop :=
  (∀ index, quad.target? ≠ some (.temp index)) ∧ ∀ value ∈ quad.operands, value.temps ⊆ given

/-- Code settles the temporaries that it owns, writes no others, and reads only these and those that
it is given. -/
structure Owns (code : Listing) (given own : Set Nat) : Prop where
  settled : ∀ index ∈ own, Settled code index
  others : ∀ index ∉ own, code.writers index = []
  reads : ∀ quad ∈ code, quad.reads ⊆ given ∪ own

section Rules
variable {code first second : Listing} {given own more : Set Nat}

/-- Code may be given more temporaries. -/
theorem Owns.given_mono {larger : Set Nat} (owns : Owns code given own) (wider : given ⊆ larger) :
    Owns code larger own where
  settled := owns.settled
  others := owns.others
  reads quad member := (owns.reads quad member).trans (Set.union_subset_union_left own wider)

/-- Code after code owns more temporaries, if they are others. -/
theorem owns_append (start : Owns first given own) (below : Owns second (given ∪ own) more)
    (apart : ∀ index ∈ own, index ∉ more) : Owns (first ++ second) given (own ∪ more) where
  settled index := by
    rintro (here | there)
    · have silent := below.others index (apart index here)
      exact (start.settled index here).around [] second rfl silent
    · have silent := start.others index fun here => apart index here there
      simpa using (below.settled index there).around first [] silent rfl
  others index outside := by
    rw [Set.mem_union, not_or] at outside
    rw [Listing.writers_append, start.others index outside.1, below.others index outside.2,
      List.append_nil]
  reads quad member := by
    rw [← Set.union_assoc]
    rcases List.mem_append.mp member with above | after
    · exact (start.reads quad above).trans Set.subset_union_left
    · exact below.reads quad after

/-- Code that is given no temporaries mentions just those that it owns. -/
theorem Owns.temps (owns : Owns code ∅ own) : code.temps = own := by
  apply Set.Subset.antisymm
  · rintro index ⟨quad, member, read | written⟩
    · simpa using owns.reads quad member read
    · by_contra foreign
      exact Listing.writers_eq_nil.mp (owns.others index foreign) quad member written
  · intro index member
    by_contra unused
    have silent : code.writers index = [] := Listing.writers_eq_nil.mpr fun quad inside written =>
      unused ⟨quad, inside, Or.inr written⟩
    cases owns.settled index member with
    | once alone => cases silent.symm.trans alone
    | truth _ pair => cases silent.symm.trans pair

/-- Code that writes no temporary owns none. -/
theorem owns_plain (plain : ∀ quad ∈ code, quad.Plain given) : Owns code given ∅ where
  settled _ member := False.elim member
  others index _ := Listing.writers_eq_nil.mpr fun quad member => (plain quad member).1 index
  reads quad member := (reads_subset (plain quad member).2).trans Set.subset_union_left

/-- Code that writes no temporaries can follow. -/
theorem Owns.plain (start : Owns first given own)
    (plain : ∀ quad ∈ second, quad.Plain (given ∪ own)) : Owns (first ++ second) given own := by
  have whole := owns_append start (owns_plain plain) fun _ _ => Set.notMem_empty _
  rwa [Set.union_empty] at whole

/-- Code may go on with a test of a value that it knows, and with labels and jumps. -/
theorem Owns.test {value : Value} {label : Label} (start : Owns first given own)
    (known : value.temps ⊆ given ∪ own)
    (unused : ∀ quad ∈ second, quad.target? = none ∧ quad.operands = []) :
    Owns (first ++ .jumpIfZero label value :: second) given own := by
  apply start.plain
  rintro quad (_ | ⟨_, member⟩)
  · exact ⟨by simp [Quad.target?], by simpa [Quad.operands] using known⟩
  · obtain ⟨silent, nothing⟩ := unused quad member
    exact ⟨by simp [silent], by simp [nothing]⟩

/-- An instruction owns the temporary that it writes. -/
theorem owns_write {quad : Quad} {index : Nat} (written : quad.target? = some (.temp index))
    (known : ∀ value ∈ quad.operands, value.temps ⊆ given) : Owns [quad] given {index} where
  settled other same := by
    have alone : Listing.writers [quad] index = [quad] := by simp [Listing.writers, written]
    rw [Set.mem_singleton_iff.mp same]
    exact .once alone
  others other different := by
    rw [Set.mem_singleton_iff] at different
    simp [Listing.writers, written, Ne.symm different]
  reads other member := by
    rw [List.mem_singleton.mp member]
    exact (reads_subset known).trans Set.subset_union_left

/-- The tail of a truth value owns the temporary that it writes. -/
theorem owns_tail (given : Set Nat) (index : Nat) (failure exit : Label) :
    Owns (truthTail (.temp index) failure exit) given {index} where
  settled other same := by
    rw [Set.mem_singleton_iff.mp same]
    exact .truth (List.infix_refl _) (by simp [Listing.writers, truthTail, Quad.target?])
  others other different := by
    rw [Set.mem_singleton_iff] at different
    simp [Listing.writers, truthTail, Quad.target?, Ne.symm different]
  reads := by
    simp [truthTail, Quad.reads, Quad.operands, flag]

end Rules

/-- A result whose code owns the free indices from one to another, and that is kept in one of them
unless it is a variable or a constant. -/
structure Evaluated.Takes (scope : Scope) (given : Set Nat) (low high : Nat) (result : Evaluated) :
    Prop where
  order : low ≤ high
  code : Owns result.code given (scope.freeIn low high)
  value : result.value.temps ⊆ scope.freeIn low high

section Expressions
variable {scope : Scope} {given : Set Nat} {before after : Supply} {result : Evaluated}
  {low middle high : Nat}

/-- Code after code owns the free indices of both. -/
theorem Owns.next {first second : Listing} (start : Owns first given (scope.freeIn low middle))
    (below : Owns second given (scope.freeIn middle high)) (lower : low ≤ middle)
    (upper : middle ≤ high) : Owns (first ++ second) given (scope.freeIn low high) := by
  rw [← scope.freeIn_union lower upper]
  exact owns_append start (below.given_mono Set.subset_union_left) scope.freeIn_apart

/-- The next temporary holds the result of code that ends with a write of it, by an instruction or by
two. -/
theorem takes_fresh {first second : Listing} {scalar : Scalar}
    (start : Owns first given (scope.freeIn low high))
    (below : Owns second (given ∪ scope.freeIn low high) {scope.nextTemp high})
    (order : low ≤ high) :
    Evaluated.Takes scope given low (scope.nextTemp high)
      ⟨first ++ second, scalar, .name (.temp (scope.nextTemp high))⟩ where
  order := Nat.le_trans order (Nat.le_of_lt (nextTemp_gt scope high))
  code := by
    rw [← scope.freeIn_nextTemp] at below
    rw [← scope.freeIn_union order (Nat.le_of_lt (nextTemp_gt scope high))]
    exact owns_append start below scope.freeIn_apart
  value := by
    rintro index ⟨⟩
    exact ⟨Nat.lt_of_le_of_lt order (nextTemp_gt scope high), Nat.le_refl _,
      scope.nextTemp_free high⟩

/-- Two operands, one after the other, and where they are kept. -/
theorem operands_take {left right : Evaluated} (onLeft : left.Takes scope given low middle)
    (onRight : right.Takes scope given middle high) :
    Owns (left.code ++ right.code) given (scope.freeIn low high) ∧
      left.value.temps ⊆ scope.freeIn low high ∧ right.value.temps ⊆ scope.freeIn low high :=
  ⟨onLeft.code.next onRight.code onLeft.order onRight.order,
    onLeft.value.trans (scope.freeIn_mono (Nat.le_refl _) onRight.order),
    onRight.value.trans (scope.freeIn_mono onLeft.order (Nat.le_refl _))⟩

/-- Variables and constants need no temporary. -/
theorem takes_nothing {scalar : Scalar} {value : Value} (unnamed : value.temps = ∅) :
    Evaluated.Takes scope given low low ⟨[], scalar, value⟩ where
  order := Nat.le_refl low
  code := by
    rw [scope.freeIn_self]
    exact owns_plain (by simp)
  value := by simp [unnamed]

/-- A conversion owns the temporary that it writes. -/
theorem conversion_owns {source target : Scalar} {index : Nat} {value : Value}
    (known : value.temps ⊆ given) :
    Owns [conversion source target (.temp index) value] given {index} := by
  cases source <;> cases target <;>
    exact owns_write rfl (by simpa [conversion, Quad.operands] using known)

/-- An expression that is not offered a place takes all temporaries for itself. -/
theorem Expr.Lowers.takes {value : Expr} (lowers : Expr.Lowers scope value before result after) :
    result.Takes scope ∅ before.temps after.temps := by
  induction lowers with
  | literal | identifier _ => exact takes_nothing (by simp)
  | binary _ _ left right =>
      obtain ⟨operands, leftKnown, rightKnown⟩ := operands_take left right
      apply takes_fresh operands (owns_write rfl _) (Nat.le_trans left.order right.order)
      simp [Quad.operands, leftKnown, rightKnown]
  | cast _ operand =>
      exact takes_fresh operand.code (conversion_owns (operand.value.trans Set.subset_union_right))
        operand.order

end Expressions

section Conditions
variable {scope : Scope} {given : Set Nat} {before after : Supply} {left right result : Evaluated}
  {low middle high : Nat} {next success failure exit : Label}

/-- A disjunction takes one more temporary than its sides. -/
theorem orCode_takes (onLeft : left.Takes scope given low middle)
    (onRight : right.Takes scope given middle high) :
    Evaluated.Takes scope given low (scope.nextTemp high)
      ⟨orCode left right (.temp (scope.nextTemp high)) next success failure exit, .int,
        .name (.temp (scope.nextTemp high))⟩ := by
  have rightKnown := onRight.value.trans (scope.freeIn_mono onLeft.order (Nat.le_refl _))
  apply takes_fresh _ (owns_tail _ _ failure exit) (Nat.le_trans onLeft.order onRight.order)
  apply Owns.test _ (rightKnown.trans Set.subset_union_right) (by simp [Quad.target?, Quad.operands])
  apply Owns.next _ onRight.code onLeft.order onRight.order
  exact onLeft.code.test (onLeft.value.trans Set.subset_union_right)
    (by simp [Quad.target?, Quad.operands])

/-- A conjunction takes one more temporary than its sides. -/
theorem andCode_takes (onLeft : left.Takes scope given low middle)
    (onRight : right.Takes scope given middle high) :
    Evaluated.Takes scope given low (scope.nextTemp high)
      ⟨andCode left right (.temp (scope.nextTemp high)) failure exit, .int,
        .name (.temp (scope.nextTemp high))⟩ := by
  have rightKnown := onRight.value.trans (scope.freeIn_mono onLeft.order (Nat.le_refl _))
  apply takes_fresh _ (owns_tail _ _ failure exit) (Nat.le_trans onLeft.order onRight.order)
  apply Owns.test _ (rightKnown.trans Set.subset_union_right) (by simp)
  apply Owns.next _ onRight.code onLeft.order onRight.order
  exact onLeft.code.test (onLeft.value.trans Set.subset_union_right) (by simp)

/-- A comparison takes one temporary. -/
theorem compare_takes {scalar : Scalar} {op : CmpOp} {left right : Value} {last : Nat}
    (leftKnown : left.temps ⊆ given) (rightKnown : right.temps ⊆ given) :
    Evaluated.Takes scope given last (scope.nextTemp last)
      ⟨[.compare scalar op (.temp (scope.nextTemp last)) left right], .int,
        .name (.temp (scope.nextTemp last))⟩ := by
  have start : Owns [] given (scope.freeIn last last) := by
    rw [scope.freeIn_self]
    exact owns_plain (by simp)
  apply takes_fresh start (owns_write rfl _) (Nat.le_refl last)
  simp [Quad.operands, leftKnown.trans Set.subset_union_left, rightKnown.trans Set.subset_union_left]

/-- A relation takes the temporaries that it is lowered with. -/
theorem lowerRelation_takes {scalar : Scalar} {op : RelOp} {left right : Value}
    (leftKnown : left.temps ⊆ given) (rightKnown : right.temps ⊆ given)
    (lowered : lowerRelation scope scalar op left right before = .ok result after) :
    result.Takes scope given before.temps after.temps := by
  cases op with
  | equal | notEqual | less | greater =>
      cases lowered
      exact compare_takes leftKnown rightKnown
  | lessEqual | greaterEqual =>
      cases lowered
      exact orCode_takes (compare_takes leftKnown rightKnown) (compare_takes leftKnown rightKnown)

/-- A condition takes all temporaries for itself. -/
theorem Condition.Lowers.takes {test : Condition}
    (lowers : Condition.Lowers scope test before result after) :
    result.Takes scope ∅ before.temps after.temps := by
  induction lowers with
  | or _ _ left right => exact orCode_takes left right
  | and _ _ left right => exact andCode_takes left right
  | not _ operand =>
      apply takes_fresh operand.code (owns_write rfl _) operand.order
      simp [Quad.operands, operand.value, flag]
  | relation onLeft onRight related =>
      have left := onLeft.takes
      have right := onRight.takes
      have order := Nat.le_trans left.order right.order
      obtain ⟨operands, leftKnown, rightKnown⟩ := operands_take left right
      have comparison := lowerRelation_takes leftKnown rightKnown related
      refine ⟨Nat.le_trans order comparison.order, ?_, ?_⟩
      · rw [← scope.freeIn_union order comparison.order]
        exact owns_append operands (comparison.code.given_mono Set.subset_union_right)
          scope.freeIn_apart
      · exact comparison.value.trans (scope.freeIn_mono order (Nat.le_refl _))

end Conditions

section Layouts
variable {test : Evaluated} {first second body : Listing} {own more rest : Set Nat}
  {failure entry exit : Label}

/-- A branch owns the temporaries of its parts. -/
theorem branchCode_owns (onTest : Owns test.code ∅ own) (known : test.value.temps ⊆ own)
    (onFirst : Owns first ∅ more) (onSecond : Owns second ∅ rest)
    (testFirst : ∀ index ∈ own, index ∉ more) (testSecond : ∀ index ∈ own, index ∉ rest)
    (sides : ∀ index ∈ more, index ∉ rest) :
    Owns (branchCode test first second failure exit) ∅ (own ∪ more ∪ rest) := by
  have tested : Owns (test.code ++ [.jumpIfZero failure test.value]) ∅ own :=
    onTest.test (known.trans Set.subset_union_right) (by simp)
  have before : Owns (test.code ++ [.jumpIfZero failure test.value] ++ first ++
      [.jump exit, .mark failure]) ∅ (own ∪ more) :=
    (owns_append tested (onFirst.given_mono (Set.empty_subset _)) testFirst).plain
      (by simp [Quad.Plain, Quad.target?, Quad.operands])
  exact (owns_append before (onSecond.given_mono (Set.empty_subset _))
    fun index member => member.elim (testSecond index) (sides index)).plain
      (by simp [Quad.Plain, Quad.target?, Quad.operands])

/-- A loop owns the temporaries of its parts. -/
theorem loopCode_owns (onTest : Owns test.code ∅ own) (known : test.value.temps ⊆ own)
    (onBody : Owns body ∅ more) (apart : ∀ index ∈ own, index ∉ more) :
    Owns (loopCode test body entry exit) ∅ (own ∪ more) := by
  have start : Owns [.mark entry] ∅ ∅ :=
    owns_plain (by simp [Quad.Plain, Quad.target?, Quad.operands])
  have entered := owns_append start (onTest.given_mono (Set.empty_subset _)) fun _ member =>
    False.elim member
  rw [Set.empty_union] at entered
  have tested : Owns ([.mark entry] ++ test.code ++ [.jumpIfZero exit test.value]) ∅ own :=
    entered.test (known.trans Set.subset_union_right) (by simp)
  exact (owns_append tested (onBody.given_mono (Set.empty_subset _)) apart).plain
    (by simp [Quad.Plain, Quad.target?, Quad.operands])

end Layouts

section Statements
variable {scope : Scope} {before after : Supply} {code : Listing}

/-- A conversion into a variable writes no temporary. -/
theorem conversion_plain {given : Set Nat} {source target : Scalar} {name : String} {value : Value}
    (known : value.temps ⊆ given) : (conversion source target (.var name) value).Plain given := by
  cases source <;> cases target <;>
    simpa [conversion, Quad.Plain, Quad.target?, Quad.operands] using known

/-- An assignment takes all temporaries for the operands of its value. -/
theorem Expr.LowersTo.owns {target : Ident} {value : Expr}
    (lowers : Expr.LowersTo scope target value before code after) :
    Owns code ∅ (scope.freeIn before.temps after.temps) := by
  cases lowers with
  | literal | identifier =>
      rw [scope.freeIn_self]
      exact owns_plain (by simp [Quad.Plain, Quad.target?, Quad.operands])
  | binary onLeft onRight =>
      obtain ⟨operands, leftKnown, rightKnown⟩ := operands_take onLeft.takes onRight.takes
      apply operands.plain
      simp [Quad.Plain, Quad.target?, Quad.operands, leftKnown, rightKnown]
  | cast onOperand =>
      apply onOperand.takes.code.plain
      simpa using conversion_plain onOperand.takes.value

/-- An input owns no temporaries, for it takes none. -/
theorem lowerInput_owns {target : Ident}
    (lowered : lowerInput scope target before = .ok code after) :
    Owns code ∅ (scope.freeIn before.temps after.temps) := by
  obtain ⟨scalar, _, rfl, rfl⟩ := lowerInput_ok.mp lowered
  rw [scope.freeIn_self]
  exact owns_plain (by simp [Quad.Plain, Quad.target?, Quad.operands])

/-- An output owns the temporaries that it takes. -/
theorem lowerOutput_owns {value : Expr}
    (lowered : lowerOutput scope value before = .ok code after) :
    Owns code ∅ (scope.freeIn before.temps after.temps) := by
  obtain ⟨result, lowerValue, rfl⟩ := lowerOutput_ok.mp lowered
  have onValue := (lowerExpr_iff.mpr lowerValue).takes
  apply onValue.code.plain
  simpa [Quad.Plain, Quad.target?, Quad.operands] using onValue.value

/-- The temporaries of a branch lie between the supplies before and after it. -/
theorem branch_within {low middle later high : Nat} {own more : Set Nat} (tested : low ≤ middle)
    (onYes : middle ≤ later) (onNo : later ≤ high) (within : own ⊆ scope.freeIn middle later)
    (beyond : more ⊆ scope.freeIn later high) :
    scope.freeIn low middle ∪ (own ∪ more) ⊆ scope.freeIn low high := by
  rw [← scope.freeIn_union tested (Nat.le_trans onYes onNo), ← scope.freeIn_union onYes onNo]
  exact Set.union_subset_union_right _ (Set.union_subset_union within beyond)

/-- A branch owns what its condition takes and what its sides own, whichever of them comes first. -/
theorem branch_owns {low middle later high : Nat} {test : Evaluated} {yes no : Listing}
    {own more : Set Nat} {failure exit : Label} (onTest : test.Takes scope ∅ low middle)
    (onYes : Owns yes ∅ own) (onNo : Owns no ∅ more) (order : middle ≤ later)
    (within : own ⊆ scope.freeIn middle later) (beyond : more ⊆ scope.freeIn later high) :
    Owns (branchCode test yes no failure exit) ∅ (scope.freeIn low middle ∪ (own ∪ more)) ∧
      Owns (branchCode test no yes failure exit) ∅ (scope.freeIn low middle ∪ (own ∪ more)) := by
  have noWithin := beyond.trans (scope.freeIn_mono order (Nat.le_refl _))
  have testYes : ∀ index ∈ scope.freeIn low middle, index ∉ own := fun index tested first =>
    scope.freeIn_apart index tested (within first)
  have testNo : ∀ index ∈ scope.freeIn low middle, index ∉ more := fun index tested second =>
    scope.freeIn_apart index tested (noWithin second)
  have sides : ∀ index ∈ own, index ∉ more := fun index first second =>
    scope.freeIn_apart index (within first) (beyond second)
  constructor
  · rw [← Set.union_assoc]
    exact branchCode_owns onTest.code onTest.value onYes onNo testYes testNo sides
  · rw [Set.union_comm own more, ← Set.union_assoc]
    exact branchCode_owns onTest.code onTest.value onNo onYes testNo testYes
      fun index second first => sides index first second

/-- Whatever is left out, what is emitted owns its temporaries, and they are free. -/
theorem Emits.owns (emitted : Emits scope before code after) :
    ∃ own ⊆ scope.freeIn before.temps after.temps, Owns code ∅ own := by
  induction emitted with
  | nothing _ => exact ⟨∅, Set.empty_subset _, owns_plain (by simp)⟩
  | assign lowered => exact ⟨_, Set.Subset.refl _, (lowerAssign_lowers lowered).owns⟩
  | input lowered => exact ⟨_, Set.Subset.refl _, lowerInput_owns lowered⟩
  | output lowered => exact ⟨_, Set.Subset.refl _, lowerOutput_owns lowered⟩
  | branch lowered onYes onNo yesOwns noOwns =>
      obtain ⟨own, within, first⟩ := yesOwns
      obtain ⟨more, beyond, second⟩ := noOwns
      have onTest := (lowerCondition_lowers lowered).takes
      refine ⟨_, ?_, (branch_owns onTest first second onYes.grown.1 within beyond).1⟩
      exact branch_within onTest.order onYes.grown.1 onNo.grown.1 within beyond
  | exchanged lowered onYes onNo yesOwns noOwns =>
      obtain ⟨own, within, first⟩ := yesOwns
      obtain ⟨more, beyond, second⟩ := noOwns
      have onTest := (lowerCondition_lowers lowered).takes
      refine ⟨_, ?_, (branch_owns onTest first second onYes.grown.1 within beyond).2⟩
      exact branch_within onTest.order onYes.grown.1 onNo.grown.1 within beyond
  | loop lowered inside bodyOwns =>
      obtain ⟨own, within, body⟩ := bodyOwns
      have onTest := (lowerCondition_lowers lowered).takes
      refine ⟨_, ?_, loopCode_owns onTest.code onTest.value body
        fun index tested inner => scope.freeIn_apart index tested (within inner)⟩
      rw [← scope.freeIn_union onTest.order inside.grown.1]
      exact Set.union_subset_union_right _ within
  | append start rest startOwns restOwns =>
      obtain ⟨own, within, first⟩ := startOwns
      obtain ⟨more, beyond, second⟩ := restOwns
      have apart : ∀ index ∈ own, index ∉ more := fun index here there =>
        scope.freeIn_apart index (within here) (beyond there)
      refine ⟨own ∪ more, ?_, owns_append first (second.given_mono (Set.empty_subset _)) apart⟩
      rw [← scope.freeIn_union start.grown.1 rest.grown.1]
      exact Set.union_subset_union within beyond

end Statements

end Cpl
