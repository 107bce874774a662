import Cpl.Proofs.Lowering.Counts
import Cpl.Proofs.Lowering.Labels
import Cpl.Proofs.Lowering.Ownership
import Mathlib.Data.List.Perm.Subperm

namespace Cpl

namespace Construct

/-- How many temporaries the parts of a program need. -/
def tempsFor (found : List Construct) : Nat :=
  found.countP isOperand + found.count .comparison + 3 * found.count .inclusive + found.count .or +
    found.count .and + found.count .not

/-- How many labels the parts of a program need. -/
def labelsFor (found : List Construct) : Nat :=
  2 * found.count .branch + 2 * found.count .loop + 4 * (found.count .or + found.count .inclusive) +
    2 * found.count .and

/-- Constructs need the temporaries of each of them. -/
theorem tempsFor_append (found others : List Construct) :
    tempsFor (found ++ others) = tempsFor found + tempsFor others := by
  simp only [tempsFor, List.countP_append, List.count_append]
  omega

/-- Constructs need the labels of each of them. -/
theorem labelsFor_append (found others : List Construct) :
    labelsFor (found ++ others) = labelsFor found + labelsFor others := by
  simp only [labelsFor, List.count_append]
  omega

end Construct

/-- How many free indices there are up to one. -/
def Scope.rank (scope : Scope) (last : Nat) : Nat := Nat.count scope.Free (last + 1)

/-- The next temporary comes one rank later. -/
theorem Scope.rank_nextTemp (scope : Scope) (last : Nat) :
    scope.rank (scope.nextTemp last) = scope.rank last + 1 := by
  rw [rank, Nat.count_succ, if_pos (scope.free_nextTemp last), count_nextTemp, rank]

/-- What is taken from a supply is what parts of a program need. -/
structure Spends (scope : Scope) (before after : Supply) (found : List Construct) : Prop where
  temps : scope.rank after.temps = scope.rank before.temps + Construct.tempsFor found
  labels : after.labels = before.labels + Construct.labelsFor found

section Rules
variable {scope : Scope} {before middle after : Supply} {found others : List Construct}
  {construct : Construct}

/-- Two parts take what both need. -/
theorem spends_append (start : Spends scope before middle found)
    (below : Spends scope middle after others) : Spends scope before after (found ++ others) where
  temps := by rw [below.temps, start.temps, Construct.tempsFor_append, Nat.add_assoc]
  labels := by rw [below.labels, start.labels, Construct.labelsFor_append, Nat.add_assoc]

/-- A construct takes what it needs after its parts. -/
theorem spends_below (parts : Spends scope before middle found)
    (own : Spends scope middle after [construct]) :
    Spends scope before after (construct :: found) where
  temps := by
    have sum : Construct.tempsFor (construct :: found) = _ :=
      Construct.tempsFor_append [construct] found
    rw [own.temps, parts.temps, sum]
    omega
  labels := by
    have sum : Construct.labelsFor (construct :: found) = _ :=
      Construct.labelsFor_append [construct] found
    rw [own.labels, parts.labels, sum]
    omega

end Rules

section Parts
variable {scope : Scope} {before after : Supply} {result : Evaluated}

/-- An operation takes a temporary for its result. -/
theorem Expr.Lowers.spends {value : Expr} (lowers : Expr.Lowers scope value before result after) :
    Spends scope before after (value.constructs scope false) := by
  induction lowers with
  | literal | identifier _ => exact ⟨rfl, rfl⟩
  | binary _ _ left right =>
      exact spends_below (spends_append left right) ⟨scope.rank_nextTemp _, rfl⟩
  | cast _ operand => exact spends_below operand ⟨scope.rank_nextTemp _, rfl⟩

/-- An operation that is assigned directly takes none. -/
theorem Expr.LowersTo.spends {target : Ident} {value : Expr} {code : Listing}
    (lowers : Expr.LowersTo scope target value before code after) :
    Spends scope before after (value.constructs scope true) := by
  cases lowers with
  | literal | identifier => exact ⟨rfl, rfl⟩
  | binary onLeft onRight =>
      exact spends_below (spends_append onLeft.spends onRight.spends) ⟨rfl, rfl⟩
  | cast onOperand => exact spends_below onOperand.spends ⟨rfl, rfl⟩

/-- A relation takes what its sign needs. -/
theorem lowerRelation_spends {scalar : Scalar} {op : RelOp} {left right : Value}
    (lowered : lowerRelation scope scalar op left right before = .ok result after) :
    Spends scope before after [op.construct] := by
  cases op with
  | equal | notEqual | less | greater =>
      cases lowered
      exact ⟨scope.rank_nextTemp _, rfl⟩
  | lessEqual | greaterEqual =>
      cases lowered
      refine ⟨?_, rfl⟩
      rw [scope.rank_nextTemp, scope.rank_nextTemp, scope.rank_nextTemp]
      rfl

/-- A connective takes a temporary for its result, and labels to skip what need not be evaluated. -/
theorem Condition.Lowers.spends {test : Condition}
    (lowers : Condition.Lowers scope test before result after) :
    Spends scope before after (test.constructs scope) := by
  induction lowers with
  | or _ _ left right | and _ _ left right =>
      exact spends_below (spends_append left right) ⟨scope.rank_nextTemp _, rfl⟩
  | not _ operand => exact spends_below operand ⟨scope.rank_nextTemp _, rfl⟩
  | relation onLeft onRight related =>
      exact spends_below (spends_append onLeft.spends onRight.spends) (lowerRelation_spends related)

end Parts

/-- Marks are tallied once each. -/
theorem tally_mark (code : Listing) : code.tally .mark = code.marks.length := by
  induction code with
  | nil => rfl
  | cons quad rest ih =>
      cases quad <;> simp_all [Listing.tally, Quad.action, Quad.marked?]

section Statements
variable {scope : Scope} {body : List Statement} {before after : Supply} {code : Listing}

/-- A program that is lowered as a whole takes what its parts need. -/
theorem Lowers.spends (lowers : Lowers scope body before code after) :
    Spends scope before after (Statement.constructsOf scope body) := by
  induction lowers with
  | nil => exact ⟨rfl, rfl⟩
  | cons _ _ start below =>
      rw [Statement.constructsOf_singleton] at start
      exact spends_append start below
  | assign lowered =>
      rw [Statement.constructsOf_singleton]
      exact (lowerAssign_lowers lowered).spends
  | input lowered =>
      obtain ⟨scalar, _, rfl, rfl⟩ := lowerInput_ok.mp lowered
      exact ⟨rfl, rfl⟩
  | output lowered =>
      obtain ⟨result, lowerValue, rfl⟩ := lowerOutput_ok.mp lowered
      rw [Statement.constructsOf_singleton]
      exact spends_below (lowerExpr_iff.mpr lowerValue).spends ⟨rfl, rfl⟩
  | branch plain lowered _ _ onYes onNo =>
      rw [Statement.constructsOf_singleton] at onYes onNo ⊢
      rw [Statement.constructs, Condition.positive_of_plain plain]
      have sides := spends_append onYes onNo
      exact spends_below (spends_append (lowerCondition_lowers lowered).spends sides) ⟨rfl, rfl⟩
  | exchanged lowered _ _ onYes onNo =>
      rw [Statement.constructsOf_singleton] at onYes onNo ⊢
      have sides := spends_append onYes onNo
      exact spends_below (spends_append (lowerCondition_lowers lowered).spends sides) ⟨rfl, rfl⟩
  | @loop _ _ _ before _ _ _ lowered _ inside =>
      rw [Statement.constructsOf_singleton] at inside ⊢
      have entered : Spends scope before ⟨before.temps, before.labels + 2⟩ [.loop] := ⟨rfl, rfl⟩
      exact spends_append entered (spends_append (lowerCondition_lowers lowered).spends inside)
  | block _ inside =>
      rw [Statement.constructsOf_singleton]
      exact inside

/-- It uses every temporary that it takes. -/
theorem Lowers.owns (lowers : Lowers scope body before code after) :
    Owns code ∅ (scope.freeIn before.temps after.temps) := by
  induction lowers with
  | nil =>
      rw [scope.freeIn_self]
      exact owns_plain (by simp)
  | cons start below startOwns belowOwns =>
      exact startOwns.next belowOwns start.emits.grown.1 below.emits.grown.1
  | assign lowered => exact (lowerAssign_lowers lowered).owns
  | input lowered => exact lowerInput_owns lowered
  | output lowered => exact lowerOutput_owns lowered
  | branch _ lowered onYes onNo yesOwns noOwns =>
      have onTest := (lowerCondition_lowers lowered).takes
      have yesGrown := onYes.emits.grown.1
      have noGrown := onNo.emits.grown.1
      rw [← scope.freeIn_union onTest.order (Nat.le_trans yesGrown noGrown),
        ← scope.freeIn_union yesGrown noGrown]
      exact (branch_owns onTest yesOwns noOwns yesGrown (Set.Subset.refl _) (Set.Subset.refl _)).1
  | exchanged lowered onYes onNo yesOwns noOwns =>
      have onTest := (lowerCondition_lowers lowered).takes
      have yesGrown := onYes.emits.grown.1
      have noGrown := onNo.emits.grown.1
      rw [← scope.freeIn_union onTest.order (Nat.le_trans yesGrown noGrown),
        ← scope.freeIn_union yesGrown noGrown]
      exact (branch_owns onTest yesOwns noOwns yesGrown (Set.Subset.refl _) (Set.Subset.refl _)).2
  | loop lowered inside bodyOwns =>
      have onTest := (lowerCondition_lowers lowered).takes
      rw [← scope.freeIn_union onTest.order inside.emits.grown.1]
      exact loopCode_owns onTest.code onTest.value bodyOwns scope.freeIn_apart
  | block _ inside => exact inside

/-- It marks every label that it takes. -/
theorem Lowers.marks (lowers : Lowers scope body before code after) :
    code.marks.Perm
      (labelsAfter before.labels (Construct.labelsFor (Statement.constructsOf scope body))) := by
  have closed := lowers.emits.closed
  have length : code.marks.length = Construct.labelsFor (Statement.constructsOf scope body) := by
    rw [← tally_mark]
    exact lowers.accounts.tallies.mark
  apply (List.Nodup.subperm closed.once _).perm_of_length_le
  · simp [labelsAfter, length]
  · intro label member
    have bounds := closed.within label member
    rw [lowers.spends.labels] at bounds
    exact mem_labelsAfter.mpr bounds

end Statements

/-- A temporary can have an index up to a last one just if the index is among the first so many. -/
theorem mem_freeIn_rank {scope : Scope} {index last : Nat} :
    index ∈ scope.freeIn 0 last ↔
      scope.Available index ∧ Nat.count scope.Available index + 1 < scope.rank last := by
  constructor
  · rintro ⟨positive, upTo, free⟩
    refine ⟨⟨positive, free⟩, ?_⟩
    rw [← scope.count_available positive]
    exact Nat.count_strict_mono (p := scope.Free) (Or.inr free) (Nat.lt_succ_of_le upTo)
  · rintro ⟨⟨positive, free⟩, early⟩
    refine ⟨positive, ?_, free⟩
    by_contra late
    have later := Nat.count_monotone scope.Free (Nat.lt_of_not_le late)
    rw [← scope.count_available positive] at early
    exact Nat.not_lt.mpr later early

/-- Each temporary of a program is written once, or by the two instructions that store a truth. In a
program without errors, the temporaries are the first ones that no variable is named like, and the
labels are the first ones, as many of both as the parts of the program need. -/
theorem generate_numbering (scope : Scope) (body : List Statement) :
    let program := (generate scope body).program
    let found := Statement.constructsOf scope body
    (∀ index ∈ program.temps, Settled program index) ∧
      ((generate scope body).errors = [] →
        (∀ index, index ∈ program.temps ↔
          scope.Available index ∧ Nat.count scope.Available index < Construct.tempsFor found) ∧
        program.marks.Perm (labelsAfter 0 (Construct.labelsFor found))) := by
  intro program found
  obtain ⟨last, emitted⟩ := generate_emits scope body
  obtain ⟨own, within, owns⟩ := emitted.owns
  have whole : Owns program ∅ own := owns.plain (by simp [Quad.Plain, Quad.target?, Quad.operands])
  refine ⟨?_, ?_⟩
  · rw [whole.temps]
    exact whole.settled
  · intro clean
    obtain ⟨after, lowers⟩ := generate_lowers clean
    have all : Owns program ∅ (scope.freeIn 0 after.temps) :=
      lowers.owns.plain (by simp [Quad.Plain, Quad.target?, Quad.operands])
    have start : scope.rank 0 = 1 := rfl
    refine ⟨fun index => ?_, ?_⟩
    · rw [all.temps, mem_freeIn_rank, lowers.spends.temps, start, Nat.add_comm 1,
        Nat.add_lt_add_iff_right]
    · rw [program_marks]
      exact lowers.marks

/-- Eight temporaries are used besides the variable that is named like the first, and ten labels. The
third of these temporaries holds a truth. -/
theorem halving_numbering :
    let scope : Scope := ⟨[("x", .int), ("t1", .float)]⟩
    let program := (generate scope halving).program
    (generate scope halving).errors = [] ∧ 4 ∈ program.temps ∧ Settled program 4 ∧
      9 ∈ program.temps ∧ 1 ∉ program.temps ∧ 10 ∉ program.temps ∧
      program.marks.Perm (labelsAfter 0 10) := by
  intro scope program
  have clean : (generate scope halving).errors = [] := by decide
  obtain ⟨settled, complete⟩ := generate_numbering scope halving
  obtain ⟨temps, labels⟩ := complete clean
  have used : 4 ∈ program.temps := (temps 4).mpr (by decide)
  have declared : 1 ∉ program.temps := fun first => absurd ((temps 1).mp first) (by decide)
  have last : 10 ∉ program.temps := fun tenth => absurd ((temps 10).mp tenth) (by decide)
  exact ⟨clean, used, settled 4 used, (temps 9).mpr (by decide), declared, last, labels⟩

end Cpl
