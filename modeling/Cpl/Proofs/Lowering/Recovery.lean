import Cpl.Proofs.Lowering.Failure
import Cpl.Proofs.Lowering.Uniform

namespace Cpl

mutual

/-- A statement without its faulty parts, unless it is faulty itself. Sides and bodies that are
faulty become empty blocks. -/
def Statement.prune (scope : Scope) : Statement → Option Statement
  | .assign target value =>
      if scope.declares (target :: value.idents) then some (.assign target value) else none
  | .input target => if scope.declares [target] then some (.input target) else none
  | .output value => if scope.declares value.idents then some (.output value) else none
  | .branch test yes no =>
      if scope.declares test.idents then
        some (.branch test ((yes.prune scope).getD (.block [])) ((no.prune scope).getD (.block [])))
      else none
  | .loop test body =>
      if scope.declares test.idents then
        some (.loop test ((body.prune scope).getD (.block [])))
      else none
  | .block body => some (.block (Statement.pruneAll scope body))

def Statement.pruneAll (scope : Scope) : List Statement → List Statement
  | [] => []
  | first :: later => (first.prune scope).toList ++ Statement.pruneAll scope later

end

section Layout
variable (numbers : Renumbering)

/-- A branch is renumbered part by part. -/
theorem branchCode_renumber (test : Evaluated) (first second : Listing) (failure exit : Label) :
    (branchCode test first second failure exit).renumber numbers =
      branchCode (test.renumber numbers) (first.renumber numbers) (second.renumber numbers)
        (failure.renumber numbers) (exit.renumber numbers) := by
  simp [branchCode, Evaluated.renumber, Quad.renumber]

/-- A loop is renumbered part by part. -/
theorem loopCode_renumber (test : Evaluated) (body : Listing) (entry exit : Label) :
    (loopCode test body entry exit).renumber numbers =
      loopCode (test.renumber numbers) (body.renumber numbers) (entry.renumber numbers)
        (exit.renumber numbers) := by
  simp [loopCode, Evaluated.renumber, Quad.renumber]

/-- What becomes of a branch whose condition and sides are lowered. The labels are taken last. -/
def joinSides (test : Condition) (tested : Evaluated) (yes no : Lowered × Supply) : Lowered × Supply :=
  let failure : Label := ⟨no.2.labels + 1⟩
  let exit : Label := ⟨no.2.labels + 2⟩
  (⟨if test.isNegation then branchCode tested no.1.code yes.1.code failure exit
    else branchCode tested yes.1.code no.1.code failure exit,
    yes.1.drops ++ no.1.drops⟩, ⟨no.2.temps, no.2.labels + 2⟩)

/-- What becomes of a loop whose condition and body are lowered. The labels were taken first. -/
def closeLoop (before : Supply) (tested : Evaluated) (body : Lowered × Supply) : Lowered × Supply :=
  (⟨loopCode tested body.1.code ⟨before.labels + 1⟩ ⟨before.labels + 2⟩, body.1.drops⟩, body.2)

/-- Two new labels on each side make two pairs. -/
theorem between_labels (before : Supply × Supply) :
    Pairing.Between ⟨[], [(before.1.labels + 1, before.2.labels + 1),
      (before.1.labels + 2, before.2.labels + 2)]⟩ before
      (⟨before.1.temps, before.1.labels + 2⟩, ⟨before.2.temps, before.2.labels + 2⟩) :=
  between_append (between_label before) (between_label _)

end Layout

/-- Of two runs, the one leaves nothing out, and the code of the other is the same after
renumbering. -/
structure Recovers (before : Supply × Supply) (kept whole : Lowered × Supply) : Prop where
  clean : kept.1.drops = []
  alike : ∃ pairing : Pairing, pairing.Between before (kept.2, whole.2) ∧
    ∀ numbers : Renumbering, numbers.Agrees pairing → whole.1.code = kept.1.code.renumber numbers

section Runs
variable {scope : Scope} {before : Supply × Supply}

/-- What is left out on one side is recovered by nothing on the other. -/
theorem recovers_nothing {dropped : Lowered × Supply} (nothing : dropped.1.code = [])
    (grown : before.2 ≤ dropped.2) : Recovers before (⟨[], []⟩, before.1) dropped where
  clean := rfl
  alike := ⟨⟨[], []⟩, between_nil ⟨le_refl _, grown⟩, fun _ _ => nothing⟩

/-- Runs recover one after the other. -/
theorem recovers_append {kept whole keptLater wholeLater : Lowered × Supply}
    (first : Recovers before kept whole) (later : Recovers (kept.2, whole.2) keptLater wholeLater) :
    Recovers before (⟨kept.1.code ++ keptLater.1.code, kept.1.drops ++ keptLater.1.drops⟩, keptLater.2)
      (⟨whole.1.code ++ wholeLater.1.code, whole.1.drops ++ wholeLater.1.drops⟩, wholeLater.2) where
  clean := by rw [first.clean, later.clean, List.append_nil]
  alike := by
    obtain ⟨early, paired, same⟩ := first.alike
    obtain ⟨late, pairedLater, sameLater⟩ := later.alike
    refine ⟨early ++ late, between_append paired pairedLater, fun numbers agrees => ?_⟩
    obtain ⟨agreesEarly, agreesLate⟩ := agrees_append.mp agrees
    rw [same numbers agreesEarly, sameLater numbers agreesLate, Listing.renumber_append]

/-- One statement is lowered like a body of one. -/
theorem lowerStatements_singleton (scope : Scope) (statement : Statement) (supply : Supply) :
    lowerStatements scope [statement] supply = lowerStatement scope statement supply := by
  simp [lowerStatements]

/-- Statements in two parts are lowered one after the other. -/
theorem lowerStatements_append (scope : Scope) (first second : List Statement) (supply : Supply) :
    lowerStatements scope (first ++ second) supply =
      let start := lowerStatements scope first supply
      let rest := lowerStatements scope second start.2
      (⟨start.1.code ++ rest.1.code, start.1.drops ++ rest.1.drops⟩, rest.2) := by
  induction first generalizing supply with
  | nil => rfl
  | cons statement later ih =>
      simp only [List.cons_append, lowerStatements, ih, List.append_assoc]

/-- An empty block stands for a statement that is missing. -/
theorem lowerStatement_getD (scope : Scope) (statement : Option Statement) (supply : Supply) :
    lowerStatement scope (statement.getD (.block [])) supply =
      lowerStatements scope statement.toList supply := by
  cases statement with
  | none => rfl
  | some statement => exact (lowerStatements_singleton scope statement supply).symm

/-- A statement without parts is either lowered on both sides, or on neither. -/
theorem keepOrDrop_recovers {lowering : Lowering Listing} {idents : List Ident}
    {statement : Statement} (before : Supply × Supply)
    (lowers : ∀ supply, lowerStatement scope statement supply = keepOrDrop lowering supply)
    (grows : Grows lowering) (blames : Blames scope lowering idents)
    (uniform : Uniform Listing.renumber lowering fun _ => lowering) :
    Recovers before
      (lowerStatements scope (if scope.declares idents then some statement else none).toList before.1)
      (lowerStatement scope statement before.2) := by
  rw [lowers]
  by_cases declared : scope.declares idents = true
  · rw [if_pos declared, Option.toList_some, lowerStatements_singleton, lowers]
    obtain ⟨code, after, lowered⟩ := blames.ok declared before.1
    obtain ⟨pairing, image, last, loweredToo, paired, same⟩ := uniform.image lowered before.2
    simp only [keepOrDrop, lowered, loweredToo]
    exact ⟨rfl, pairing, paired, same⟩
  · rw [if_neg declared]
    obtain ⟨error, after, failed⟩ := blames.error declared before.2
    have grown := grows before.2
    simp only [failed, keepOrDrop] at grown ⊢
    exact recovers_nothing rfl grown

/-- A branch is recovered if its sides are. -/
theorem recovers_branch {test : Condition} {tested image : Evaluated} {afterTest last : Supply}
    {pairing : Pairing} {keptYes wholeYes keptNo wholeNo : Lowered × Supply}
    (paired : pairing.Between before (afterTest, last))
    (same : ∀ numbers : Renumbering, numbers.Agrees pairing → image = tested.renumber numbers)
    (yes : Recovers (afterTest, last) keptYes wholeYes)
    (no : Recovers (keptYes.2, wholeYes.2) keptNo wholeNo) :
    Recovers before (joinSides test tested keptYes keptNo) (joinSides test image wholeYes wholeNo) where
  clean := by simp only [joinSides, yes.clean, no.clean, List.append_nil]
  alike := by
    obtain ⟨pairingYes, pairedYes, sameYes⟩ := yes.alike
    obtain ⟨pairingNo, pairedNo, sameNo⟩ := no.alike
    have sides := between_append (between_append paired pairedYes) pairedNo
    refine ⟨_, between_append sides (between_labels _), fun numbers agrees => ?_⟩
    obtain ⟨agreesSides, agreesLabels⟩ := agrees_append.mp agrees
    obtain ⟨agreesYes, agreesNo⟩ := agrees_append.mp agreesSides
    obtain ⟨agreesTest, agreesYes⟩ := agrees_append.mp agreesYes
    have failure := agreesLabels.labels _ (List.mem_cons_self ..)
    have exit := agreesLabels.labels _ (List.mem_cons_of_mem _ (List.mem_singleton.mpr rfl))
    have wholeYesCode := sameYes numbers agreesYes
    have wholeNoCode := sameNo numbers agreesNo
    dsimp only at failure exit
    dsimp only [joinSides]
    split
    all_goals rw [branchCode_renumber, Label.renumber, Label.renumber, failure, exit,
      ← same numbers agreesTest, ← wholeYesCode, ← wholeNoCode]

/-- A loop is recovered if its body is. -/
theorem recovers_loop {tested image : Evaluated} {afterTest last : Supply} {pairing : Pairing}
    {keptBody wholeBody : Lowered × Supply}
    (paired : pairing.Between (⟨before.1.temps, before.1.labels + 2⟩,
      ⟨before.2.temps, before.2.labels + 2⟩) (afterTest, last))
    (same : ∀ numbers : Renumbering, numbers.Agrees pairing → image = tested.renumber numbers)
    (body : Recovers (afterTest, last) keptBody wholeBody) :
    Recovers before (closeLoop before.1 tested keptBody) (closeLoop before.2 image wholeBody) where
  clean := body.clean
  alike := by
    obtain ⟨pairingBody, pairedBody, sameBody⟩ := body.alike
    have start := between_append (between_labels before) paired
    refine ⟨_, between_append start pairedBody, fun numbers agrees => ?_⟩
    obtain ⟨agreesStart, agreesBody⟩ := agrees_append.mp agrees
    obtain ⟨agreesLabels, agreesTest⟩ := agrees_append.mp agreesStart
    have entry := agreesLabels.labels _ (List.mem_cons_self ..)
    have exit := agreesLabels.labels _ (List.mem_cons_of_mem _ (List.mem_singleton.mpr rfl))
    have wholeCode := sameBody numbers agreesBody
    dsimp only at entry exit
    dsimp only [closeLoop]
    rw [loopCode_renumber, Label.renumber, Label.renumber, entry, exit,
      ← same numbers agreesTest, ← wholeCode]

end Runs

mutual

/-- A statement is recovered from its faults by lowering what remains of it. -/
theorem lowerStatement_recovers (scope : Scope) :
    ∀ (statement : Statement) (before : Supply × Supply), Recovers before
      (lowerStatements scope (statement.prune scope).toList before.1)
      (lowerStatement scope statement before.2)
  | .assign target value, before => by
      rw [Statement.prune]
      exact keepOrDrop_recovers before (fun _ => by rw [lowerStatement])
        (lowerAssign_grows scope target value) (lowerAssign_blames scope target value)
        (lowerAssign_uniform scope target value)
  | .input target, before => by
      rw [Statement.prune]
      exact keepOrDrop_recovers before (fun _ => by rw [lowerStatement])
        (lowerInput_grows scope target) (lowerInput_blames scope target)
        (lowerInput_uniform scope target)
  | .output value, before => by
      rw [Statement.prune]
      exact keepOrDrop_recovers before (fun _ => by rw [lowerStatement])
        (lowerOutput_grows scope value) (lowerOutput_blames scope value)
        (lowerOutput_uniform scope value)
  | .branch test yes no, before => by
      rw [Statement.prune, ← test.positive_idents]
      have blames := lowerCondition_blames scope test.positive
      by_cases declared : scope.declares test.positive.idents = true
      · obtain ⟨tested, afterTest, lowered⟩ := blames.ok declared before.1
        obtain ⟨pairing, image, last, loweredToo, paired, same⟩ :=
          (lowerCondition_uniform scope test.positive).image lowered before.2
        have first := lowerStatement_recovers scope yes (afterTest, last)
        have second := lowerStatement_recovers scope no
          ((lowerStatements scope (yes.prune scope).toList afterTest).2,
            (lowerStatement scope yes last).2)
        rw [if_pos declared, Option.toList_some, lowerStatements_singleton,
          lowerStatement_branch_ok lowered, lowerStatement_branch_ok loweredToo]
        simp only [lowerStatement_getD]
        exact recovers_branch paired same first second
      · obtain ⟨error, afterTest, failed⟩ := blames.error declared before.2
        have grown := (lowerStatement_emits scope (.branch test yes no) before.2).grown
        rw [if_neg declared]
        rw [lowerStatement_branch_error failed] at grown ⊢
        exact recovers_nothing rfl grown
  | .loop test body, before => by
      rw [Statement.prune]
      have blames := lowerCondition_blames scope test
      by_cases declared : scope.declares test.idents = true
      · obtain ⟨tested, afterTest, lowered⟩ :=
          blames.ok declared ⟨before.1.temps, before.1.labels + 2⟩
        obtain ⟨pairing, image, last, loweredToo, paired, same⟩ :=
          (lowerCondition_uniform scope test).image lowered ⟨before.2.temps, before.2.labels + 2⟩
        have inner := lowerStatement_recovers scope body (afterTest, last)
        rw [if_pos declared, Option.toList_some, lowerStatements_singleton,
          lowerStatement_loop_ok lowered, lowerStatement_loop_ok loweredToo]
        simp only [lowerStatement_getD]
        exact recovers_loop paired same inner
      · obtain ⟨error, afterTest, failed⟩ :=
          blames.error declared ⟨before.2.temps, before.2.labels + 2⟩
        have grown := (lowerStatement_emits scope (.loop test body) before.2).grown
        rw [if_neg declared]
        rw [lowerStatement_loop_error failed] at grown ⊢
        exact recovers_nothing rfl grown
  | .block body, before => by
      rw [Statement.prune, Option.toList_some, lowerStatements_singleton, lowerStatement,
        lowerStatement]
      exact lowerStatements_recovers scope body before

/-- Statements recover what is left of them without those that are left out. -/
theorem lowerStatements_recovers (scope : Scope) :
    ∀ (body : List Statement) (before : Supply × Supply), Recovers before
      (lowerStatements scope (Statement.pruneAll scope body) before.1)
      (lowerStatements scope body before.2)
  | [], before => recovers_nothing rfl (le_refl _)
  | first :: later, before => by
      rw [Statement.pruneAll, lowerStatements_append, lowerStatements]
      exact recovers_append (lowerStatement_recovers scope first before)
        (lowerStatements_recovers scope later _)

end

/-- A program has the code of what remains without its faulty statements, which has no faults, up
to numbers of temporaries and labels that increase in the same way. -/
theorem generate_recovers (scope : Scope) (body : List Statement) :
    let remaining := generate scope (Statement.pruneAll scope body)
    remaining.errors = [] ∧ ∃ numbers : Renumbering,
      StrictMonoOn numbers.temps remaining.program.temps ∧
      StrictMonoOn numbers.labels remaining.program.labels ∧
      (generate scope body).program = remaining.program.renumber numbers := by
  have recovers := lowerStatements_recovers scope body (⟨0, 0⟩, ⟨0, 0⟩)
  obtain ⟨pairing, paired, same⟩ := recovers.alike
  refine ⟨congrArg (List.map Drop.error) recovers.clean, ?_⟩
  refine pairing.renumbered paired.temps.increasing paired.labels.increasing ?_
  intro numbers agrees
  have alike := same numbers agrees
  rw [Generated.program, Listing.complete, Generated.program, Listing.complete,
    Listing.renumber_append]
  exact congrArg (· ++ [Quad.halt]) alike

end Cpl
