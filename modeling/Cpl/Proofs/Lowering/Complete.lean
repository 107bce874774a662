import Cpl.Proofs.Lowering.Failure

namespace Cpl

/-- The ways in which code for statements comes about if none of them is left out. -/
inductive Lowers (scope : Scope) : List Statement → Supply → Listing → Supply → Prop
  | nil {supply : Supply} : Lowers scope [] supply [] supply
  | cons {first : Statement} {later : List Statement} {before middle after : Supply}
      {code rest : Listing} (start : Lowers scope [first] before code middle)
      (below : Lowers scope later middle rest after) :
      Lowers scope (first :: later) before (code ++ rest) after
  | assign {target : Ident} {value : Expr} {before after : Supply} {code : Listing}
      (lowered : lowerAssign scope target value before = .ok code after) :
      Lowers scope [.assign target value] before code after
  | input {target : Ident} {before after : Supply} {code : Listing}
      (lowered : lowerInput scope target before = .ok code after) :
      Lowers scope [.input target] before code after
  | output {value : Expr} {before after : Supply} {code : Listing}
      (lowered : lowerOutput scope value before = .ok code after) :
      Lowers scope [.output value] before code after
  | branch {test : Condition} {yes no : Statement} {tested : Evaluated}
      {before afterTest afterYes after : Supply} {first second : Listing}
      (plain : test.isNegation = false)
      (lowered : lowerCondition scope test before = .ok tested afterTest)
      (onYes : Lowers scope [yes] afterTest first afterYes)
      (onNo : Lowers scope [no] afterYes second after) :
      Lowers scope [.branch test yes no] before
        (branchCode tested first second ⟨after.labels + 1⟩ ⟨after.labels + 2⟩)
        ⟨after.temps, after.labels + 2⟩
  | exchanged {test : Condition} {yes no : Statement} {tested : Evaluated}
      {before afterTest afterYes after : Supply} {first second : Listing}
      (lowered : lowerCondition scope test before = .ok tested afterTest)
      (onYes : Lowers scope [yes] afterTest first afterYes)
      (onNo : Lowers scope [no] afterYes second after) :
      Lowers scope [.branch (.not test) yes no] before
        (branchCode tested second first ⟨after.labels + 1⟩ ⟨after.labels + 2⟩)
        ⟨after.temps, after.labels + 2⟩
  | loop {test : Condition} {body : Statement} {tested : Evaluated}
      {before afterTest after : Supply} {inner : Listing}
      (lowered : lowerCondition scope test ⟨before.temps, before.labels + 2⟩ = .ok tested afterTest)
      (inside : Lowers scope [body] afterTest inner after) :
      Lowers scope [.loop test body] before
        (loopCode tested inner ⟨before.labels + 1⟩ ⟨before.labels + 2⟩) after
  | block {body : List Statement} {before after : Supply} {code : Listing}
      (inside : Lowers scope body before code after) : Lowers scope [.block body] before code after

section Statements
variable {scope : Scope} {before after : Supply} {code : Listing}

/-- What is lowered as a whole is emitted. -/
theorem Lowers.emits {body : List Statement} (lowers : Lowers scope body before code after) :
    Emits scope before code after := by
  induction lowers with
  | nil => exact .nothing (le_refl _)
  | cons _ _ start below => exact .append start below
  | assign lowered => exact .assign lowered
  | input lowered => exact .input lowered
  | output lowered => exact .output lowered
  | branch _ lowered _ _ onYes onNo => exact .branch lowered onYes onNo
  | exchanged lowered _ _ onYes onNo => exact .exchanged lowered onYes onNo
  | loop lowered _ inside => exact .loop lowered inside
  | block _ inside => exact inside

/-- A lowering that is not to blame for any name gives code. -/
theorem Blames.kept {A : Type} {lowering : Lowering A} {idents : List Ident}
    (blames : Blames scope lowering idents)
    (known : (Ident.firstUnknown scope.contains idents).toList = []) (before : Supply) :
    ∃ value after, lowering before = .ok value after :=
  blames.ok (Ident.firstUnknown_none.mp (Option.toList_eq_nil_iff.mp known)) before

mutual

/-- A statement without unknown names is lowered as a whole. -/
theorem lowerStatement_lowers : ∀ (statement : Statement) (before : Supply),
    statement.unknown scope.contains = [] →
      Lowers scope [statement] before (lowerStatement scope statement before).1.code
        (lowerStatement scope statement before).2
  | .assign target value, before, known => by
      obtain ⟨code, after, lowered⟩ := (lowerAssign_blames scope target value).kept known before
      rw [lowerStatement, keepOrDrop, lowered]
      exact .assign lowered
  | .input target, before, known => by
      obtain ⟨code, after, lowered⟩ := (lowerInput_blames scope target).kept known before
      rw [lowerStatement, keepOrDrop, lowered]
      exact .input lowered
  | .output value, before, known => by
      obtain ⟨code, after, lowered⟩ := (lowerOutput_blames scope value).kept known before
      rw [lowerStatement, keepOrDrop, lowered]
      exact .output lowered
  | .branch test yes no, before, known => by
      rw [Statement.unknown, List.append_eq_nil_iff, List.append_eq_nil_iff,
        ← test.positive_idents] at known
      obtain ⟨⟨testKnown, yesKnown⟩, noKnown⟩ := known
      obtain ⟨tested, afterTest, lowered⟩ :=
        (lowerCondition_blames scope test.positive).kept testKnown before
      have onYes := lowerStatement_lowers yes afterTest yesKnown
      have onNo := lowerStatement_lowers no (lowerStatement scope yes afterTest).2 noKnown
      rw [lowerStatement_branch_ok lowered]
      cases test with
      | not operand => exact .exchanged lowered onYes onNo
      | or _ _ | and _ _ | relation _ _ _ => exact .branch rfl lowered onYes onNo
  | .loop test body, before, known => by
      rw [Statement.unknown, List.append_eq_nil_iff] at known
      obtain ⟨tested, afterTest, lowered⟩ :=
        (lowerCondition_blames scope test).kept known.1 ⟨before.temps, before.labels + 2⟩
      rw [lowerStatement_loop_ok lowered]
      exact .loop lowered (lowerStatement_lowers body afterTest known.2)
  | .block body, before, known => by
      rw [lowerStatement]
      exact .block (lowerStatements_lowers body before known)

/-- Statements without unknown names are lowered as a whole. -/
theorem lowerStatements_lowers : ∀ (body : List Statement) (before : Supply),
    Statement.unknownOf scope.contains body = [] →
      Lowers scope body before (lowerStatements scope body before).1.code
        (lowerStatements scope body before).2
  | [], _, _ => .nil
  | first :: later, before, known => by
      rw [Statement.unknownOf, List.append_eq_nil_iff] at known
      rw [lowerStatements]
      exact .cons (lowerStatement_lowers first before known.1)
        (lowerStatements_lowers later (lowerStatement scope first before).2 known.2)

end

/-- A program without errors is lowered as a whole, from an unused supply. -/
theorem generate_lowers {body : List Statement} (clean : (generate scope body).errors = []) :
    ∃ after, Lowers scope body ⟨0, 0⟩ (generate scope body).code after := by
  have errors := generate_errors scope body
  rw [clean, List.nil_perm, List.map_eq_nil_iff] at errors
  exact ⟨_, lowerStatements_lowers body ⟨0, 0⟩ errors⟩

end Statements

end Cpl
