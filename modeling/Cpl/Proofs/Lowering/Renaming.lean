import Cpl.Proofs.Lowering.Names
import Cpl.Proofs.Lowering.Transport
import Cpl.Proofs.Quad.Renumbering

namespace Cpl

/-- Renaming fits the scopes of a program before and after it. -/
noncomputable def Transport.ofRenaming {rename : String → String}
    (injective : Function.Injective rename) (scope : Scope) :
    Transport scope (scope.rename rename) where
  respelling := ⟨rename, id⟩
  temps := scope.recount (scope.rename rename)
  scalar := scope.scalar?_rename injective
  next := scope.recount_nextTemp (scope.rename rename)

/-- The temporaries that occur in a program have free indices. -/
theorem generate_temps_free (scope : Scope) (body : List Statement) :
    (generate scope body).program.temps ⊆ {index | scope.Free index} := by
  rintro index ⟨quad, member, used⟩
  have mentioned : Value.name (.temp index) ∈ quad.mentions := by
    rcases used with read | written
    · exact List.mem_append_right _ read
    · have target : quad.target? = some (.temp index) := written
      simp [Quad.mentions, target]
  have within : (generate scope body).program.Within (scope.vocabulary Set.univ) :=
    generate_within fun _ _ => Set.mem_univ _
  exact Or.inr (within _ (List.mem_flatMap.mpr ⟨quad, member, mentioned⟩))

/-- A program whose variables are renamed, no two of them alike, has the code of the program with
the variables renamed, the same labels, and temporaries that are numbered in the same order. The
same declarations and statements are at fault, in the same places. -/
theorem generate_renaming (program : Program) {rename : String → String}
    (injective : Function.Injective rename) :
    let renamed := program.respell ⟨rename, id⟩
    let scope := Scope.ofDeclarations program.declarations
    let renamedScope := Scope.ofDeclarations renamed.declarations
    let generated := generate scope.1 program.body
    let renamedGenerated := generate renamedScope.1 renamed.body
    (∃ temps : Nat → Nat, StrictMonoOn temps generated.program.temps ∧
        renamedGenerated.program = generated.program.mapNames (Name.respell rename temps)) ∧
      renamedScope.2 = scope.2.map (SemanticError.respell ⟨rename, id⟩) ∧
      renamedGenerated.errors = generated.errors.map (SemanticError.respell ⟨rename, id⟩) := by
  intro renamed scope renamedScope generated renamedGenerated
  have scopes : renamedScope = (scope.1.rename rename, scope.2.map (.respell ⟨rename, id⟩)) :=
    Scope.ofDeclarations_respell injective program.declarations
  let transport := Transport.ofRenaming injective scope.1
  obtain ⟨code, errors⟩ := transport.generate_carries (scope.1.recount_zero _) program.body
  have twin : renamedGenerated = generate (scope.1.rename rename)
      (Statement.respellAll ⟨rename, id⟩ program.body) :=
    congrArg (fun scope => generate scope.1 renamed.body) scopes
  have increasing := (scope.1.recount_strictMonoOn (scope.1.rename rename)).mono
    (generate_temps_free scope.1 program.body)
  exact ⟨⟨transport.temps, increasing, twin ▸ code⟩, congrArg Prod.snd scopes, twin ▸ errors⟩

/-- A variable that is named like the first temporary, and is so no more. -/
theorem firstTemp_renaming :
    let place : Span := ⟨0, 2⟩
    let program : Program := ⟨[⟨[⟨"t1", place⟩, ⟨"t1", place⟩], .int⟩],
      [.output (.binary .add (.identifier ⟨"t1", place⟩) (.identifier ⟨"t1", place⟩)),
        .input ⟨"y", place⟩]⟩
    let renamed := program.respell ⟨("v" ++ ·), id⟩
    let renamedScope := Scope.ofDeclarations renamed.declarations
    let generated := generate (Scope.ofDeclarations program.declarations).1 program.body
    let renamedGenerated := generate renamedScope.1 renamed.body
    Function.Injective ("v" ++ ·) ∧
      generated.program = [.arith .int .add (.temp 2) (.name (.var "t1")) (.name (.var "t1")),
        .print .int (.name (.temp 2)), .halt] ∧
      renamedGenerated.program =
        [.arith .int .add (.temp 1) (.name (.var "vt1")) (.name (.var "vt1")),
        .print .int (.name (.temp 1)), .halt] ∧
      (∃ temps : Nat → Nat, StrictMonoOn temps generated.program.temps ∧
        renamedGenerated.program = generated.program.mapNames (Name.respell ("v" ++ ·) temps)) ∧
      renamedScope.2 = [⟨.duplicate "vt1", place⟩] ∧
      renamedGenerated.errors = [⟨.undeclared "vy", place⟩] := by
  intro place program renamed renamedScope generated renamedGenerated
  have injective : Function.Injective ("v" ++ ·) := by
    intro first second same
    have characters := congrArg String.toList same
    simp only [String.toList_append] at characters
    exact String.toList_injective (List.append_cancel_left characters)
  obtain ⟨code, redeclared, undeclared⟩ := generate_renaming program injective
  exact ⟨injective, by decide +kernel, by decide +kernel, code,
    redeclared.trans (by decide +kernel), undeclared.trans (by decide +kernel)⟩

end Cpl
