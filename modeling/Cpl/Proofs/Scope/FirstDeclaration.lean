import Cpl.Proofs.Scope.Declarations
import Mathlib.Data.Finset.Card

namespace Cpl.Scope

/-- What a scope and the errors have to be after names were declared one by one, some of them more
than once. -/
structure Records (calls : List (Ident × Scalar)) (scope : Scope) (errors : List SemanticError) :
    Prop where
  lookup : ∀ name, scope.lookup name =
    match calls.find? fun call => call.1.name = name with
    | some call => .ok call.2
    | none => .error (.undeclared name)
  contains : ∀ name, scope.contains name = true ↔ name ∈ calls.map fun call => call.1.name
  size : scope.size = (calls.map fun call => call.1.name).toFinset.card
  reported : errors = (Ident.repeated [] (calls.map Prod.fst)).map .duplicate
  total : scope.size + errors.length = calls.length

/-- Declarations in two parts are made one after the other. -/
theorem declareAll_append (scope : Scope) (first second : List (Ident × Scalar)) :
    scope.declareAll (first ++ second) =
      (((scope.declareAll first).1.declareAll second).1,
        (scope.declareAll first).2 ++ ((scope.declareAll first).1.declareAll second).2) := by
  induction first generalizing scope with
  | nil => rfl
  | cons call later ih =>
      obtain ⟨ident, scalar⟩ := call
      rw [List.cons_append, declareAll, declareAll]
      cases scope.declare ident scalar with
      | ok extended => exact ih extended
      | error error => simp only [ih scope, List.cons_append]

/-- The scope stays as it is when a declaration fails. -/
theorem declareAll_error {scope : Scope} {ident : Ident} {scalar : Scalar} {error : SemanticError}
    (failed : scope.declare ident scalar = .error error) :
    scope.declareAll [(ident, scalar)] = (scope, [error]) := by
  rw [declareAll, failed]
  rfl

/-- The type of a name is the first that it is declared with. -/
theorem declareAll_lookup (calls : List (Ident × Scalar)) (name : String) :
    (empty.declareAll calls).1.lookup name =
      match calls.find? fun call => call.1.name = name with
      | some call => .ok call.2
      | none => .error (.undeclared name) := by
  have unknown : empty.scalar? name = none := rfl
  rw [lookup, declareAll_scalar?, unknown, Option.none_or]
  cases calls.find? fun call => call.1.name = name <;> rfl

/-- Names that are known are not entered again. -/
theorem declareAll_nodup (scope : Scope) (calls : List (Ident × Scalar))
    (distinct : (scope.entries.map Prod.fst).Nodup) :
    ((scope.declareAll calls).1.entries.map Prod.fst).Nodup := by
  induction calls generalizing scope with
  | nil => exact distinct
  | cons call later ih =>
      obtain ⟨ident, scalar⟩ := call
      rw [declareAll, declare]
      by_cases known : scope.contains ident.name = true
      · rw [if_pos known]
        exact ih scope distinct
      · rw [if_neg known]
        apply ih
        rw [List.map_cons, List.nodup_cons]
        exact ⟨fun member => known (contains_mem.mpr member), distinct⟩

/-- There are as many variables as different names. -/
theorem declareAll_size (calls : List (Ident × Scalar)) :
    (empty.declareAll calls).1.size = (calls.map fun call => call.1.name).toFinset.card := by
  have same : ((empty.declareAll calls).1.entries.map Prod.fst).toFinset =
      (calls.map fun call => call.1.name).toFinset := by
    ext name
    rw [List.mem_toFinset, ← contains_mem, declareAll_contains, List.mem_toFinset]
    simp [contains, scalar?, empty]
  rw [← same, List.toFinset_card_of_nodup (declareAll_nodup empty calls List.nodup_nil),
    List.length_map, size]

/-- Each declaration is entered or reported. -/
theorem declareAll_total (scope : Scope) (calls : List (Ident × Scalar)) :
    (scope.declareAll calls).1.size + (scope.declareAll calls).2.length =
      scope.size + calls.length := by
  induction calls generalizing scope with
  | nil => rfl
  | cons call later ih =>
      obtain ⟨ident, scalar⟩ := call
      rw [declareAll, declare]
      by_cases known : scope.contains ident.name = true
      · rw [if_pos known]
        have sum := ih scope
        simp only [List.length_cons]
        omega
      · rw [if_neg known]
        have sum := ih ⟨(ident.name, scalar) :: scope.entries⟩
        simp only [size, List.length_cons] at sum ⊢
        omega

/-- Names that are declared one by one are recorded. -/
theorem declareAll_records (calls : List (Ident × Scalar)) :
    Records calls (empty.declareAll calls).1 (empty.declareAll calls).2 where
  lookup := declareAll_lookup calls
  contains name := by
    rw [declareAll_contains]
    simp [Scope.contains, scalar?, empty]
  size := declareAll_size calls
  reported := declareAll_errors empty [] calls (by simp [empty, Scope.contains, scalar?])
  total := (declareAll_total empty calls).trans (Nat.zero_add _)

/-- The declarations of a program, and declarations one by one, are recorded with the first type of
each name and an error for each name that was there before. A declaration that fails changes
nothing that is known. -/
theorem declarations_first (declarations : List Declaration) (calls : List (Ident × Scalar)) :
    Records (declared declarations) (ofDeclarations declarations).1
        (ofDeclarations declarations).2 ∧
      Records calls (empty.declareAll calls).1 (empty.declareAll calls).2 ∧
      ∀ ident scalar error, (empty.declareAll calls).1.declare ident scalar = .error error →
        ∀ name, (empty.declareAll (calls ++ [(ident, scalar)])).1.lookup name =
          (empty.declareAll calls).1.lookup name := by
  refine ⟨declareAll_records (declared declarations), declareAll_records calls, ?_⟩
  intro ident scalar error failed name
  rw [declareAll_append, declareAll_error failed]

/-- A name that is declared three times, at two types, and a name that is declared once. -/
theorem thrice_first :
    let place (start : Nat) : Ident := ⟨"a", .point start⟩
    let declarations : List Declaration :=
      [⟨[place 0, ⟨"b", .point 2⟩, place 4], .float⟩, ⟨[place 9], .int⟩]
    let scope := (ofDeclarations declarations).1
    let calls := declared declarations
    scope.lookup "a" = .ok .float ∧ scope.lookup "c" = .error (.undeclared "c") ∧ scope.size = 2 ∧
      (ofDeclarations declarations).2 = [.duplicate (place 4), .duplicate (place 9)] ∧
      (empty.declareAll calls).1.declare (place 11) .int = .error (.duplicate (place 11)) ∧
      (empty.declareAll (calls ++ [(place 11, .int)])).1.lookup "a" = .ok .float := by
  intro place declarations scope calls
  obtain ⟨records, _, unchanged⟩ := declarations_first declarations calls
  have failed : (empty.declareAll calls).1.declare (place 11) .int =
      .error (.duplicate (place 11)) := by decide
  exact ⟨records.lookup "a", records.lookup "c", records.size, records.reported, failed,
    (unchanged _ _ _ failed "a").trans (records.lookup "a")⟩

end Cpl.Scope
