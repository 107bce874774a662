import Cpl.Scope

namespace Cpl

/-- The error at a name that is declared already. -/
def SemanticError.duplicate (ident : Ident) : SemanticError := ⟨.duplicate ident.name, ident.span⟩

/-- The names in a list that are written before, in the list itself or among the earlier ones. -/
def Ident.repeated : (earlier : List String) → List Ident → List Ident
  | _, [] => []
  | earlier, ident :: later =>
      if ident.name ∈ earlier then ident :: Ident.repeated (ident.name :: earlier) later
      else Ident.repeated (ident.name :: earlier) later

/-- Repeated identifiers are some of the identifiers, in order. -/
theorem Ident.repeated_sublist (earlier : List String) (idents : List Ident) :
    (Ident.repeated earlier idents).Sublist idents := by
  induction idents generalizing earlier with
  | nil => exact .slnil
  | cons ident later ih =>
      rw [Ident.repeated]
      split
      · exact (ih _).cons_cons ident
      · exact (ih _).cons ident

namespace Scope

/-- The newest variable comes first. -/
theorem scalar?_cons (entries : List (String × Scalar)) (name other : String) (scalar : Scalar) :
    scalar? ⟨(name, scalar) :: entries⟩ other =
      if other = name then some scalar else scalar? ⟨entries⟩ other := by
  by_cases same : other = name
  · simp [scalar?, same]
  · have different : (other == name) = false := beq_eq_false_iff_ne.mpr same
    simp [scalar?, List.lookup_cons, same, different]

/-- A scope with one more variable holds its name and those from before. -/
theorem contains_cons {entries : List (String × Scalar)} {name other : String} {scalar : Scalar} :
    contains ⟨(name, scalar) :: entries⟩ other = true ↔
      other = name ∨ contains ⟨entries⟩ other = true := by
  rw [contains, scalar?_cons]
  by_cases same : other = name
  · simp [same]
  · simp [same, contains]

/-- A scope holds the names of its entries. -/
theorem contains_mem {scope : Scope} {name : String} :
    scope.contains name = true ↔ name ∈ scope.entries.map Prod.fst := by
  simp only [contains, scalar?, List.lookup_isSome_iff, List.mem_map, beq_iff_eq]
  constructor
  · rintro ⟨entry, member, same⟩
    exact ⟨entry, member, same.symm⟩
  · rintro ⟨entry, member, same⟩
    exact ⟨entry, member, same.symm⟩

/-- A name keeps the type that it had before, and otherwise has the first that it is declared
with. -/
theorem declareAll_scalar? (scope : Scope) (entries : List (Ident × Scalar)) (name : String) :
    (scope.declareAll entries).1.scalar? name =
      (scope.scalar? name).or
        ((entries.find? fun entry => entry.1.name = name).map Prod.snd) := by
  induction entries generalizing scope with
  | nil => simp [declareAll]
  | cons entry later ih =>
      obtain ⟨ident, scalar⟩ := entry
      rw [declareAll, declare]
      by_cases known : scope.contains ident.name = true
      · rw [if_pos known]
        simp only [ih]
        by_cases same : ident.name = name
        · obtain ⟨first, found⟩ := Option.isSome_iff_exists.mp known
          rw [same] at found
          simp [found]
        · simp [same]
      · rw [if_neg known]
        simp only [ih, scalar?_cons]
        by_cases same : ident.name = name
        · have unknown : scope.scalar? name = none := by
            rw [contains, Option.not_isSome_iff_eq_none, same] at known
            exact known
          simp [same, unknown]
        · simp [same, Ne.symm same]

/-- A name is in scope afterwards if it was before or is declared. -/
theorem declareAll_contains (scope : Scope) (entries : List (Ident × Scalar)) (name : String) :
    (scope.declareAll entries).1.contains name = true ↔
      scope.contains name = true ∨ name ∈ entries.map fun entry => entry.1.name := by
  rw [contains, declareAll_scalar?, Option.isSome_or, Bool.or_eq_true, Option.isSome_map,
    List.find?_isSome]
  simp [contains]

/-- The errors are at the names that are declared again, in order. -/
theorem declareAll_errors (scope : Scope) (earlier : List String)
    (entries : List (Ident × Scalar))
    (known : ∀ name, scope.contains name = true ↔ name ∈ earlier) :
    (scope.declareAll entries).2 =
      (Ident.repeated earlier (entries.map Prod.fst)).map .duplicate := by
  induction entries generalizing scope earlier with
  | nil => rfl
  | cons entry later ih =>
      obtain ⟨ident, scalar⟩ := entry
      rw [declareAll, declare, List.map_cons, Ident.repeated]
      by_cases again : ident.name ∈ earlier
      · have still : ∀ name, scope.contains name = true ↔ name ∈ ident.name :: earlier := by
          intro name
          rw [known, List.mem_cons]
          constructor
          · exact Or.inr
          · rintro (rfl | before)
            · exact again
            · exact before
        rw [if_pos again, if_pos ((known _).mpr again)]
        simp only [ih scope _ still, List.map_cons]
        rfl
      · rw [if_neg again, if_neg (again ∘ (known _).mp)]
        apply ih
        intro name
        rw [contains_cons, known, List.mem_cons]

/-- The identifiers of all declarations are declared, in order. -/
theorem declared_idents (declarations : List Declaration) :
    (declared declarations).map Prod.fst = declarations.flatMap Declaration.idents := by
  simp [declared, List.map_flatMap, Function.comp_def]

/-- A name is in scope exactly if it is declared. -/
theorem ofDeclarations_contains (declarations : List Declaration) (name : String) :
    (ofDeclarations declarations).1.contains name =
      decide (name ∈ (declarations.flatMap Declaration.idents).map Ident.name) := by
  rw [Bool.eq_iff_iff, ofDeclarations, declareAll_contains, ← declared_idents, List.map_map,
    decide_eq_true_eq]
  simp [empty, contains, scalar?, Function.comp_def]

/-- The errors of declarations are the repeated identifiers. -/
theorem ofDeclarations_errors (declarations : List Declaration) :
    (ofDeclarations declarations).2 =
      (Ident.repeated [] (declarations.flatMap Declaration.idents)).map .duplicate := by
  rw [ofDeclarations, declareAll_errors empty [] _ (by simp [empty, contains, scalar?]), declared_idents]

end Scope

end Cpl
