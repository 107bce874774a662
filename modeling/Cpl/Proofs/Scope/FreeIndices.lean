import Cpl.Proofs.Lowering.Emission
import Cpl.Proofs.Quad.Text
import Cpl.Proofs.Scope.Declarations
import Mathlib.Data.List.Nodup
import Mathlib.Data.Nat.Nth

namespace Cpl

/-- Temporaries differ in their texts. -/
theorem temp_text_injective {index other : Nat}
    (same : (Name.temp index).text = (Name.temp other).text) : index = other :=
  numbered_injective "t" same

namespace Scope
variable (scope : Scope)

/-- A search that ends at a name in use has passed over nothing else. -/
theorem freeIndex_taken {attempts index : Nat}
    (taken : scope.contains (Name.temp (scope.freeIndex attempts index)).text = true) :
    ∀ passed, index ≤ passed → passed ≤ index + attempts →
      scope.contains (Name.temp passed).text = true := by
  induction attempts generalizing index with
  | zero =>
      intro passed after upTo
      obtain rfl : passed = index := by omega
      exact taken
  | succ attempts ih =>
      rw [freeIndex] at taken
      split at taken
      · rename_i here
        intro passed after upTo
        by_cases first : passed = index
        · rw [first]
          exact here
        · exact ih taken passed (by omega) (by omega)
      · contradiction

/-- No variable is named like a new temporary: otherwise one more name than there are variables
would be in use. -/
theorem nextTemp_free (last : Nat) :
    scope.contains (Name.temp (scope.nextTemp last)).text = false := by
  by_contra taken
  have passed := scope.freeIndex_taken (Bool.not_eq_false _ ▸ taken)
  have distinct : ((List.range' (last + 1) (scope.size + 1)).map fun index =>
      (Name.temp index).text).Nodup :=
    List.Nodup.map (fun _ _ => temp_text_injective) List.nodup_range'
  have inUse : ((List.range' (last + 1) (scope.size + 1)).map fun index =>
      (Name.temp index).text) ⊆ scope.entries.map Prod.fst := by
    intro name member
    obtain ⟨index, within, rfl⟩ := List.mem_map.mp member
    have bounds := List.mem_range'_1.mp within
    exact contains_mem.mp (passed index (by omega) (by omega))
  have bound := distinct.length_le_of_subset inUse
  simp only [List.length_map, List.length_range', size] at bound
  omega

/-- Whether an index has been or may be given to a temporary. Nothing has been given at zero. -/
def Free (index : Nat) : Prop := index = 0 ∨ scope.contains (Name.temp index).text = false

instance : DecidablePred scope.Free := fun index =>
  inferInstanceAs (Decidable (index = 0 ∨ scope.contains (Name.temp index).text = false))

theorem free_zero : scope.Free 0 := Or.inl rfl

/-- The next temporary is free. -/
theorem free_nextTemp (last : Nat) : scope.Free (scope.nextTemp last) :=
  Or.inr (scope.nextTemp_free last)

/-- There are always more free indices. -/
theorem free_infinite : {index | scope.Free index}.Infinite :=
  Set.infinite_of_forall_exists_gt fun last =>
    ⟨scope.nextTemp last, scope.free_nextTemp last, nextTemp_gt scope last⟩

/-- The count starts at zero. -/
theorem count_succ_sub {index : Nat} (free : scope.Free index) :
    Nat.count scope.Free (index + 1) - 1 = Nat.count scope.Free index := by
  rw [Nat.count_succ, if_pos free, Nat.add_sub_cancel]

/-- What a search passes over is not counted. -/
theorem count_freeIndex (attempts : Nat) {index : Nat} (positive : 0 < index) :
    Nat.count scope.Free (scope.freeIndex attempts index) = Nat.count scope.Free index := by
  induction attempts generalizing index with
  | zero => rfl
  | succ attempts ih =>
      rw [freeIndex]
      split
      · rename_i taken
        have passed : ¬scope.Free index := by
          rintro (zero | free)
          · omega
          · rw [taken] at free
            cases free
        rw [ih (Nat.succ_pos index), Nat.count_succ, if_neg passed, Nat.add_zero]
      · rfl

/-- A new temporary is the next one in the count. -/
theorem count_nextTemp (last : Nat) :
    Nat.count scope.Free (scope.nextTemp last) = Nat.count scope.Free (last + 1) :=
  scope.count_freeIndex scope.size (Nat.succ_pos last)

/-- The indices after one and up to another that no variable is named like. -/
def freeIn (low high : Nat) : Set Nat :=
  {index | low < index ∧ index ≤ high ∧ scope.contains (Name.temp index).text = false}

section Intervals
variable {low middle high : Nat}

/-- No index is after a bound and up to it. -/
theorem freeIn_self : scope.freeIn low low = ∅ := by
  ext index
  simp only [freeIn, Set.mem_ofPred_eq, Set.mem_empty_iff_false, iff_false]
  omega

/-- There are more free indices between wider bounds. -/
theorem freeIn_mono {lower higher : Nat} (below : lower ≤ low) (above : high ≤ higher) :
    scope.freeIn low high ⊆ scope.freeIn lower higher := fun _ member =>
  ⟨Nat.lt_of_le_of_lt below member.1, Nat.le_trans member.2.1 above, member.2.2⟩

/-- Free indices up to a bound and after it are all of them. -/
theorem freeIn_union (first : low ≤ middle) (second : middle ≤ high) :
    scope.freeIn low middle ∪ scope.freeIn middle high = scope.freeIn low high := by
  ext index
  simp only [freeIn, Set.mem_union, Set.mem_ofPred_eq]
  constructor
  · rintro (⟨above, upTo, free⟩ | ⟨above, upTo, free⟩)
    · exact ⟨above, Nat.le_trans upTo second, free⟩
    · exact ⟨Nat.lt_of_le_of_lt first above, upTo, free⟩
  · rintro ⟨above, upTo, free⟩
    rcases Nat.lt_or_ge middle index with there | here
    · exact Or.inr ⟨there, upTo, free⟩
    · exact Or.inl ⟨above, here, free⟩

/-- No free index is up to a bound and after it. -/
theorem freeIn_apart : ∀ index ∈ scope.freeIn low middle, index ∉ scope.freeIn middle high :=
  fun _ before after => Nat.not_lt.mpr before.2.1 after.1

/-- Up to a new temporary, no other index is free. -/
theorem freeIn_nextTemp (last : Nat) :
    scope.freeIn last (scope.nextTemp last) = {scope.nextTemp last} := by
  ext index
  simp only [freeIn, Set.mem_singleton_iff, Set.mem_ofPred_eq]
  constructor
  · rintro ⟨above, upTo, free⟩
    by_contra other
    have counted := Nat.count_strict_mono (p := scope.Free) (Or.inr free)
      (Nat.lt_of_le_of_ne upTo other)
    have start := Nat.count_monotone scope.Free (Nat.succ_le_of_lt above)
    rw [count_nextTemp] at counted
    exact Nat.not_lt.mpr start counted
  · rintro rfl
    exact ⟨nextTemp_gt scope last, Nat.le_refl _, scope.nextTemp_free last⟩

end Intervals

/-- An index that a temporary can have. -/
def Available (index : Nat) : Prop :=
  1 ≤ index ∧ scope.contains (Name.temp index).text = false

instance : DecidablePred scope.Available := fun index =>
  inferInstanceAs (Decidable (1 ≤ index ∧ scope.contains (Name.temp index).text = false))

/-- Zero is counted, but no temporary has it. -/
theorem count_available {index : Nat} (positive : 1 ≤ index) :
    Nat.count scope.Free index = Nat.count scope.Available index + 1 := by
  induction index, positive using Nat.le_induction with
  | base => rfl
  | succ index positive ih =>
      have same : scope.Free index ↔ scope.Available index := by
        simp only [Free, Available, positive, true_and, Nat.ne_of_gt positive, false_or]
      simp only [Nat.count_succ, ih, same]
      omega

variable (other : Scope)

/-- The index that the temporary with an index gets among other variables: the one with the same
number in the count. -/
noncomputable def recount (index : Nat) : Nat :=
  Nat.nth other.Free (Nat.count scope.Free (index + 1) - 1)

theorem recount_zero : scope.recount other 0 = 0 := by
  rw [recount, scope.count_succ_sub scope.free_zero, Nat.count_zero]
  exact Nat.nth_zero_of_zero other.free_zero

/-- Among other variables, too, the new temporary is the next one. -/
theorem recount_nextTemp (last : Nat) :
    scope.recount other (scope.nextTemp last) = other.nextTemp (scope.recount other last) := by
  have positive : 0 < Nat.count scope.Free (last + 1) :=
    Nat.lt_of_le_of_lt (Nat.zero_le _) (Nat.count_strict_mono scope.free_zero (Nat.succ_pos last))
  have there : Nat.count other.Free (other.nextTemp (scope.recount other last)) =
      Nat.count scope.Free (last + 1) := by
    rw [count_nextTemp, recount, Nat.count_nth_succ_of_infinite other.free_infinite,
      Nat.sub_add_cancel positive]
  have reached := Nat.nth_count (other.free_nextTemp (scope.recount other last))
  rw [there] at reached
  rw [← reached, recount, scope.count_succ_sub (scope.free_nextTemp last), count_nextTemp]

/-- Temporaries are in the same order among other variables. -/
theorem recount_strictMonoOn : StrictMonoOn (scope.recount other) {index | scope.Free index} := by
  intro index free later freeLater before
  apply Nat.nth_strictMono other.free_infinite
  rw [scope.count_succ_sub free, scope.count_succ_sub freeLater]
  exact Nat.count_strict_mono free before

end Scope

end Cpl
