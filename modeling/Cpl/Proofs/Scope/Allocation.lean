import Cpl.Proofs.Scope.FreeIndices

namespace Cpl

namespace Scope

/-- The loop without a bound: how many rounds it takes after the last index, and the index that it
ends with. -/
inductive Search (scope : Scope) : (rounds last index : Nat) → Prop
  | found {last : Nat} (free : scope.contains (Name.temp (last + 1)).text = false) :
      Search scope 1 last (last + 1)
  | passed {rounds last index : Nat} (taken : scope.contains (Name.temp (last + 1)).text = true)
      (more : Search scope rounds (last + 1) index) : Search scope (rounds + 1) last index

namespace Search
variable {scope : Scope} {rounds last index : Nat}

/-- Each round takes one index. -/
theorem counted (search : Search scope rounds last index) : index = last + rounds := by
  induction search with
  | found => rfl
  | passed _ _ ih => omega

/-- All indices before the one that the loop ends with are in use. -/
theorem least (search : Search scope rounds last index) :
    IsLeast {other | last < other ∧ scope.contains (Name.temp other).text = false} index := by
  induction search with
  | found free => exact ⟨⟨Nat.lt_add_one _, free⟩, fun _ other => other.1⟩
  | passed taken _ ih =>
      obtain ⟨⟨after, free⟩, below⟩ := ih
      refine ⟨⟨Nat.lt_of_succ_lt after, free⟩, ?_⟩
      rintro other ⟨above, otherFree⟩
      refine below ⟨Nat.lt_of_le_of_ne above ?_, otherFree⟩
      rintro rfl
      rw [taken] at otherFree
      cases otherFree

/-- The loop ends in one way only. -/
theorem unique {others other : Nat} (search : Search scope rounds last index)
    (again : Search scope others last other) : others = rounds ∧ other = index := by
  have same := again.least.unique search.least
  have first := search.counted
  have second := again.counted
  omega

end Search

/-- The bounded search goes through the loop if it ends with a free index. -/
theorem freeIndex_search {scope : Scope} {attempts last : Nat}
    (free : scope.contains (Name.temp (scope.freeIndex attempts (last + 1))).text = false) :
    ∃ rounds ≤ attempts + 1, Search scope rounds last (scope.freeIndex attempts (last + 1)) := by
  induction attempts generalizing last with
  | zero => exact ⟨1, Nat.le_refl 1, .found free⟩
  | succ attempts ih =>
      rw [freeIndex] at free ⊢
      split
      next taken =>
        rw [if_pos taken] at free
        obtain ⟨rounds, bound, search⟩ := ih free
        exact ⟨rounds + 1, Nat.succ_le_succ bound, .passed taken search⟩
      next notTaken =>
        rw [if_neg notTaken] at free
        exact ⟨1, Nat.le_add_left 1 _, .found free⟩

end Scope

/-- The loop for a new temporary ends, after one round more than there are variables at most. The
temporary gets the least index after the last one that no variable is named like, and this is the
last index from then on. -/
theorem freshTemp_allocates (scope : Scope) (supply : Supply) :
    ∃ rounds index, rounds ≤ scope.size + 1 ∧
      (∀ others other, scope.Search others supply.temps other ↔ others = rounds ∧ other = index) ∧
      freshTemp scope supply = .ok (.temp index) { supply with temps := index } ∧
      IsLeast {other | supply.temps < other ∧ scope.contains ("t" ++ toString other) = false}
        index := by
  obtain ⟨rounds, bound, search⟩ := Scope.freeIndex_search (scope.nextTemp_free supply.temps)
  refine ⟨rounds, scope.nextTemp supply.temps, bound, fun others other => ⟨search.unique, ?_⟩, rfl,
    search.least⟩
  rintro ⟨rfl, rfl⟩
  exact search

end Cpl
