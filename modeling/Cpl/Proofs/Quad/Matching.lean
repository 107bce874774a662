import Cpl.Proofs.Quad.Renumbering
import Mathlib.Logic.Equiv.Basic

namespace Cpl

/-- Two pairs differ in both numbers. -/
def Differ (pair next : Nat × Nat) : Prop := pair.1 ≠ next.1 ∧ pair.2 ≠ next.2

/-- Pairs without a number in common, after some numbers and up to others. -/
structure Matching (pairs : List (Nat × Nat)) (low high : Nat × Nat) : Prop where
  grown : low ≤ high
  after : ∀ pair ∈ pairs, Below low pair
  upTo : ∀ pair ∈ pairs, pair ≤ high
  apart : pairs.Pairwise Differ

section Matching
variable {pairs later : List (Nat × Nat)} {low middle high : Nat × Nat}

/-- Pairs in increasing order have no number in common. -/
theorem Rising.matching (rising : Rising pairs low high) : Matching pairs low high where
  grown := rising.grown
  after := rising.after
  upTo := rising.upTo
  apart := rising.increasing.imp fun below => ⟨Nat.ne_of_lt below.1, Nat.ne_of_lt below.2⟩

/-- Pairs of two ranges are joined if the ranges do not overlap on either side. -/
theorem Matching.join {start finish next last : Nat × Nat} (first : Matching pairs start finish)
    (second : Matching later next last) (grown : low ≤ high) (lower : low ≤ start ∧ low ≤ next)
    (upper : finish ≤ high ∧ last ≤ high) (left : finish.1 ≤ next.1)
    (right : finish.2 ≤ next.2 ∨ last.2 ≤ start.2) : Matching (pairs ++ later) low high where
  grown := grown
  after pair member := by
    rcases List.mem_append.mp member with early | late
    · exact (first.after pair early).of_le lower.1
    · exact (second.after pair late).of_le lower.2
  upTo pair member := by
    rcases List.mem_append.mp member with early | late
    · exact le_trans (first.upTo pair early) upper.1
    · exact le_trans (second.upTo pair late) upper.2
  apart := by
    refine List.pairwise_append.mpr ⟨first.apart, second.apart, ?_⟩
    intro pair early other late
    obtain ⟨-, rightAfter⟩ := first.after pair early
    obtain ⟨leftUpTo, rightUpTo⟩ := first.upTo pair early
    obtain ⟨leftNext, rightNext⟩ := second.after other late
    obtain ⟨-, rightLast⟩ := second.upTo other late
    unfold Differ
    omega

/-- Pairs between later numbers have none in common with earlier ones. -/
theorem matching_append (first : Matching pairs low middle) (second : Matching later middle high) :
    Matching (pairs ++ later) low high :=
  first.join second (le_trans first.grown second.grown) ⟨le_refl _, first.grown⟩
    ⟨second.grown, le_refl _⟩ (le_refl _) (.inl (le_refl _))

/-- What comes first on the one side may come second on the other. -/
theorem matching_crossed {left right : Nat} (first : Matching pairs (low.1, right) (left, high.2))
    (second : Matching later (left, low.2) (high.1, right)) : Matching (pairs ++ later) low high := by
  obtain ⟨leftFirst, rightSecond⟩ := first.grown
  obtain ⟨leftSecond, rightFirst⟩ := second.grown
  refine first.join second ⟨le_trans leftFirst leftSecond, le_trans rightFirst rightSecond⟩ ?_ ?_
    (le_refl _) (.inr (le_refl _))
  · exact ⟨⟨le_refl _, rightFirst⟩, ⟨leftFirst, le_refl _⟩⟩
  · exact ⟨⟨leftSecond, le_refl _⟩, ⟨le_refl _, rightSecond⟩⟩

/-- Pairs without a number in common are part of a permutation, which is made of swaps that correct
one pair each. -/
theorem exists_permutation (apart : pairs.Pairwise Differ) :
    ∃ change : Equiv.Perm Nat, ∀ pair ∈ pairs, change pair.1 = pair.2 := by
  induction pairs with
  | nil => exact ⟨Equiv.refl Nat, fun _ member => by cases member⟩
  | cons head rest ih =>
      obtain ⟨separate, apartRest⟩ := List.pairwise_cons.mp apart
      obtain ⟨change, takes⟩ := ih apartRest
      refine ⟨change.trans (Equiv.swap (change head.1) head.2), fun pair member => ?_⟩
      rw [Equiv.trans_apply]
      rcases List.mem_cons.mp member with rfl | within
      · exact Equiv.swap_apply_left _ _
      · obtain ⟨source, target⟩ := separate pair within
        have unmoved : change pair.1 ≠ change head.1 := change.injective.ne source.symm
        rw [takes pair within] at unmoved ⊢
        exact Equiv.swap_apply_of_ne_of_ne unmoved target.symm

end Matching

/-- If one listing is the other under every renumbering that agrees with some pairs, and these have
no number in common, then it is so under a permutation of the temporaries and one of the labels. -/
theorem Pairing.permuted {pairing : Pairing} {code image : Listing}
    (temps : pairing.temps.Pairwise Differ) (labels : pairing.labels.Pairwise Differ)
    (every : ∀ numbers : Renumbering, numbers.Agrees pairing → image = code.renumber numbers) :
    ∃ temps labels : Equiv.Perm Nat, image = code.renumber ⟨temps, labels⟩ := by
  obtain ⟨changeTemps, takesTemps⟩ := exists_permutation temps
  obtain ⟨changeLabels, takesLabels⟩ := exists_permutation labels
  exact ⟨changeTemps, changeLabels, every _ ⟨takesTemps, takesLabels⟩⟩

end Cpl
