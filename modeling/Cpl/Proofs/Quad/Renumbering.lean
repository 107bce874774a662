import Cpl.Proofs.Quad.Assigned
import Mathlib.Order.Monotone.Defs
import Mathlib.Order.Basic

namespace Cpl

/-- New numbers for temporaries and labels. -/
structure Renumbering where
  temps : Nat → Nat
  labels : Nat → Nat

def Name.renumber (numbers : Renumbering) : Name → Name
  | var name => var name
  | temp index => temp (numbers.temps index)

def Label.renumber (numbers : Renumbering) (label : Label) : Label := ⟨numbers.labels label.index⟩

def Value.renumber (numbers : Renumbering) : Value → Value
  | literal value => literal value
  | name place => name (place.renumber numbers)

namespace Quad

def renumber (numbers : Renumbering) : Quad → Quad
  | assign scalar target value => assign scalar (target.renumber numbers) (value.renumber numbers)
  | input scalar target => input scalar (target.renumber numbers)
  | print scalar value => print scalar (value.renumber numbers)
  | arith scalar op target left right =>
      arith scalar op (target.renumber numbers) (left.renumber numbers) (right.renumber numbers)
  | compare scalar op target left right =>
      compare scalar op (target.renumber numbers) (left.renumber numbers) (right.renumber numbers)
  | toReal target value => toReal (target.renumber numbers) (value.renumber numbers)
  | toInt target value => toInt (target.renumber numbers) (value.renumber numbers)
  | jump label => jump (label.renumber numbers)
  | jumpIfZero label value => jumpIfZero (label.renumber numbers) (value.renumber numbers)
  | mark label => mark (label.renumber numbers)
  | halt => halt

variable (numbers : Renumbering) (quad : Quad)

/-- The operands of a renumbered instruction are renumbered. -/
theorem renumber_operands :
    (quad.renumber numbers).operands = quad.operands.map (Value.renumber numbers) := by
  cases quad <;> rfl

/-- The target of a renumbered instruction is renumbered. -/
theorem renumber_target :
    (quad.renumber numbers).target? = quad.target?.map (Name.renumber numbers) := by
  cases quad <;> rfl

/-- The mark of a renumbered instruction is renumbered. -/
theorem renumber_marked :
    (quad.renumber numbers).marked? = quad.marked?.map (Label.renumber numbers) := by
  cases quad <;> rfl

/-- The jump of a renumbered instruction is renumbered. -/
theorem renumber_jump :
    (quad.renumber numbers).jump? = quad.jump?.map (Label.renumber numbers) := by
  cases quad <;> rfl

end Quad

namespace Listing

def renumber (numbers : Renumbering) (code : Listing) : Listing := code.map (Quad.renumber numbers)

@[simp] theorem renumber_nil (numbers : Renumbering) : renumber numbers [] = [] := rfl

@[simp] theorem renumber_cons (numbers : Renumbering) (quad : Quad) (rest : Listing) :
    renumber numbers (quad :: rest) = quad.renumber numbers :: renumber numbers rest := rfl

@[simp] theorem renumber_append (numbers : Renumbering) (first second : Listing) :
    renumber numbers (first ++ second) = renumber numbers first ++ renumber numbers second :=
  List.map_append

/-- The temporaries that occur in a listing. -/
def temps (code : Listing) : Set Nat := {index | ∃ quad ∈ code, index ∈ quad.reads ∪ quad.writes}

/-- The labels that occur in a listing. -/
def labels (code : Listing) : Set Nat :=
  {index | ∃ quad ∈ code, quad.marked? = some ⟨index⟩ ∨ quad.jump? = some ⟨index⟩}

section Occurrence
variable {numbers others : Renumbering} {code : Listing} {index : Nat}

/-- Renumberings that do the same to a listing give the same number to what occurs in it. -/
theorem renumber_temps (same : code.renumber numbers = code.renumber others)
    (occurs : index ∈ code.temps) : numbers.temps index = others.temps index := by
  obtain ⟨quad, member, read | written⟩ := occurs
  · have alike := congrArg Quad.operands (List.map_inj_left.mp same quad member)
    rw [Quad.renumber_operands, Quad.renumber_operands, List.map_inj_left] at alike
    simpa [Value.renumber, Name.renumber] using alike _ read
  · have alike := congrArg Quad.target? (List.map_inj_left.mp same quad member)
    have target : quad.target? = some (.temp index) := written
    simpa [Quad.renumber_target, target, Name.renumber] using alike

/-- Renumberings that give the same code agree on its labels. -/
theorem renumber_labels (same : code.renumber numbers = code.renumber others)
    (occurs : index ∈ code.labels) : numbers.labels index = others.labels index := by
  obtain ⟨quad, member, marked | jumped⟩ := occurs
  · have alike := congrArg Quad.marked? (List.map_inj_left.mp same quad member)
    simpa [Quad.renumber_marked, marked, Label.renumber] using alike
  · have alike := congrArg Quad.jump? (List.map_inj_left.mp same quad member)
    simpa [Quad.renumber_jump, jumped, Label.renumber] using alike

end Occurrence

end Listing

/-- Both numbers of a pair are less than those of another. -/
def Below (pair next : Nat × Nat) : Prop := pair.1 < next.1 ∧ pair.2 < next.2

/-- Pairs in increasing order, after some numbers and up to others. -/
structure Rising (pairs : List (Nat × Nat)) (low high : Nat × Nat) : Prop where
  grown : low ≤ high
  after : ∀ pair ∈ pairs, Below low pair
  upTo : ∀ pair ∈ pairs, pair ≤ high
  increasing : pairs.Pairwise Below

section Rising
variable {pairs : List (Nat × Nat)} {low middle high : Nat × Nat}

/-- What is above a pair is above smaller ones. -/
theorem Below.of_le {pair next : Nat × Nat} (lower : low ≤ pair) (below : Below pair next) :
    Below low next :=
  ⟨Nat.lt_of_le_of_lt lower.1 below.1, Nat.lt_of_le_of_lt lower.2 below.2⟩

/-- Numbers that are passed over need no pairs. -/
theorem rising_nil (grown : low ≤ high) : Rising [] low high where
  grown := grown
  after _ member := by cases member
  upTo _ member := by cases member
  increasing := .nil

/-- A pair above the lower numbers is in order. -/
theorem rising_single {pair : Nat × Nat} (below : Below low pair) : Rising [pair] low pair where
  grown := ⟨Nat.le_of_lt below.1, Nat.le_of_lt below.2⟩
  after _ member := List.mem_singleton.mp member ▸ below
  upTo _ member := List.mem_singleton.mp member ▸ le_refl _
  increasing := List.pairwise_singleton _ _

/-- Pairs in order after pairs in order are in order. -/
theorem rising_append {later : List (Nat × Nat)} (first : Rising pairs low middle)
    (second : Rising later middle high) : Rising (pairs ++ later) low high where
  grown := le_trans first.grown second.grown
  after pair member := by
    rcases List.mem_append.mp member with early | late
    · exact first.after pair early
    · exact (second.after pair late).of_le first.grown
  upTo pair member := by
    rcases List.mem_append.mp member with early | late
    · exact le_trans (first.upTo pair early) second.grown
    · exact second.upTo pair late
  increasing := by
    refine List.pairwise_append.mpr ⟨first.increasing, second.increasing, ?_⟩
    exact fun pair early next late => (second.after next late).of_le (first.upTo pair early)

/-- In increasing pairs each first number is found with its second one. -/
theorem lookup_increasing (increasing : pairs.Pairwise Below) {pair : Nat × Nat}
    (member : pair ∈ pairs) : pairs.lookup pair.1 = some pair.2 := by
  induction pairs with
  | nil => cases member
  | cons head rest ih =>
      obtain ⟨least, later⟩ := List.pairwise_cons.mp increasing
      rcases List.mem_cons.mp member with rfl | within
      · exact List.lookup_cons_self
      · have other : (pair.1 == head.1) = false := beq_false_of_ne (Nat.ne_of_gt (least pair within).1)
        rw [List.lookup_cons, other]
        exact ih later within

/-- The second numbers increase with the first ones. -/
theorem increasing_pairs (increasing : pairs.Pairwise Below) {pair next : Nat × Nat}
    (member : pair ∈ pairs) (within : next ∈ pairs) (less : pair.1 < next.1) :
    pair.2 < next.2 := by
  induction pairs with
  | nil => cases member
  | cons head rest ih =>
      obtain ⟨least, later⟩ := List.pairwise_cons.mp increasing
      rcases List.mem_cons.mp within with rfl | nextWithin
      · -- Nothing is before the head.
        rcases List.mem_cons.mp member with rfl | pairWithin
        · exact absurd less (Nat.lt_irrefl _)
        · exact absurd less (Nat.lt_asymm (least pair pairWithin).1)
      · rcases List.mem_cons.mp member with rfl | pairWithin
        · exact (least next nextWithin).2
        · exact ih later pairWithin nextWithin

/-- If the pairs determine a function on some numbers, it increases on them: each of them is in a
pair, or else its value could be changed. -/
theorem strictMonoOn_pairs {taken : Nat → Nat} {occurring : Set Nat}
    (increasing : pairs.Pairwise Below) (takes : ∀ pair ∈ pairs, taken pair.1 = pair.2)
    (determined : ∀ index ∈ occurring, ∀ others : Nat → Nat,
      (∀ pair ∈ pairs, others pair.1 = pair.2) → others index = taken index) :
    StrictMonoOn taken occurring := by
  have paired : ∀ index ∈ occurring, ∃ pair ∈ pairs, pair.1 = index := by
    intro index occurs
    by_contra absent
    have unchanged : ∀ pair ∈ pairs,
        Function.update taken index (taken index + 1) pair.1 = pair.2 := by
      intro pair member
      have apart : pair.1 ≠ index := fun same => absent ⟨pair, member, same⟩
      rw [Function.update_of_ne apart, takes pair member]
    have same := determined index occurs _ unchanged
    rw [Function.update_self] at same
    omega
  intro index occurs next follows less
  obtain ⟨pair, member, rfl⟩ := paired index occurs
  obtain ⟨other, within, rfl⟩ := paired next follows
  rw [takes pair member, takes other within]
  exact increasing_pairs increasing member within less

end Rising

/-- Temporaries and labels that are paired with each other. -/
structure Pairing where
  temps : List (Nat × Nat)
  labels : List (Nat × Nat)

instance : Append Pairing where
  append first second := ⟨first.temps ++ second.temps, first.labels ++ second.labels⟩

/-- A renumbering agrees with pairs if it takes the first number of each to the second. -/
structure Renumbering.Agrees (numbers : Renumbering) (pairing : Pairing) : Prop where
  temps : ∀ pair ∈ pairing.temps, numbers.temps pair.1 = pair.2
  labels : ∀ pair ∈ pairing.labels, numbers.labels pair.1 = pair.2

/-- A renumbering agrees with all pairs exactly if it does with each part. -/
theorem agrees_append {numbers : Renumbering} {first second : Pairing} :
    numbers.Agrees (first ++ second) ↔ numbers.Agrees first ∧ numbers.Agrees second := by
  constructor
  · intro agrees
    exact ⟨⟨fun pair member => agrees.temps pair (List.mem_append_left _ member),
        fun pair member => agrees.labels pair (List.mem_append_left _ member)⟩,
      ⟨fun pair member => agrees.temps pair (List.mem_append_right _ member),
        fun pair member => agrees.labels pair (List.mem_append_right _ member)⟩⟩
  · rintro ⟨early, late⟩
    exact ⟨fun pair member =>
        (List.mem_append.mp member).elim (early.temps pair) (late.temps pair),
      fun pair member => (List.mem_append.mp member).elim (early.labels pair) (late.labels pair)⟩

/-- Looks numbers up among the pairs. -/
def Pairing.numbers (pairing : Pairing) : Renumbering where
  temps index := (pairing.temps.lookup index).getD 0
  labels index := (pairing.labels.lookup index).getD 0

section Pairing
variable {pairing : Pairing} {code image : Listing}

/-- Pairs in increasing order are what some renumbering agrees with. -/
theorem Pairing.numbers_agrees (temps : pairing.temps.Pairwise Below)
    (labels : pairing.labels.Pairwise Below) : pairing.numbers.Agrees pairing where
  temps pair member := by simp only [numbers, lookup_increasing temps member, Option.getD_some]
  labels pair member := by simp only [numbers, lookup_increasing labels member, Option.getD_some]

/-- Increasing pairs give a renumbering that increases wherever it matters. -/
theorem Pairing.renumbered (temps : pairing.temps.Pairwise Below)
    (labels : pairing.labels.Pairwise Below)
    (every : ∀ numbers : Renumbering, numbers.Agrees pairing → image = code.renumber numbers) :
    ∃ numbers : Renumbering, StrictMonoOn numbers.temps code.temps ∧
      StrictMonoOn numbers.labels code.labels ∧ image = code.renumber numbers := by
  have agrees := numbers_agrees temps labels
  have whole := every _ agrees
  refine ⟨pairing.numbers, strictMonoOn_pairs temps agrees.temps ?_,
    strictMonoOn_pairs labels agrees.labels ?_, whole⟩
  · intro index occurs others takes
    have same := every ⟨others, pairing.numbers.labels⟩ ⟨takes, agrees.labels⟩
    exact Listing.renumber_temps (same.symm.trans whole) occurs
  · intro index occurs others takes
    have same := every ⟨pairing.numbers.temps, others⟩ ⟨agrees.temps, takes⟩
    exact Listing.renumber_labels (same.symm.trans whole) occurs

end Pairing

end Cpl
