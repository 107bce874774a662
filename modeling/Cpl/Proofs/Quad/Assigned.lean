import Cpl.Proofs.Quad.Flow
import Mathlib.Data.Set.Basic

namespace Cpl

/-- The temporary that a value is kept in, if any. -/
def Value.temps (value : Value) : Set Nat := {index | value = .name (.temp index)}

/-- The temporaries that an instruction reads. -/
def Quad.reads (quad : Quad) : Set Nat := {index | Value.name (.temp index) ∈ quad.operands}

/-- The temporary that an instruction writes, if any. -/
def Quad.writes (quad : Quad) : Set Nat := {index | quad.target? = some (.temp index)}

/-- The temporaries that hold a value below an instruction. Below a mark they are those known for
its label, and nothing is reached from an instruction that does not continue. -/
def Quad.leaves (known : Label → Set Nat) (assigned : Set Nat) : Quad → Set Nat
  | .mark label => known label
  | .jump _ | .halt => Set.univ
  | quad => assigned ∪ quad.writes

/-- The code reads only temporaries that hold a value. Wherever a label is reached, those known
for it do, and those in `final` do at the end. -/
def Assigns (known : Label → Set Nat) (assigned : Set Nat) : Listing → Set Nat → Prop
  | [], final => final ⊆ assigned
  | quad :: rest, final =>
      quad.reads ⊆ assigned ∧
        (∀ label, quad.jump? = some label ∨ quad.marked? = some label → known label ⊆ assigned) ∧
        Assigns known (quad.leaves known assigned) rest final

section Rules
variable {known other : Label → Set Nat} {assigned middle final : Set Nat} {code first second : Listing}

/-- More temporaries hold a value after an instruction if more did before it. -/
theorem leaves_mono {larger : Set Nat} (quad : Quad) (more : assigned ⊆ larger) :
    quad.leaves known assigned ⊆ quad.leaves known larger := by
  cases quad with
  | mark label => exact Set.Subset.refl _
  | jump label => exact Set.Subset.refl _
  | halt => exact Set.Subset.refl _
  | _ => exact Set.union_subset_union_left _ more

/-- Code may start with more temporaries than it needs. -/
theorem assigns_mono {larger : Set Nat} (tracked : Assigns known assigned code final)
    (more : assigned ⊆ larger) : Assigns known larger code final := by
  induction code generalizing assigned larger with
  | nil => exact Set.Subset.trans tracked more
  | cons quad rest ih =>
      obtain ⟨read, labelled, later⟩ := tracked
      exact ⟨Set.Subset.trans read more,
        fun label named => Set.Subset.trans (labelled label named) more,
        ih later (leaves_mono quad more)⟩

/-- Code after code reads only temporaries that hold a value by then. -/
theorem assigns_append (start : Assigns known assigned first middle)
    (rest : Assigns known middle second final) : Assigns known assigned (first ++ second) final := by
  induction first generalizing assigned with
  | nil => exact assigns_mono rest start
  | cons quad code ih =>
      obtain ⟨read, labelled, later⟩ := start
      exact ⟨read, labelled, ih later⟩

/-- The end of tracked code is tracked. -/
theorem assigns_drop (tracked : Assigns known assigned (first ++ second) final) :
    ∃ reached, Assigns known reached second final := by
  induction first generalizing assigned with
  | nil => exact ⟨assigned, tracked⟩
  | cons quad code ih => exact ih tracked.2.2

/-- Only the labels that occur in code matter to it. -/
theorem assigns_congr (tracked : Assigns known assigned code final)
    (same : ∀ label, label ∈ code.jumps ∨ label ∈ code.marks → other label = known label) :
    Assigns other assigned code final := by
  induction code generalizing assigned with
  | nil => exact tracked
  | cons quad rest ih =>
      obtain ⟨read, labelled, later⟩ := tracked
      have here : ∀ label, quad.jump? = some label ∨ quad.marked? = some label →
          other label = known label := by
        intro label named
        apply same
        rcases named with away | marked
        · left; simp [away]
        · right; simp [marked]
      have below : quad.leaves other assigned = quad.leaves known assigned := by
        cases quad with
        | mark label => exact here label (Or.inr rfl)
        | _ => rfl
      refine ⟨read, ?_, ?_⟩
      · intro label named
        rw [here label named]
        exact labelled label named
      · rw [below]
        apply ih later
        intro label member
        apply same
        rcases member with away | marked
        · left; simp [away]
        · right; simp [marked]

/-- An instruction reads what its operands are. -/
theorem reads_subset {quad : Quad} (ready : ∀ value ∈ quad.operands, value.temps ⊆ assigned) :
    quad.reads ⊆ assigned := fun _ read => ready _ read rfl

/-- An instruction without labels adds its target. -/
theorem assigns_plain {quad : Quad} (ready : ∀ value ∈ quad.operands, value.temps ⊆ assigned)
    (straight : quad.jump? = none) (unmarked : quad.marked? = none) (running : quad ≠ .halt) :
    Assigns known assigned [quad] (assigned ∪ quad.writes) := by
  refine ⟨reads_subset ready, by simp [straight, unmarked], ?_⟩
  cases quad with
  | mark label => simp [Quad.marked?] at unmarked
  | jump label => simp [Quad.jump?] at straight
  | halt => exact absurd rfl running
  | _ => exact Set.Subset.refl _

/-- What is known for a label must hold at a jump to it. -/
theorem assigns_jumpIfZero {label : Label} {value : Value} (ready : value.temps ⊆ assigned)
    (target : known label ⊆ assigned) (rest : Assigns known assigned code final) :
    Assigns known assigned (.jumpIfZero label value :: code) final := by
  refine ⟨reads_subset (by simpa [Quad.operands] using ready), ?_, ?_⟩
  · simpa [Quad.jump?, Quad.marked?] using target
  · exact assigns_mono rest Set.subset_union_left

/-- Anything may be assumed below a jump, for nothing gets there. -/
theorem assigns_jump {label : Label} (target : known label ⊆ assigned)
    (rest : Assigns known Set.univ code final) :
    Assigns known assigned (.jump label :: code) final := by
  refine ⟨reads_subset (by simp [Quad.operands]), ?_, rest⟩
  simpa [Quad.jump?, Quad.marked?] using target

/-- What is known for a label must hold at its mark, and is all that is known after it. -/
theorem assigns_mark {label : Label} (target : known label ⊆ assigned)
    (rest : Assigns known (known label) code final) :
    Assigns known assigned (.mark label :: code) final := by
  refine ⟨reads_subset (by simp [Quad.operands]), ?_, rest⟩
  simpa [Quad.jump?, Quad.marked?] using target

/-- What a walk has written, the tracked set of the code ahead counts on. Below a label it is what is
known there, which every jump to it has written. -/
theorem walk_assigned {program past ahead : Listing} (tracked : Assigns known ∅ program final)
    (walk : Walk program past ahead) :
    ∃ reached, (∀ index ∈ reached, ∃ quad ∈ past, quad.target? = some (.temp index)) ∧
      Assigns known reached ahead final := by
  induction walk with
  | start => exact ⟨∅, by simp, tracked⟩
  | @next past ahead quad walked onward ih =>
      obtain ⟨reached, written, read, labelled, later⟩ := ih
      refine ⟨quad.leaves known reached, ?_, later⟩
      intro index member
      have earlier : index ∈ reached ∨ quad.target? = some (.temp index) := by
        cases quad with
        | mark label => exact Or.inl (labelled label (Or.inr rfl) member)
        | jump label => simp [Quad.continues] at onward
        | halt => simp [Quad.continues] at onward
        | _ => exact member
      rcases earlier with old | new
      · obtain ⟨writer, passed, target⟩ := written index old
        exact ⟨writer, List.mem_append_left _ passed, target⟩
      · exact ⟨quad, by simp, new⟩
  | @jump past ahead before after quad label walked away place ih =>
      obtain ⟨reached, written, read, labelled, later⟩ := ih
      rw [place] at tracked
      obtain ⟨above, _, _, below⟩ := assigns_drop tracked
      refine ⟨known label, ?_, by simp [Quad.reads, Quad.operands], ?_, below⟩
      · intro index member
        obtain ⟨writer, passed, target⟩ := written index (labelled label (Or.inl away) member)
        exact ⟨writer, List.mem_append_left _ passed, target⟩
      · intro other named
        rcases named with nowhere | marked
        · simp [Quad.jump?] at nowhere
        · simp only [Quad.marked?, Option.some.injEq] at marked
          rw [marked]

end Rules

end Cpl
