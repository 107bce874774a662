import Cpl.Proofs.Quad.Flow

namespace Cpl

namespace Listing

/-- Every jump goes ahead, to a label of the code below it or of what is below the whole. -/
def Ahead (below : List Label) : Listing → Prop
  | [] => True
  | quad :: rest =>
      (∀ label, quad.jump? = some label → label ∈ marks rest ++ below) ∧ Ahead below rest

/-- The labels of the unconditional jumps that go back, in order. -/
def backJumps (above : List Label) : Listing → List Label
  | [] => []
  | .jump label :: rest => (if label ∈ above then [label] else []) ++ backJumps above rest
  | quad :: rest => backJumps (above ++ quad.marked?.toList) rest

variable {below more : List Label} {code first second : Listing}

@[simp] theorem ahead_nil : Ahead below [] := trivial

@[simp] theorem ahead_cons {quad : Quad} {rest : Listing} : Ahead below (quad :: rest) ↔
    (∀ label, quad.jump? = some label → label ∈ marks rest ++ below) ∧ Ahead below rest := Iff.rfl

@[simp] theorem ahead_append :
    Ahead below (first ++ second) ↔ Ahead (second.marks ++ below) first ∧ Ahead below second := by
  induction first with
  | nil => simp
  | cons quad rest ih => simp [ih, and_assoc]

/-- There may be more labels below. -/
theorem Ahead.mono (ahead : Ahead below code) (wider : below ⊆ more) : Ahead more code := by
  induction code with
  | nil => trivial
  | cons quad rest ih =>
      refine ⟨fun label away => ?_, ih ahead.2⟩
      exact (List.mem_append.mp (ahead.1 label away)).elim (List.mem_append_left _)
        fun lower => List.mem_append_right _ (wider lower)

/-- Code whose jumps go ahead may follow such code. -/
theorem Ahead.append (start : Ahead [] first) (rest : Ahead [] second) :
    Ahead [] (first ++ second) :=
  ahead_append.mpr ⟨start.mono (List.nil_subset _), rest⟩

/-- An instruction that does not jump goes ahead. -/
theorem ahead_single {quad : Quad} (straight : quad.jump? = none) : Ahead below [quad] := by
  simp [straight]

end Listing

/-- All jumps of code go ahead but some unconditional ones, which go back to given entries. -/
inductive Onward : (above : List Label) → Listing → (below entries : List Label) → Prop
  | nil {above below : List Label} : Onward above [] below []
  | ahead {above below entries : List Label} {quad : Quad} {rest : Listing}
      (goes : ∀ label, quad.jump? = some label → label ∈ rest.marks ++ below)
      (onward : Onward (above ++ quad.marked?.toList) rest below entries) :
      Onward above (quad :: rest) below entries
  | back {above below entries : List Label} {label : Label} {rest : Listing}
      (marked : label ∈ above) (onward : Onward above rest below entries) :
      Onward above (.jump label :: rest) below (label :: entries)

section Rules
variable {above below entries others : List Label} {code first second : Listing}

/-- Code after code goes back to the entries of both. -/
theorem onward_append (start : Onward above first (second.marks ++ below) entries)
    (rest : Onward (above ++ first.marks) second below others) :
    Onward above (first ++ second) below (entries ++ others) := by
  generalize inner : second.marks ++ below = between at start
  induction start with
  | nil => simpa using rest
  | ahead goes _ ih =>
      subst inner
      rw [Listing.marks_cons, ← List.append_assoc] at rest
      rw [List.cons_append]
      refine .ahead (fun label away => ?_) (ih rest rfl)
      rw [Listing.marks_append, List.append_assoc]
      exact goes label away
  | back marked _ ih =>
      subst inner
      exact .back marked (ih (by simpa [Quad.marked?] using rest) rfl)

/-- More labels above and below make no difference. -/
theorem Onward.mono {wider lower : List Label} (onward : Onward above code below entries)
    (up : above ⊆ wider) (down : below ⊆ lower) : Onward wider code lower entries := by
  induction onward generalizing wider with
  | nil => exact .nil
  | ahead goes _ ih =>
      refine .ahead (fun label away => ?_) (ih (List.append_subset.mpr ⟨?_, ?_⟩) down)
      · exact (List.mem_append.mp (goes label away)).elim (List.mem_append_left _)
          fun lower => List.mem_append_right _ (down lower)
      · exact fun label member => List.mem_append_left _ (up member)
      · exact List.subset_append_right _ _
  | back marked _ ih => exact .back (up marked) (ih up down)

/-- Code that keeps its jumps to itself may stand anywhere. -/
theorem Onward.anywhere (onward : Onward [] code [] entries) : Onward above code below entries :=
  onward.mono (List.nil_subset _) (List.nil_subset _)

/-- Code that only jumps ahead goes back to no entry. -/
theorem onward_of_ahead (ahead : code.Ahead below) : Onward above code below [] := by
  induction code generalizing above with
  | nil => exact .nil
  | cons quad rest ih => exact .ahead ahead.1 (ih ahead.2)

/-- Code that only jumps ahead may come first. -/
theorem onward_front (ahead : first.Ahead (second.marks ++ below))
    (rest : Onward (above ++ first.marks) second below entries) :
    Onward above (first ++ second) below entries :=
  onward_append (onward_of_ahead ahead) rest

/-- Without entries all jumps go ahead. -/
theorem Onward.ahead_of_nil (onward : Onward above code below []) : code.Ahead below := by
  induction code generalizing above with
  | nil => trivial
  | cons quad rest ih =>
      cases onward with
      | ahead goes onward => exact ⟨goes, ih onward⟩

/-- Conditional jumps go ahead. -/
theorem Onward.conditional {before after : Listing} {label : Label} {value : Value}
    (onward : Onward above (before ++ .jumpIfZero label value :: after) below entries) :
    label ∈ after.marks ++ below := by
  induction before generalizing above entries with
  | nil =>
      cases onward with
      | ahead goes _ => exact goes label rfl
  | cons quad rest ih =>
      cases onward with
      | ahead _ onward => exact ih onward
      | back _ onward => exact ih onward

/-- In code that marks each label once, the jumps back are those to the entries. -/
theorem Onward.backJumps (onward : Onward above code below entries)
    (once : (above ++ (code.marks ++ below)).Nodup) : code.backJumps above = entries := by
  induction onward with
  | nil => rfl
  | @ahead above _ _ quad rest goes _ ih =>
      rw [Listing.marks_cons, List.append_assoc, ← List.append_assoc] at once
      rw [← ih once]
      cases quad with
      | jump label =>
          have fresh : label ∉ above := fun marked =>
            (List.nodup_append.mp once).2.2 label (List.mem_append_left _ marked) label
              (goes label rfl) rfl
          simp [Listing.backJumps, fresh, Quad.marked?]
      | _ => rfl
  | back marked _ ih =>
      rw [Listing.backJumps, if_pos marked, ih once]
      rfl

end Rules

/-- A label that is marked has its mark somewhere in the code. -/
theorem Listing.mem_marks {label : Label} {code : Listing} (marked : label ∈ code.marks) :
    ∃ before after, code = before ++ .mark label :: after := by
  obtain ⟨quad, member, found⟩ := List.mem_filterMap.mp marked
  obtain rfl : quad = .mark label := by
    cases quad <;> cases found
    rfl
  exact List.append_of_mem member

section Walks
variable {program code past ahead : Listing}

/-- If all jumps go ahead, every step of a walk leaves less of the program ahead, but never
nothing. -/
theorem walk_ahead (final : program = code ++ [.halt]) (once : program.marks.Nodup)
    (goes : program.Ahead []) (walked : Walk program past ahead) :
    ahead <:+ program ∧ ahead ≠ [] ∧ past.length + ahead.length ≤ program.length := by
  induction walked with
  | start => exact ⟨List.suffix_refl _, by simp [final], by simp⟩
  | @next past ahead quad _ onward ih =>
      obtain ⟨within, _, length⟩ := ih
      refine ⟨(List.suffix_cons quad ahead).trans within, ?_, ?_⟩
      · rintro rfl
        rw [final] at within
        obtain rfl : quad = .halt := by simpa using within.getLast (by simp)
        cases onward
      · simp only [List.length_append, List.length_cons, List.length_nil] at length ⊢
        omega
  | @jump past ahead before after quad label _ away place ih =>
      obtain ⟨⟨front, split⟩, _, length⟩ := ih
      have lower : label ∈ ahead.marks := by
        rw [← split, Listing.ahead_append] at goes
        simpa using goes.2.1 label away
      obtain ⟨passed, further, rfl⟩ := Listing.mem_marks lower
      have here : .mark label :: after <:+ program := ⟨before, place.symm⟩
      have there : .mark label :: further <:+ program :=
        ⟨front ++ quad :: passed, by simpa using split⟩
      have same := (Listing.seek_within once here).symm.trans (Listing.seek_within once there)
      refine ⟨here, by simp, ?_⟩
      rw [Option.some.inj same]
      simp only [List.length_append, List.length_cons, List.length_nil] at length ⊢
      omega

/-- A walk goes on until it has reached the halt. -/
theorem walk_proceeds (final : program = code ++ [.halt]) (running : Quad.halt ∉ code)
    (matched : ∀ label ∈ program.jumps, label ∈ program.marks) (walked : Walk program past ahead)
    (within : ahead <:+ program) (more : ahead ≠ []) :
    ahead = [.halt] ∨ ∃ quad further, Walk program (past ++ [quad]) further := by
  obtain ⟨front, split⟩ := within
  cases ahead with
  | nil => exact absurd rfl more
  | cons quad rest =>
      by_cases onward : quad.continues = true
      · exact Or.inr ⟨quad, rest, walked.next onward⟩
      · cases quad with
        | jump label =>
            have named : label ∈ program.jumps := by simp [← split, Quad.jump?]
            obtain ⟨before, after, place⟩ := Listing.mem_marks (matched label named)
            exact Or.inr ⟨_, _, walked.jump rfl place⟩
        | halt =>
            rcases List.eq_nil_or_concat rest with rfl | ⟨later, last, rfl⟩
            · exact Or.inl rfl
            · have sides : (front ++ .halt :: later) ++ [last] = code ++ [.halt] := by
                simpa using split.trans final
              exact absurd ((List.append_inj' sides rfl).1 ▸ by simp) running
        | _ => exact absurd rfl onward

end Walks

end Cpl
