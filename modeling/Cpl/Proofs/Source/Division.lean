import Cpl.Proofs.Source.Lines

namespace Cpl

namespace Line

/-- A text that no break divides. -/
def OneLine (text : List Char) : Prop := ∀ character ∈ text, isBreak character = false

/-- What ends a line before the text after it. A carriage return alone has no line feed after it. -/
inductive Ending : List Char → List Char → Prop
  | pair {after : List Char} : Ending ['\r', '\n'] after
  | feed {after : List Char} : Ending ['\n'] after
  | carriage {after : List Char} (alone : after.head? ≠ some '\n') : Ending ['\r'] after

/-- An ending is made of line breaks. -/
theorem Ending.breaks {mark after : List Char} (ending : Ending mark after) :
    ∀ character ∈ mark, isBreak character = true := by
  cases ending <;> simp [isBreak]

/-- No ending is cut off from a line feed. -/
theorem Ending.unsplit {text mark after : List Char} (ending : Ending mark after)
    (returned : (text ++ mark).getLast? = some '\r') : after.head? ≠ some '\n' := by
  cases ending with
  | pair | feed => simp at returned
  | carriage alone => exact alone

/-- The byte positions after the endings in a text that starts at a position. -/
def endings (position : Nat) : List Char → List Nat
  | [] => []
  | character :: rest =>
      let stop := position + character.utf8Size
      if character = '\n' ∨ character = '\r' ∧ rest.head? ≠ some '\n' then stop :: endings stop rest
      else endings stop rest

section Endings
variable {position : Nat}

/-- No line ends within a text without endings. -/
theorem endings_text {text : List Char} (rest : List Char) (whole : OneLine text) :
    endings position (text ++ rest) = endings (position + byteLength text) rest := by
  induction text generalizing position with
  | nil => rfl
  | cons character text ih =>
      obtain ⟨visible, others⟩ := List.forall_mem_cons.mp whole
      have plain : ¬(character = '\n' ∨ character = '\r' ∧ (text ++ rest).head? ≠ some '\n') := by
        rintro (rfl | ⟨rfl, _⟩) <;> cases visible
      rw [List.cons_append, endings, if_neg plain, ih others, byteLength, Nat.add_assoc]

/-- A line ends at an ending. -/
theorem endings_mark {mark rest : List Char} (ending : Ending mark rest) :
    endings position (mark ++ rest) =
      (position + byteLength mark) :: endings (position + byteLength mark) rest := by
  cases ending with
  | pair => simp [endings, byteLength, Nat.add_assoc]
  | feed => simp [endings, byteLength]
  | carriage alone => simp [endings, byteLength, alone]

/-- Lines end after where the text starts. -/
theorem endings_after (text : List Char) : ∀ stop ∈ endings position text, position < stop := by
  induction text generalizing position with
  | nil => simp [endings]
  | cons character text ih =>
      have positive := character.utf8Size_pos
      have later : ∀ stop ∈ endings (position + character.utf8Size) text, position < stop :=
        fun stop member => Nat.lt_trans (Nat.lt_add_of_pos_right positive) (ih stop member)
      rw [endings]
      split
      · exact List.forall_mem_cons.mpr ⟨Nat.lt_add_of_pos_right positive, later⟩
      · exact later

end Endings

/-- The first line is a text with its ending, or all of the source. -/
theorem split_ending (read source : List Char) :
    (OneLine source ∧ split read source = (read.reverse ++ source, none)) ∨
      ∃ text mark rest, OneLine text ∧ Ending mark rest ∧ source = text ++ mark ++ rest ∧
        split read source = (read.reverse ++ (text ++ mark), some rest) := by
  fun_induction split read source with
  | case1 read => exact .inl ⟨by simp [OneLine], by simp⟩
  | case2 read rest => exact .inr ⟨[], ['\n'], rest, by simp [OneLine], .feed, rfl, by simp⟩
  | case3 read rest paired _ =>
      obtain ⟨later, rfl⟩ := List.head?_eq_some_iff.mp paired
      exact .inr ⟨[], ['\r', '\n'], later, by simp [OneLine], .pair, rfl, by simp [split]⟩
  | case4 read rest alone =>
      exact .inr ⟨[], ['\r'], rest, by simp [OneLine], .carriage alone, rfl, by simp⟩
  | case5 read character rest noFeed noReturn ih =>
      have visible : isBreak character = false := by
        rw [isBreak, decide_eq_false noReturn, decide_eq_false noFeed, Bool.or_false]
      obtain ⟨whole, cut⟩ | ⟨text, mark, later, whole, ending, rfl, cut⟩ := ih
      · exact .inl ⟨List.forall_mem_cons.mpr ⟨visible, whole⟩, by simp [cut]⟩
      · exact .inr ⟨character :: text, mark, later, List.forall_mem_cons.mpr ⟨visible, whole⟩,
          ending, rfl, by rw [List.cons_append, cut]; simp⟩

/-- The lines of a text that starts at a line number and a byte position. -/
inductive Listed : (number position : Nat) → List Char → List Line → Prop
  | last {number position : Nat} {text : List Char} (whole : OneLine text) :
      Listed number position text [⟨number, ⟨position, position + byteLength text⟩, text⟩]
  | more {number position : Nat} {text mark rest : List Char} {later : List Line}
      (whole : OneLine text) (ending : Ending mark rest)
      (listed : Listed (number + 1) (position + byteLength (text ++ mark)) rest later) :
      Listed number position (text ++ mark ++ rest)
        (⟨number, ⟨position, position + byteLength (text ++ mark)⟩, text ++ mark⟩ :: later)

/-- The lines that are found are the lines of the text. -/
theorem linesFrom_listed (number position : Nat) (source : List Char) :
    Listed number position source (linesFrom number position source) := by
  fun_induction linesFrom number position source with
  | case1 number position source text equation =>
      obtain ⟨whole, cut⟩ | ⟨_, _, _, _, _, _, cut⟩ := split_ending [] source
      · obtain ⟨rfl, _⟩ := Prod.mk.inj (equation.symm.trans cut)
        exact .last whole
      · cases equation.symm.trans cut
  | case2 number position source text rest equation stop =>
      rename_i listed
      obtain ⟨_, cut⟩ | ⟨text, mark, later, whole, ending, rfl, cut⟩ := split_ending [] source
      · cases equation.symm.trans cut
      · cases equation.symm.trans cut
        exact .more whole ending listed

/-- The lines of a source are numbered from one. -/
theorem lines_listed (source : List Char) : Listed 1 0 source (lines source) :=
  linesFrom_listed 1 0 source

namespace Listed
variable {number position : Nat} {source : List Char} {list before after : List Line} {line : Line}

/-- There is at least one line. -/
theorem nonempty (listed : Listed number position source list) : list ≠ [] := by
  cases listed <;> exact List.cons_ne_nil _ _

/-- The lines make up the text. -/
theorem flatMap (listed : Listed number position source list) :
    list.flatMap characters = source := by
  induction listed with
  | last => simp
  | more _ _ _ ih => rw [List.flatMap_cons, ih]

/-- Lines are counted on from what is before them. -/
theorem drop (listed : Listed number position source (before ++ line :: after)) :
    Listed (number + before.length) (position + byteLength (before.flatMap characters))
      ((line :: after).flatMap characters) (line :: after) := by
  induction before generalizing number position source with
  | nil =>
      rw [← listed.flatMap] at listed
      exact listed
  | cons first before ih =>
      rw [List.cons_append] at listed
      generalize same : before ++ line :: after = later at listed
      cases listed with
      | last => simp at same
      | more whole ending listed =>
          subst same
          have dropped := ih listed
          rw [List.length_cons, List.flatMap_cons, byteLength_append]
          rwa [Nat.add_assoc, Nat.add_assoc, Nat.add_comm 1] at dropped

/-- A line is a text with its ending, or a text alone if it is the last one. -/
theorem parts (listed : Listed number position source (line :: after)) :
    line.number = number ∧ line.span = ⟨position, position + byteLength line.characters⟩ ∧
      ∃ text mark, line.characters = text ++ mark ∧ OneLine text ∧
        (after = [] ∧ mark = [] ∨ after ≠ [] ∧ Ending mark (after.flatMap characters)) := by
  cases listed with
  | last whole => exact ⟨rfl, rfl, _, [], (List.append_nil _).symm, whole, .inl ⟨rfl, rfl⟩⟩
  | more whole ending listed =>
      rw [← listed.flatMap] at ending
      exact ⟨rfl, rfl, _, _, rfl, whole, .inr ⟨listed.nonempty, ending⟩⟩

/-- No line starts before the text. -/
theorem start_le (listed : Listed number position source list) :
    ∀ line ∈ list, position ≤ line.span.start := by
  induction listed with
  | last => simp
  | more _ _ _ ih =>
      refine List.forall_mem_cons.mpr ⟨Nat.le_refl _, fun line member => ?_⟩
      exact Nat.le_trans (Nat.le_add_right _ _) (ih line member)

/-- Lines do not overlap and are in order. -/
theorem ordered (listed : Listed number position source list) :
    list.Pairwise fun first second => first.span.stop ≤ second.span.start := by
  induction listed with
  | last => exact List.pairwise_singleton _ _
  | more _ _ listed ih => exact .cons listed.start_le ih

/-- The range of one line at most holds a position. -/
theorem holds_iff {target : Nat} (listed : Listed number position source (before ++ line :: after))
    (holds : line.span.start ≤ target ∧ target < line.span.stop) :
    ∀ other ∈ before ++ line :: after,
      other.span.start ≤ target ∧ target < other.span.stop ↔ other = line := by
  obtain ⟨_, later, earlier⟩ := List.pairwise_append.mp listed.ordered
  intro other member
  constructor
  · intro inside
    obtain isBefore | isLater := List.mem_append.mp member
    · have := earlier other isBefore line List.mem_cons_self
      omega
    · obtain same | isAfter := List.mem_cons.mp isLater
      · exact same
      · have := List.rel_of_pairwise_cons later isAfter
        omega
  · rintro rfl
    exact holds

/-- As many endings are before a line as there are lines before it, for each of these has one. -/
theorem endings_before (listed : Listed number position source (before ++ line :: after)) :
    (endings position source).countP (· ≤ line.span.start) = before.length := by
  induction before generalizing number position source with
  | nil =>
      obtain ⟨_, place, _⟩ := listed.parts
      rw [place, List.length_nil, List.countP_eq_zero]
      intro stop member
      simpa using endings_after source stop member
  | cons first before ih =>
      rw [List.cons_append] at listed
      generalize same : before ++ line :: after = later at listed
      cases listed with
      | last => simp at same
      | more whole ending listed =>
          subst same
          have passed := listed.start_le line (by simp)
          rw [List.append_assoc, endings_text _ whole, endings_mark ending, Nat.add_assoc,
            ← byteLength_append, List.countP_cons_of_pos (by simpa using passed), ih listed,
            List.length_cons]

end Listed

/-- What the lines of a source are like: together they are the source, each but the last one has
one ending, and no pair is split. -/
structure Tiling (list : List Line) (source : List Char) : Prop where
  nonempty : list ≠ []
  flatMap : list.flatMap characters = source
  ended : ∀ before line after, list = before ++ line :: after → after ≠ [] →
    ∃ text mark, line.characters = text ++ mark ∧ OneLine text ∧
      Ending mark (after.flatMap characters)
  last : ∀ line ∈ list.getLast?, OneLine line.characters
  unsplit : ∀ before after, list = before ++ after →
    (before.flatMap characters).getLast? = some '\r' →
    (after.flatMap characters).head? ≠ some '\n'

/-- The lines of a text tile it. -/
theorem Listed.tiling {number position : Nat} {source : List Char} {list : List Line}
    (listed : Listed number position source list) : Tiling list source := by
  have ended (before : List Line) (line : Line) (after : List Line)
      (same : list = before ++ line :: after) (followed : after ≠ []) :
      ∃ text mark, line.characters = text ++ mark ∧ OneLine text ∧
        Ending mark (after.flatMap characters) := by
    subst same
    obtain ⟨_, _, text, mark, parts, whole, ⟨none, _⟩ | ⟨_, ending⟩⟩ := listed.drop.parts
    · exact absurd none followed
    · exact ⟨text, mark, parts, whole, ending⟩
  refine ⟨listed.nonempty, listed.flatMap, ended, ?_, ?_⟩
  · intro line isLast
    obtain ⟨before, rfl⟩ := List.getLast?_eq_some_iff.mp isLast
    obtain ⟨_, _, text, mark, parts, whole, ⟨_, rfl⟩ | ⟨followed, _⟩⟩ := listed.drop.parts
    · rwa [parts, List.append_nil]
    · exact absurd rfl followed
  · intro before after same returned
    obtain rfl | ⟨before, line, rfl⟩ := List.eq_nil_or_concat before
    · simp at returned
    · by_cases followed : after = []
      · simp [followed]
      · rw [List.concat_eq_append] at same returned
        rw [List.append_assoc, List.singleton_append] at same
        obtain ⟨text, mark, parts, _, ending⟩ := ended before line after same followed
        rw [List.flatMap_append, List.flatMap_singleton, parts, ← List.append_assoc] at returned
        exact ending.unsplit returned

/-- The search for the line of a position, from a line number and a byte position on: the first text
that starts before or at the position and stops after it, or is the last one. There may be none. -/
def search? (target : Nat) : (number position : Nat) → List (List Char) → Option Line
  | _, _, [] => none
  | number, position, text :: later =>
      let stop := position + byteLength text
      if position ≤ target ∧ (target < stop ∨ later = []) then some ⟨number, ⟨position, stop⟩, text⟩
      else search? target (number + 1) stop later

section Search
variable {number position target : Nat} {source : List Char} {first : Line} {later : List Line}

/-- No position from the start of the lines on is missed. -/
theorem Listed.search? (listed : Listed number position source (first :: later))
    (reached : position ≤ target) :
    Line.search? target number position ((first :: later).map characters) =
      some (findIn target first later) := by
  generalize same : first :: later = list at listed
  induction listed generalizing first later with
  | last =>
      cases same
      simp [Line.search?, findIn, reached]
  | @more number position text mark _ _ _ _ listed ih =>
      cases same
      obtain ⟨next, others, rfl⟩ := List.exists_cons_of_ne_nil listed.nonempty
      rw [List.map_cons, Line.search?, findIn]
      by_cases inside : target < position + byteLength (text ++ mark)
      · rw [if_pos ⟨reached, .inl inside⟩, if_pos inside]
      · rw [if_neg (by simp [inside]), if_neg inside]
        exact ih (Nat.le_of_not_lt inside) rfl

/-- The line that is found is one of the lines, and holds the position unless it is the last one. -/
theorem Listed.findIn (listed : Listed number position source (first :: later))
    (reached : position ≤ target) :
    ∃ before after, first :: later = before ++ Line.findIn target first later :: after ∧
      (Line.findIn target first later).span.start ≤ target ∧
      (target < (Line.findIn target first later).span.stop ∨ after = []) := by
  generalize same : first :: later = list at listed
  induction listed generalizing first later with
  | last =>
      cases same
      exact ⟨[], [], rfl, reached, .inr rfl⟩
  | @more number position text mark _ _ _ _ listed ih =>
      cases same
      obtain ⟨next, others, rfl⟩ := List.exists_cons_of_ne_nil listed.nonempty
      rw [Line.findIn]
      split
      next inside => exact ⟨[], next :: others, rfl, reached, .inl inside⟩
      next outside =>
        obtain ⟨before, after, cut, holds⟩ := ih (Nat.le_of_not_lt outside) rfl
        exact ⟨_ :: before, after, congrArg (_ :: ·) cut, holds⟩

end Search

/-- What is shown of a line is the text before its ending. -/
theorem display_text {line : Line} {text mark : List Char} (parts : line.characters = text ++ mark)
    (whole : OneLine text) (breaks : ∀ character ∈ mark, isBreak character = true) :
    line.display = text := by
  have shown (character : Char) : (character ≠ '\r' && character ≠ '\n') = !isBreak character := by
    simp [isBreak]
  simp only [display, shown, parts, List.filter_append]
  rw [List.filter_eq_self.mpr, List.filter_eq_nil_iff.mpr, List.append_nil]
  · intro character member
    simp [breaks character member]
  · intro character member
    simp [whole character member]

/-- A line is shown without its ending. -/
theorem Listed.shown {number position : Nat} {source : List Char} {line : Line} {after : List Line}
    (listed : Listed number position source (line :: after)) :
    OneLine line.display ∧ (after = [] ∧ line.characters = line.display ∨
      ∃ mark, line.characters = line.display ++ mark ∧ Ending mark (after.flatMap characters)) := by
  obtain ⟨_, _, text, mark, parts, whole, ⟨none, rfl⟩ | ⟨_, ending⟩⟩ := listed.parts
  · rw [display_text parts whole (by simp)]
    exact ⟨whole, .inl ⟨none, parts.trans (List.append_nil text)⟩⟩
  · rw [display_text parts whole ending.breaks]
    exact ⟨whole, .inr ⟨mark, parts, ending⟩⟩

/-- The line of a position, between what comes before and after it: the only one whose range holds
the position, or the last one. Its number counts the endings before it. It is shown without its
own ending. -/
structure At (line : Line) (source : List Char) (position : Nat) (front back : List Char) :
    Prop where
  searched : search? position 1 0 ((lines source).map characters) = some line
  inside : position < byteLength source → ∀ other ∈ lines source,
    other.span.start ≤ position ∧ position < other.span.stop ↔ other = line
  outside : byteLength source ≤ position → (lines source).getLast? = some line
  whole : source = front ++ (line.characters ++ back)
  span : line.span = ⟨byteLength front, byteLength front + byteLength line.characters⟩
  number : line.number = 1 + (endings 0 source).countP (· ≤ line.span.start)
  display : OneLine line.display ∧
    ((lines source).getLast? = some line ∧ line.characters = line.display ∨
      ∃ mark, line.characters = line.display ++ mark ∧ Ending mark back)

/-- The search succeeds, and finds one of the lines. -/
theorem find_searched (source : List Char) (position : Nat) :
    search? position 1 0 ((lines source).map characters) = some (find source position) ∧
      ∃ before after, lines source = before ++ find source position :: after ∧
        (find source position).span.start ≤ position ∧
        (position < (find source position).span.stop ∨ after = []) := by
  have listed := lines_listed source
  rw [find]
  split
  next none => exact absurd none listed.nonempty
  next first later cut =>
    rw [cut] at listed ⊢
    exact ⟨listed.search? (Nat.zero_le position), listed.findIn (Nat.zero_le position)⟩

/-- The line that is found for a position is the one it is on. -/
theorem find_at (source : List Char) (position : Nat) :
    ∃ front back, (find source position).At source position front back := by
  obtain ⟨searched, before, after, cut, started, ends⟩ := find_searched source position
  generalize find source position = line at searched cut started ends ⊢
  have listed := lines_listed source
  rw [cut] at listed
  obtain ⟨number, place, _⟩ := listed.drop.parts
  rw [Nat.zero_add] at place
  have joined : source =
      before.flatMap characters ++ (line.characters ++ after.flatMap characters) := by
    rw [← listed.flatMap, List.flatMap_append, List.flatMap_cons]
  have stops : line.span.stop + byteLength (after.flatMap characters) = byteLength source := by
    rw [place, joined, byteLength_append, byteLength_append, Nat.add_assoc]
  have isLast (none : after = []) : (lines source).getLast? = some line := by
    rw [cut, none, List.getLast?_concat]
  refine ⟨before.flatMap characters, after.flatMap characters, searched, ?_, ?_, joined, place, ?_,
    ?_⟩
  · intro within
    rw [cut]
    refine listed.holds_iff ⟨started, ends.elim id fun none => ?_⟩
    rw [none, List.flatMap_nil, byteLength, Nat.add_zero] at stops
    rwa [stops]
  · intro past
    exact isLast (ends.resolve_left (by omega))
  · rw [number, listed.endings_before]
  · obtain ⟨whole, ⟨none, same⟩ | ending⟩ := listed.drop.shown
    · exact ⟨whole, .inl ⟨isLast none, same⟩⟩
    · exact ⟨whole, .inr ending⟩

/-- The lines of a source are cut out of it at its endings, and each position is looked up in the
line that it belongs to. -/
theorem lines_lookup (source : List Char) :
    Tiling (lines source) source ∧
      ∀ position, ∃ front back, (find source position).At source position front back :=
  ⟨(lines_listed source).tiling, find_at source⟩

example : (lines "abc\r\nd\r\n\ne\rf".toList).map characters =
    ["abc\r\n".toList, "d\r\n".toList, ['\n'], ['e', '\r'], ['f']] := by decide +kernel

end Line

end Cpl
