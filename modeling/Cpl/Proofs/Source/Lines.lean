import Cpl.Proofs.Source.Slices
import Cpl.Source.Line

namespace Cpl

/-- The characters that end lines. -/
def isBreak (character : Char) : Bool := character = '\r' || character = '\n'

/-- Only line breaks follow a line break. -/
def BreaksLast (text : List Char) : Prop :=
  text.Pairwise fun first second => isBreak first = true → isBreak second = true

/-- Nothing before a visible character breaks the line. -/
theorem BreaksLast.before {first second : List Char} (breaks : BreaksLast (first ++ second))
    {character : Char} (member : character ∈ second) (visible : isBreak character = false) :
    ∀ earlier ∈ first, isBreak earlier = false := by
  intro earlier isEarlier
  rw [BreaksLast, List.pairwise_append] at breaks
  rw [← Bool.not_eq_true]
  intro breaking
  rw [breaks.2.2 earlier isEarlier character member breaking] at visible
  cases visible

/-- A text has a last character, which is a line break. -/
def Broken (text : List Char) : Prop := ∃ last ∈ text.getLast?, isBreak last = true

/-- A text in front does not change the last character. -/
theorem Broken.prepend {text : List Char} (broken : Broken text) (before : List Char) :
    Broken (before ++ text) := by
  obtain ⟨last, isLast, breaks⟩ := broken
  exact ⟨last, by rw [List.getLast?_append, isLast]; rfl, breaks⟩

/-- What ends in a line break has one in it. -/
theorem Broken.mem {before text : List Char} (broken : Broken (before ++ text)) (some : text ≠ []) :
    ∃ character ∈ text, isBreak character = true := by
  obtain ⟨last, isLast, breaks⟩ := broken
  rw [List.getLast?_append, List.getLast?_eq_some_getLast some] at isLast
  cases isLast
  exact ⟨_, List.getLast_mem some, breaks⟩

/-- Of two starts of a text, the one with fewer bytes is the start of the other. -/
theorem append_split {first rest other back : List Char} (same : first ++ rest = other ++ back)
    (shorter : byteLength first ≤ byteLength other) :
    ∃ middle, other = first ++ middle ∧ rest = middle ++ back := by
  obtain ⟨middle, longer, split⟩ | ⟨middle, longer, split⟩ := List.append_eq_append_iff.mp same
  · exact ⟨middle, longer, split⟩
  · rw [longer, byteLength_append] at shorter
    cases middle with
    | nil => exact ⟨[], by simpa using longer.symm, by simpa using split.symm⟩
    | cons character middle =>
        have positive := character.utf8Size_pos
        rw [byteLength] at shorter
        omega

namespace Line

/-- The first line is broken at its end only, and is all of the source if it is not broken. -/
theorem split_parts (read source : List Char) :
    ∃ text rest, split read source = (read.reverse ++ text, rest) ∧ source = text ++ rest.getD [] ∧
      BreaksLast text ∧ (rest ≠ none → Broken text) := by
  fun_induction split read source with
  | case1 read => exact ⟨[], none, by simp, rfl, .nil, by simp⟩
  | case2 read rest =>
      exact ⟨['\n'], some rest, by simp, rfl, List.pairwise_singleton _ _, fun _ => ⟨'\n', rfl, rfl⟩⟩
  | case3 read rest paired _ =>
      obtain ⟨later, rfl⟩ := List.head?_eq_some_iff.mp paired
      exact ⟨['\r', '\n'], some later, by simp [split], rfl, by simp [BreaksLast, isBreak],
        fun _ => ⟨'\n', rfl, rfl⟩⟩
  | case4 read rest alone =>
      exact ⟨['\r'], some rest, by simp, rfl, List.pairwise_singleton _ _, fun _ => ⟨'\r', rfl, rfl⟩⟩
  | case5 read character rest noFeed noReturn ih =>
      obtain ⟨text, later, cut, rfl, breaks, broken⟩ := ih
      have visible : ¬isBreak character = true := by
        rw [isBreak, Bool.or_eq_true, decide_eq_true_eq, decide_eq_true_eq, not_or]
        exact ⟨noReturn, noFeed⟩
      refine ⟨character :: text, later, by simp [cut], rfl, ?_, fun some => ?_⟩
      · exact .cons (fun _ _ breaking => absurd breaking visible) breaks
      · exact (broken some).prepend [character]

/-- A line between what comes before and after it in a source. -/
structure Within (line : Line) (earlier after : List Char) : Prop where
  start : line.span.start = byteLength earlier
  stop : line.span.stop = byteLength earlier + byteLength line.characters
  begins : earlier ≠ [] → Broken earlier
  ends : after ≠ [] → Broken line.characters
  breaks : BreaksLast line.characters

/-- The line that is found is the one that a position comes before the end of, or the last one. -/
theorem findIn_within {number place position : Nat} {source earlier : List Char} {first : Line}
    {later : List Line} (cut : linesFrom number place source = first :: later)
    (start : place = byteLength earlier) (begins : earlier ≠ [] → Broken earlier)
    (reached : place ≤ position) :
    ∃ before after, source = before ++ ((findIn position first later).characters ++ after) ∧
      (findIn position first later).Within (earlier ++ before) after ∧
      (findIn position first later).span.start ≤ position ∧
      (position < (findIn position first later).span.stop ∨ after = []) := by
  fun_induction linesFrom number place source generalizing earlier first later with
  | case1 number place source text equation =>
      obtain ⟨rfl, rfl⟩ := List.cons.inj cut
      obtain ⟨_, _, same, whole, breaks, _⟩ := split_parts [] source
      obtain ⟨rfl, rfl⟩ := Prod.mk.inj (equation.symm.trans same)
      refine ⟨[], [], whole, ?_, reached, .inr rfl⟩
      rw [List.append_nil]
      exact ⟨start, by rw [findIn, start], begins, by simp, breaks⟩
  | case2 number place source text rest equation stop =>
      rename_i ih
      obtain ⟨rfl, rfl⟩ := List.cons.inj cut
      obtain ⟨_, _, same, whole, breaks, broken⟩ := split_parts [] source
      obtain ⟨rfl, rfl⟩ := Prod.mk.inj (equation.symm.trans same)
      obtain ⟨next, others, more⟩ := List.exists_cons_of_ne_nil (linesFromNonempty (number + 1) _ rest)
      rw [more, findIn]
      split
      next inside =>
        refine ⟨[], rest, whole, ?_, reached, .inl inside⟩
        rw [List.append_nil]
        exact ⟨start, by simp [stop, start], begins, fun _ => broken (by simp), breaks⟩
      next outside =>
        have passed : stop = byteLength (earlier ++ text) := by
          rw [byteLength_append, ← start]
        have broke : Broken (earlier ++ text) := (broken (by simp)).prepend earlier
        obtain ⟨before, after, split, within, found⟩ :=
          ih more passed (fun _ => broke) (Nat.le_of_not_lt outside)
        refine ⟨text ++ before, after, ?_, ?_, found⟩
        · rw [List.append_assoc, ← split]
          exact whole
        · rwa [← List.append_assoc]

/-- A position divides its line into what is before it and what is left. -/
structure Divided (line : Line) (front back earlier indent remaining after : List Char) : Prop where
  before : front = earlier ++ indent
  behind : back = remaining ++ after
  characters : line.characters = indent ++ remaining
  within : line.Within earlier after
  reached : remaining ≠ [] ∨ after = []

/-- A position divides the line that is found for it. -/
theorem find_divided (front back : List Char) :
    ∃ earlier indent remaining after, (find (front ++ back) (byteLength front)).Divided front back
      earlier indent remaining after := by
  rw [find]
  split
  next none => exact absurd none (linesFromNonempty 1 0 _)
  next first later cut =>
    obtain ⟨earlier, after, whole, within, started, inside⟩ :=
      findIn_within cut (show 0 = byteLength [] from rfl) (by simp) (Nat.zero_le (byteLength front))
    generalize findIn (byteLength front) first later = line at whole within started inside ⊢
    rw [List.nil_append] at within
    rw [within.start] at started
    obtain ⟨indent, rfl, split⟩ := append_split whole.symm started
    obtain inside | rfl := inside
    · rw [within.stop, byteLength_append] at inside
      obtain ⟨remaining, same, rest⟩ := append_split split.symm (by omega)
      refine ⟨earlier, indent, remaining, after, rfl, rest, same, within, .inl ?_⟩
      rintro rfl
      rw [same, List.append_nil] at inside
      omega
    · rw [List.append_nil] at split
      exact ⟨earlier, indent, back, [], rfl, (List.append_nil back).symm, split, within, .inr rfl⟩

namespace Divided
variable {line : Line} {front back earlier indent remaining after : List Char}
  (divided : line.Divided front back earlier indent remaining after)
include divided

/-- What is before the position in its line. -/
theorem slice? : Span.slice? ⟨line.span.start, byteLength front⟩ (front ++ back) = some indent := by
  rw [Span.slice?_some]
  refine ⟨earlier, back, ?_, ?_⟩
  · rw [divided.before, List.append_assoc]
  · rw [divided.within.start, divided.before, byteLength_append]

/-- A line is displayed without its line breaks. -/
theorem display (visible : ∀ character ∈ indent, isBreak character = false) :
    line.display = indent ++ remaining.filter fun character => !isBreak character := by
  have shown : line.display = line.characters.filter fun character => !isBreak character := by
    rw [Line.display]
    congr
    funext character
    simp [isBreak]
  rw [shown, divided.characters, List.filter_append, List.filter_eq_self.mpr]
  intro character member
  rw [visible character member]
  rfl

/-- A text without line breaks that starts at the position is shown after the indent. -/
theorem marks {text rest : List Char} (starts : back = text ++ rest) (some : text ≠ [])
    (visible : ∀ character ∈ text, isBreak character = false) :
    (line.display.drop indent.length).take text.length = text := by
  have left : text <+: remaining := by
    obtain ⟨more, same, _⟩ | ⟨more, same, next⟩ :=
      List.append_eq_append_iff.mp (starts.symm.trans divided.behind)
    · exact ⟨more, same.symm⟩
    · cases more with
      | nil => exact ⟨[], by rw [same, List.append_nil, List.append_nil]⟩
      | cons character more =>
          have followed : after ≠ [] := by rw [next]; exact List.cons_ne_nil _ _
          have broken := divided.within.ends followed
          rw [divided.characters] at broken
          obtain ⟨last, member, breaks⟩ := broken.mem (divided.reached.resolve_right followed)
          rw [visible last (by rw [same]; exact List.mem_append_left _ member)] at breaks
          cases breaks
  obtain ⟨more, rfl⟩ := left
  have clean : ∀ character ∈ indent, isBreak character = false := by
    obtain ⟨character, others, rfl⟩ := List.exists_cons_of_ne_nil some
    have breaks := divided.within.breaks
    rw [divided.characters] at breaks
    exact breaks.before List.mem_cons_self (visible character List.mem_cons_self)
  have shown : text.filter (fun character => !isBreak character) = text := by
    rw [List.filter_eq_self]
    exact fun character member => by rw [visible character member]; rfl
  rw [divided.display clean, List.drop_left, List.filter_append, shown, List.take_left]

/-- A text without line breaks that stops at the position is shown at the end of the indent. -/
theorem follows {start text : List Char} (stops : front = start ++ text)
    (begins : text = [] → start = []) (visible : ∀ character ∈ text, isBreak character = false) :
    indent.length ≤ line.display.length ∧ text <:+ line.display.take indent.length := by
  have before := divided.before.symm.trans stops
  have ends : text <:+ indent := by
    obtain ⟨more, _, same⟩ | ⟨more, same, split⟩ := List.append_eq_append_iff.mp before
    · exact ⟨more, same.symm⟩
    · cases more with
      | nil => exact ⟨[], by rw [split]; rfl⟩
      | cons character more =>
          have broken := divided.within.begins (by simp [same])
          rw [same] at broken
          obtain ⟨last, member, breaks⟩ := broken.mem (List.cons_ne_nil _ _)
          rw [visible last (by rw [split]; exact List.mem_append_left _ member)] at breaks
          cases breaks
  have clean : ∀ character ∈ indent, isBreak character = false := by
    cases text with
    | nil =>
        rw [begins rfl] at before
        rw [(List.append_eq_nil_iff.mp before).2]
        simp
    | cons character others =>
        obtain ⟨more, rfl⟩ := ends
        have breaks := divided.within.breaks
        rw [divided.characters, List.append_assoc] at breaks
        rw [List.forall_mem_append]
        exact ⟨breaks.before List.mem_cons_self (visible character List.mem_cons_self), visible⟩
  rw [divided.display clean, List.take_left]
  exact ⟨by simp, ends⟩

end Divided

end Line

end Cpl
