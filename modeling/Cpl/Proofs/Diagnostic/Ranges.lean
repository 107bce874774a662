import Cpl.Proofs.Diagnostic.Rendering

namespace Cpl

/-- The characters of a string have as many bytes as the string. -/
theorem byteLength_toList (text : String) : byteLength text.toList = text.utf8ByteSize := by
  rw [← String.ofList_toList (s := text), String.toList_ofList]
  induction text.toList with
  | nil => rfl
  | cons character rest ih =>
      rw [byteLength, ih, ← List.singleton_append, String.ofList_append, String.utf8ByteSize_append,
        ← String.singleton_eq_ofList, String.utf8ByteSize_singleton]

/-- A position is at the end of a character if the source can be divided there. -/
theorem isValid_divides {source : String} {position : Nat} :
    String.Pos.Raw.IsValid source ⟨position⟩ ↔
      ∃ front back, source.toList = front ++ back ∧ byteLength front = position := by
  rw [String.Pos.Raw.isValid_iff_exists_append]
  constructor
  · rintro ⟨first, second, rfl, place⟩
    refine ⟨first.toList, second.toList, String.toList_append, ?_⟩
    rw [byteLength_toList]
    exact (congrArg String.Pos.Raw.byteIdx place).symm
  · rintro ⟨front, back, whole, rfl⟩
    refine ⟨String.ofList front, String.ofList back, ?_, ?_⟩
    · rw [← String.ofList_append, ← whole, String.ofList_toList]
    · rw [← String.toList_ofList (l := front), byteLength_toList, String.toList_ofList]
      rfl

/-- A range of a text: in order, within the text, and at the ends of characters. -/
structure Span.Valid (span : Span) (source : String) : Prop where
  ordered : span.start ≤ span.stop
  within : span.stop ≤ source.utf8ByteSize
  start : String.Pos.Raw.IsValid source ⟨span.start⟩
  stop : String.Pos.Raw.IsValid source ⟨span.stop⟩

/-- The ranges that have slices are those of the text. -/
theorem Span.slice?_valid {span : Span} {source : String} :
    (∃ text, span.slice? source.toList = some text) ↔ span.Valid source := by
  constructor
  · rintro ⟨text, sliced⟩
    obtain ⟨before, after, whole, rfl⟩ := Span.slice?_some.mp sliced
    have start := isValid_divides.mpr ⟨before, text ++ after, whole, rfl⟩
    have stop := isValid_divides.mpr ⟨before ++ text, after, by rw [whole, List.append_assoc],
      byteLength_append before text⟩
    exact ⟨Nat.le_add_right _ _, stop.le_utf8ByteSize, start, stop⟩
  · intro valid
    obtain ⟨start, stop⟩ := span
    obtain ⟨front, rest, whole, rfl⟩ := isValid_divides.mp valid.start
    obtain ⟨longer, back, again, rfl⟩ := isValid_divides.mp valid.stop
    obtain ⟨text, rfl, rfl⟩ := append_split (whole.symm.trans again) valid.ordered
    refine ⟨text, Span.slice?_some.mpr ⟨front, back, whole, ?_⟩⟩
    rw [byteLength_append]

namespace Diagnostic

/-- What is before the range in its line has a slice if the range starts at the end of a
character. -/
theorem indent_slice? {source : String} {position : Nat}
    (valid : String.Pos.Raw.IsValid source ⟨position⟩) :
    ∃ indent, Span.slice? ⟨(Line.find source.toList position).span.start, position⟩ source.toList =
      some indent := by
  obtain ⟨front, back, whole, rfl⟩ := isValid_divides.mp valid
  obtain ⟨_, indent, _, _, divided⟩ := Line.find_divided front back
  rw [whole]
  exact ⟨indent, divided.slice?⟩

/-- A diagnostic cannot be shown exactly if its range is none of the source. For a range of the
source, both slices that are taken exist. -/
theorem describe_valid (diagnostic : Diagnostic) (source : String) :
    (diagnostic.describe? source.toList = none ↔ ¬diagnostic.span.Valid source) ∧
      (diagnostic.span.Valid source →
        (∃ indent, Span.slice? ⟨(Line.find source.toList diagnostic.span.start).span.start,
          diagnostic.span.start⟩ source.toList = some indent) ∧
        ∃ text, diagnostic.span.slice? source.toList = some text) := by
  have slices (valid : diagnostic.span.Valid source) :=
    And.intro (indent_slice? valid.start) (Span.slice?_valid.mpr valid)
  refine ⟨⟨?_, ?_⟩, slices⟩
  · intro missing valid
    obtain ⟨⟨indent, indented⟩, text, sliced⟩ := slices valid
    rw [describe?_some indented sliced] at missing
    cases missing
  · intro invalid
    have unsliced : diagnostic.span.slice? source.toList = none := by
      rw [Option.eq_none_iff_forall_ne_some]
      exact fun text sliced => invalid (Span.slice?_valid.mp ⟨text, sliced⟩)
    rw [describe?, unsliced]
    cases Span.slice? _ source.toList <;> rfl

end Diagnostic

end Cpl
