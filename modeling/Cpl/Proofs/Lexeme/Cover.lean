import Cpl.Proofs.Lexeme.Layout

namespace Cpl

/-- The ranges before, between and after other ranges. -/
def gaps (start : Nat) (spans : List Span) (stop : Nat) : List Span :=
  match spans with
  | [] => [⟨start, stop⟩]
  | span :: later => ⟨start, span.start⟩ :: gaps span.stop later stop

/-- Ranges of a source, one after the other. Each has a text of the source in it, cut off between
characters. -/
structure Ranges (source : List Char) (spans : List Span) : Prop where
  nonempty : ∀ span ∈ spans, span.start < span.stop
  sliced : ∀ span ∈ spans, ∃ text, span.slice? source = some text
  apart : spans.Pairwise fun first second => first.stop ≤ second.start

/-- Fewer ranges of a source are ranges of it as well. -/
theorem Ranges.sublist {source : List Char} {spans fewer : List Span} (ranges : Ranges source spans)
    (included : fewer.Sublist spans) : Ranges source fewer where
  nonempty span member := ranges.nonempty span (included.subset member)
  sliced span member := ranges.sliced span (included.subset member)
  apart := ranges.apart.sublist included

/-- The places of the faults are among those of the lexemes, in the same order. -/
theorem faults_sublist (found : List Lexeme) :
    ((found.filterMap Lexeme.error?).map LexicalError.span).Sublist (found.map Lexeme.span) := by
  induction found with
  | nil => exact .slnil
  | cons lexeme found ih =>
      cases lexeme with
      | token token => exact ih.cons token.span
      | fault error => exact ih.cons_cons error.span

section Layouts
variable {position : Nat} {source gap : List Char} {found : List Lexeme}

/-- Without faults, only filler is left around the lexemes. -/
theorem Layout.gaps_filler {start : Nat} (layout : Layout start source found)
    (filler : Filler gap) (place : start = position + byteLength gap)
    (clean : ∀ lexeme ∈ found, lexeme.error? = none) :
    ∀ span ∈ gaps position (found.map Lexeme.span) (position + byteLength (gap ++ source)),
      ∃ text back, Occurs position (gap ++ source) span text back ∧ Filler text := by
  induction layout generalizing position gap with
  | nil =>
      rw [List.append_nil]
      intro span member
      cases List.mem_singleton.mp member
      exact ⟨gap, [], ⟨[], by simp, rfl⟩, filler⟩
  | @filler start more rest found other later ih =>
      rw [← List.append_assoc]
      exact ih (filler.append other) (by rw [place, byteLength_append, Nat.add_assoc]) clean
  | @piece start character source found visible later ih =>
      have others := ih .nil rfl (List.forall_mem_cons.mp clean).2
      rw [← Piece.first_split character source]
      intro span member
      rw [List.map_cons, gaps, Lexeme.ofPiece_span] at member
      obtain rfl | member := List.mem_cons.mp member
      · rw [place]
        exact ⟨gap, _, occurs_start _ _ _, filler⟩
      · rw [byteLength_append, byteLength_append, ← Nat.add_assoc, ← Nat.add_assoc, ← place] at member
        obtain ⟨text, back, occurs, isFiller⟩ := others span member
        refine ⟨text, back, ?_, isFiller⟩
        subst place
        exact occurs.after.after
  | comment => cases clean _ (List.mem_singleton_self _)

/-- Only the last lexeme may be a comment that is not closed. -/
theorem Layout.unterminated_last (layout : Layout position source found) :
    found.Pairwise fun earlier _ => earlier.reading ≠ .error .unterminatedComment := by
  induction layout with
  | nil => exact .nil
  | filler _ _ ih => exact ih
  | piece _ _ ih =>
      refine .cons ?_ ih
      intro _ _ unterminated
      rw [Lexeme.ofPiece_reading] at unterminated
      simpa using Piece.first_fault unterminated
  | comment => exact List.pairwise_singleton _ _

end Layouts

section Lexemes
variable (source : String)

/-- Each lexeme is cut from the source at its place. -/
theorem lexemes_occurs : ∀ lexeme ∈ lexemes source, ∃ text back,
    Occurs 0 source.toList lexeme.span text back ∧ Cut text back lexeme.reading :=
  (scan_layout 0 source.toList).occurs

/-- The places of the lexemes are ranges of the source. -/
theorem lexemes_ranges : Ranges source.toList ((lexemes source).map Lexeme.span) where
  nonempty := List.forall_mem_map.mpr (scan_ordered 0 source.toList).nonempty
  sliced := by
    rw [List.forall_mem_map]
    intro lexeme member
    obtain ⟨text, back, occurs, _⟩ := lexemes_occurs source lexeme member
    exact ⟨text, occurs.slice?⟩
  apart := List.pairwise_map.mpr (scan_ordered 0 source.toList).apart

/-- Without faults, all lexemes are tokens. -/
theorem tokens_spans (found : List Lexeme) (clean : ∀ lexeme ∈ found, lexeme.error? = none) :
    (found.filterMap Lexeme.token?).map Token.span = found.map Lexeme.span := by
  induction found with
  | nil => rfl
  | cons lexeme found ih =>
      obtain ⟨first, others⟩ := List.forall_mem_cons.mp clean
      cases lexeme with
      | token token => exact congrArg (token.span :: ·) (ih others)
      | fault error => cases first

end Lexemes

/-- Each token stands where its text was cut off. -/
theorem tokens_occurs {source : String} {found : List Token} (cut : tokens source = .ok found) :
    ∀ token ∈ found, ∃ text back, Occurs 0 source.toList token.span text back ∧
      Cut text back (.ok token.kind) := by
  obtain ⟨_, rfl⟩ := tokens_ok.mp cut
  intro token member
  obtain ⟨lexeme, isFound, isToken⟩ := List.mem_filterMap.mp member
  rw [Lexeme.token?_some] at isToken
  subst isToken
  exact lexemes_occurs source _ isFound

section Faults
variable {source : String} {errors : List LexicalError}

/-- Only faults are errors. -/
theorem Lexeme.error?_some {lexeme : Lexeme} {error : LexicalError} :
    lexeme.error? = some error ↔ lexeme = .fault error := by
  cases lexeme <;> simp [error?]

/-- A source fails with all faults that are found, if there are any. -/
theorem tokens_error :
    tokens source = .error errors ↔ (lexemes source).filterMap Lexeme.error? = errors ∧ errors ≠ [] := by
  rw [tokens]
  cases (lexemes source).filterMap Lexeme.error? with
  | nil => simp +contextual [eq_comm]
  | cons error later => simp +contextual [eq_comm]

variable (cut : tokens source = .error errors)
include cut

/-- Each error is cut from the source at its place. -/
theorem errors_occurs : ∀ error ∈ errors, ∃ text back,
    Occurs 0 source.toList error.span text back ∧ Cut text back (.error error.cause) := by
  obtain ⟨rfl, _⟩ := tokens_error.mp cut
  intro error member
  obtain ⟨lexeme, found, isFault⟩ := List.mem_filterMap.mp member
  rw [Lexeme.error?_some] at isFault
  subst isFault
  exact lexemes_occurs source _ found

/-- The places of the errors are ranges of the source. -/
theorem errors_ranges : Ranges source.toList (errors.map LexicalError.span) := by
  obtain ⟨rfl, _⟩ := tokens_error.mp cut
  exact (lexemes_ranges source).sublist (faults_sublist _)

/-- A comment that is not closed is the last fault. -/
theorem errors_unterminated : ∀ error ∈ errors.dropLast, error.cause ≠ .unterminatedComment := by
  obtain ⟨rfl, some⟩ := tokens_error.mp cut
  have apart : ((lexemes source).filterMap Lexeme.error?).Pairwise
      fun earlier _ => earlier.cause ≠ .unterminatedComment := by
    rw [List.pairwise_filterMap]
    apply (scan_layout 0 source.toList).unterminated_last.imp
    intro first second closed error isFault _ _ unterminated
    rw [Lexeme.error?_some.mp isFault] at closed
    exact closed (congrArg Except.error unterminated)
  rw [← List.dropLast_concat_getLast some, List.pairwise_append] at apart
  exact fun error member => apart.2.2 error member _ (List.mem_singleton_self _)

end Faults

/-- A source is cut into tokens with nothing but filler around them, or has faults. Then each unknown
character is a fault of its own, and only the last fault may be a comment that is not closed. -/
theorem tokens_cover (source : String) :
    match tokens source with
    | .ok found => Ranges source.toList (found.map Token.span) ∧
        ∀ gap ∈ gaps 0 (found.map Token.span) (byteLength source.toList),
          ∃ text, gap.slice? source.toList = some text ∧ Filler text
    | .error errors => errors ≠ [] ∧ Ranges source.toList (errors.map LexicalError.span) ∧
        (∀ error ∈ errors, error.cause = .unknownCharacter →
          ∃ character, error.span.slice? source.toList = some [character]) ∧
        (∀ error ∈ errors.dropLast, error.cause ≠ .unterminatedComment) ∧
        ∀ error ∈ errors, error.cause = .unterminatedComment → ∃ before after,
          source.toList = before ++ '/' :: '*' :: after ∧
            error.span = ⟨byteLength before, byteLength before + 2⟩ ∧ ¬['*', '/'] <:+: after := by
  cases cut : tokens source with
  | ok found =>
      obtain ⟨noFaults, rfl⟩ := tokens_ok.mp cut
      have clean : ∀ lexeme ∈ lexemes source, lexeme.error? = none :=
        List.filterMap_eq_nil_iff.mp noFaults
      dsimp only
      rw [tokens_spans _ clean]
      refine ⟨lexemes_ranges source, ?_⟩
      intro gap member
      have layout := scan_layout 0 source.toList
      rw [← Nat.zero_add (byteLength _)] at member
      obtain ⟨text, back, occurs, filler⟩ := layout.gaps_filler .nil rfl clean gap member
      exact ⟨text, occurs.slice?, filler⟩
  | error errors =>
      refine ⟨(tokens_error.mp cut).2, errors_ranges cut, ?_, errors_unterminated cut, ?_⟩
      · intro error member unknown
        obtain ⟨text, back, occurs, single⟩ := errors_occurs cut error member
        rw [unknown] at single
        obtain ⟨character, rfl⟩ := single.unknown
        exact ⟨character, occurs.slice?⟩
      · intro error member unterminated
        obtain ⟨text, after, ⟨before, whole, place⟩, opened⟩ := errors_occurs cut error member
        rw [unterminated] at opened
        obtain ⟨rfl, unclosed⟩ := opened.unterminated
        rw [Nat.zero_add] at place
        exact ⟨before, after, whole, place, unclosed⟩

end Cpl
