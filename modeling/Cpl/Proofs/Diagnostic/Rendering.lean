import Cpl.Proofs.Diagnostic.Semantic
import Cpl.Proofs.Faults.Programs
import Cpl.Proofs.Lexeme.Cover
import Cpl.Proofs.Source.Lines

namespace Cpl

/-- Line breaks are blanks. -/
theorem isBreak_visible {character : Char} (visible : isBlank character = false) :
    isBreak character = false := by
  rw [← Bool.not_eq_true]
  intro breaks
  rw [isBreak, Bool.or_eq_true, decide_eq_true_eq, decide_eq_true_eq] at breaks
  obtain rfl | rfl := breaks
  · cases visible
  · cases visible

section Outcomes
variable {source : String} {found : List Token}

/-- All faults of a source are reported. -/
theorem compile_lexical {faults : List LexicalError} (cut : tokens source = .error faults) :
    compile source = .error (faults.map .ofLexical) := by
  obtain ⟨same, some⟩ := tokens_error.mp cut
  simp only [compile, Compilation.ofSource, Compilation.ofLexemes, same]

/-- Tokens that make no program are reported with one error. -/
theorem compile_grammatical {error : SyntaxError} (cut : tokens source = .ok found)
    (failed : Program.ofTokens found = .error error) :
    compile source = .error [.ofGrammatical error] := by
  obtain ⟨clean, rfl⟩ := tokens_ok.mp cut
  simp only [compile, Compilation.ofSource, Compilation.ofLexemes, clean]
  simp only [Compilation.after, Compilation.ofTokens, failed]

/-- A semantic error stands at a token. -/
theorem semantic_span {program : Program} {errors : List Diagnostic}
    (read : Program.ofTokens found = .ok program)
    (cut : tokens source = .ok found) (failed : compile source = .error errors) :
    ∀ diagnostic ∈ errors, ∃ token ∈ found, diagnostic.span = token.span := by
  have outcome := (compile_program cut read).symm.trans failed
  by_cases clean : program.semanticErrors = []
  · obtain ⟨code, done⟩ := ofProgram_ok clean
    cases done.symm.trans outcome
  · cases (ofProgram_error clean (faulty_increasing cut read)).symm.trans outcome
    intro diagnostic member
    obtain ⟨error, isError, rfl⟩ := List.mem_map.mp member
    have place := (semanticErrors_sublist program).subset (List.mem_map_of_mem isError)
    obtain ⟨ident, named, same⟩ := List.mem_map.mp place
    obtain ⟨token, isFound, _, atToken⟩ := ident_token read named
    exact ⟨token, isFound, same.symm.trans atToken.symm⟩

/-- A diagnostic points to a text without blanks, or to where the last token stops. -/
theorem compile_place {errors : List Diagnostic} (failed : compile source = .error errors) :
    ∀ diagnostic ∈ errors,
      (∃ text back, Occurs 0 source.toList diagnostic.span text back ∧ text ≠ [] ∧
        ∀ character ∈ text, isBlank character = false) ∨
      ∃ found, tokens source = .ok found ∧ diagnostic.span = .point (Grammar.lastStop found) := by
  intro diagnostic member
  cases cut : tokens source with
  | error faults =>
      cases (compile_lexical cut).symm.trans failed
      obtain ⟨fault, isFault, rfl⟩ := List.mem_map.mp member
      obtain ⟨text, back, occurs, isCut⟩ := errors_occurs cut fault isFault
      exact .inl ⟨text, back, occurs, isCut.nonempty, isCut.visible⟩
  | ok found =>
      have atToken (token : Token) (isFound : token ∈ found) (same : diagnostic.span = token.span) :
          ∃ text back, Occurs 0 source.toList diagnostic.span text back ∧ text ≠ [] ∧
            ∀ character ∈ text, isBlank character = false := by
        obtain ⟨text, back, occurs, isCut⟩ := tokens_occurs cut token isFound
        rw [same]
        exact ⟨text, back, occurs, isCut.nonempty, isCut.visible⟩
      cases read : Program.ofTokens found with
      | error error =>
          cases (compile_grammatical cut read).symm.trans failed
          rw [List.mem_singleton] at member
          subst member
          obtain ⟨token, isFound, same⟩ | ended := Grammar.ofTokens_span read
          · exact .inl (atToken token isFound same)
          · exact .inr ⟨found, rfl, ended⟩
      | ok program =>
          obtain ⟨token, isFound, same⟩ := semantic_span read cut failed diagnostic member
          exact .inl (atToken token isFound same)

/-- Where the last token stops, its text ends. -/
theorem lastStop_place (cut : tokens source = .ok found) :
    ∃ start text back, source.toList = start ++ text ++ back ∧
      Grammar.lastStop found = byteLength (start ++ text) ∧ (text = [] → start = []) ∧
      (∀ character ∈ text, isBlank character = false) ∧
      ∀ last ∈ found.getLast?, last.span.slice? source.toList = some text := by
  cases isLast : found.getLast? with
  | none =>
      refine ⟨[], [], source.toList, rfl, ?_, fun _ => rfl, by simp, by simp⟩
      rw [Grammar.lastStop, isLast]
      rfl
  | some last =>
      obtain ⟨text, back, occurs, isCut⟩ := tokens_occurs cut last (List.mem_of_getLast? isLast)
      have sliced := occurs.slice?
      obtain ⟨start, whole, place⟩ := occurs
      refine ⟨start, text, back, ?_, ?_, fun empty => absurd empty isCut.nonempty, isCut.visible, ?_⟩
      · rw [whole, List.append_assoc]
      · rw [Grammar.lastStop, isLast, byteLength_append, Option.map_some, Option.getD_some, place,
          Nat.zero_add]
      · rintro _ ⟨⟩
        exact sliced

end Outcomes

namespace Diagnostic
variable {diagnostic : Diagnostic}

/-- A line, and below it the message after spaces and carets. -/
def rendering (diagnostic : Diagnostic) (line : Line) (padding underline : Nat) : String :=
  let number := (toString line.number).toList
  String.ofList
    (number ++ ['|', ' '] ++ line.display ++ ['\n']
      ++ List.replicate number.length ' ' ++ ['|', ' '] ++ List.replicate padding ' '
      ++ List.replicate underline '^')
    ++ "--- " ++ diagnostic.phase.text ++ ": " ++ diagnostic.message

/-- A diagnostic whose range can be cut out of the source has a rendering. -/
theorem describe?_some {source before marked : List Char}
    (indented : Span.slice? ⟨(Line.find source diagnostic.span.start).span.start,
      diagnostic.span.start⟩ source = some before)
    (sliced : diagnostic.span.slice? source = some marked) :
    diagnostic.describe? source = some (diagnostic.rendering
      (Line.find source diagnostic.span.start) before.length (max marked.length 1)) := by
  rw [describe?, indented, sliced]
  rfl

/-- A text without line breaks is marked in the line that it starts in. -/
theorem describe?_text {source text back : List Char}
    (occurs : Occurs 0 source diagnostic.span text back) (nonempty : text ≠ [])
    (visible : ∀ character ∈ text, isBreak character = false) :
    let line := Line.find source diagnostic.span.start
    ∃ padding, diagnostic.describe? source = some (diagnostic.rendering line padding text.length) ∧
      padding + text.length ≤ line.display.length ∧
      (line.display.drop padding).take text.length = text := by
  have sliced := occurs.slice?
  obtain ⟨front, rfl, place⟩ := occurs
  have start : diagnostic.span.start = byteLength front := by rw [place, Nat.zero_add]
  obtain ⟨earlier, indent, remaining, after, divided⟩ := Line.find_divided front (text ++ back)
  rw [← start] at divided
  have indented := divided.slice?
  rw [← start] at indented
  have marked := divided.marks rfl nonempty visible
  have lengths := congrArg List.length marked
  have positive := List.length_pos_iff.mpr nonempty
  have described := describe?_some indented sliced
  rw [Nat.max_eq_left positive] at described
  rw [List.length_take, List.length_drop] at lengths
  exact ⟨indent.length, described, by omega, marked⟩

/-- The end of a text without line breaks is marked in the line that it is in. -/
theorem describe?_point {source start text back : List Char} (whole : source = start ++ text ++ back)
    (place : diagnostic.span = .point (byteLength (start ++ text))) (begins : text = [] → start = [])
    (visible : ∀ character ∈ text, isBreak character = false) :
    let line := Line.find source diagnostic.span.start
    ∃ padding, diagnostic.describe? source = some (diagnostic.rendering line padding 1) ∧
      padding ≤ line.display.length ∧ text <:+ line.display.take padding := by
  subst whole
  have sliced : diagnostic.span.slice? (start ++ text ++ back) = some [] :=
    Span.slice?_some.mpr ⟨start ++ text, back, rfl, place⟩
  obtain ⟨earlier, indent, remaining, after, divided⟩ := Line.find_divided (start ++ text) back
  have position : diagnostic.span.start = byteLength (start ++ text) := by rw [place, Span.point]
  rw [← position] at divided
  have indented := divided.slice?
  rw [← position] at indented
  have described := describe?_some indented sliced
  rw [List.length_nil, Nat.max_eq_right (Nat.zero_le 1)] at described
  exact ⟨indent.length, described, divided.follows rfl begins visible⟩

end Diagnostic

/-- Each diagnostic of a source can be shown. Its carets are under its text, or there is one where
the text of the last token ends. -/
theorem compile_rendering {source : String} {errors : List Diagnostic}
    (failed : compile source = .error errors) : ∀ diagnostic ∈ errors,
      let line := Line.find source.toList diagnostic.span.start
      ∃ padding underline,
        diagnostic.describe? source.toList = some (diagnostic.rendering line padding underline) ∧
        (diagnostic.span.start < diagnostic.span.stop →
          padding + underline ≤ line.display.length ∧
          diagnostic.span.slice? source.toList = some ((line.display.drop padding).take underline)) ∧
        (diagnostic.span.stop ≤ diagnostic.span.start →
          underline = 1 ∧ padding ≤ line.display.length ∧
          ∃ found, tokens source = .ok found ∧ ∀ last ∈ found.getLast?,
            ∃ text, last.span.slice? source.toList = some text ∧
              text <:+ line.display.take padding) := by
  intro diagnostic member line
  obtain ⟨text, back, occurs, nonempty, visible⟩ | ⟨found, cut, place⟩ :=
    compile_place failed diagnostic member
  · obtain ⟨padding, described, inside, marked⟩ := diagnostic.describe?_text occurs nonempty
      fun character inText => isBreak_visible (visible character inText)
    refine ⟨padding, text.length, described, fun _ => ⟨inside, ?_⟩, fun empty => ?_⟩
    · rw [marked]
      exact occurs.slice?
    · obtain ⟨front, _, place⟩ := occurs
      have positive := byteLength_pos nonempty
      rw [place] at empty
      simp only at empty
      omega
  · obtain ⟨start, text, back, whole, stop, begins, visible, isLast⟩ := lastStop_place cut
    rw [stop] at place
    obtain ⟨padding, described, inside, ends⟩ := diagnostic.describe?_point whole place begins
      fun character inText => isBreak_visible (visible character inText)
    refine ⟨padding, 1, described, fun nonempty => ?_, fun _ => ⟨rfl, inside, found, cut, ?_⟩⟩
    · rw [place] at nonempty
      exact absurd nonempty (Nat.lt_irrefl _)
    · exact fun last member => ⟨text, isLast last member, ends⟩

/-- A character of two bytes on a second line, and a name at the end of a line. -/
theorem brokenLines_rendering :
    let unknown : Diagnostic := ⟨.lexical, "invalid symbol", ⟨4, 6⟩⟩
    let ended : Diagnostic :=
      ⟨.grammatical, "unexpected end of input when parsing an assignment", ⟨2, 2⟩⟩
    compile "\x7b\r\n é" = .error [unknown] ∧ compile "\x7bx\r\n" = .error [ended] ∧
      (∃ padding underline, unknown.span.slice? "\x7b\r\n é".toList =
        some (((Line.find "\x7b\r\n é".toList 4).display.drop padding).take underline)) ∧
      ∃ padding, ended.describe? "\x7bx\r\n".toList =
        some (ended.rendering (Line.find "\x7bx\r\n".toList 2) padding 1) := by
  intro unknown ended
  have fault : tokens "\x7b\r\n é" = .error [⟨.unknownCharacter, ⟨4, 6⟩⟩] :=
    tokens_error.mpr (by decide +kernel)
  have first : compile "\x7b\r\n é" = .error [unknown] := compile_lexical fault
  have cut : tokens "\x7bx\r\n" =
      .ok [⟨.symbol .openBrace, ⟨0, 1⟩⟩, ⟨.identifier "x", ⟨1, 2⟩⟩] :=
    tokens_ok.mpr (by decide +kernel)
  have failed : Program.ofTokens [⟨.symbol .openBrace, ⟨0, 1⟩⟩, ⟨.identifier "x", ⟨1, 2⟩⟩] =
    .error ⟨.assignment, none, ⟨2, 2⟩⟩ := by cbv
  have second : compile "\x7bx\r\n" = .error [ended] := compile_grammatical cut failed
  obtain ⟨padding, underline, _, marked, _⟩ := compile_rendering first unknown List.mem_cons_self
  obtain ⟨column, _, described, _, single⟩ := compile_rendering second ended List.mem_cons_self
  obtain ⟨rfl, _⟩ := single (Nat.le_refl 2)
  exact ⟨first, second, ⟨padding, underline, (marked (by decide)).2⟩, column, described⟩

end Cpl
