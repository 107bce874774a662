import Cpl.Proofs.Diagnostic.Rendering
import Cpl.Proofs.Lowering.Names
import Cpl.Proofs.Program.Wording

namespace Cpl

/-- The token that the text of a value is read as. -/
def Value.token : Value → TokenKind
  | literal constant => .literal constant
  | name place => .identifier place.text

/-- A scope whose variables are named by words of the language. -/
def Scope.Spelled (scope : Scope) : Prop :=
  ∀ name, scope.contains name = true → Spelling (.identifier name) name.toList

/-- The name of a temporary is spelled like an identifier. -/
theorem temp_spelled (index : Nat) :
    Spelling (.identifier (Name.temp index).text) (Name.temp index).text.toList := by
  have shown : (Name.temp index).text = String.ofList ('t' :: Nat.toDigits 10 index) := by
    apply String.toList_injective
    simp [Name.text]
  rw [shown, String.toList_ofList]
  apply Spelling.identifier rfl
  · intro character member
    rw [Char.isAlphanum, toDigits_digits index character member, Bool.or_true]
  · -- No keyword starts with the letter of a temporary.
    intro word same
    cases word <;> cases same

section Vocabulary
variable {scope : Scope} (spelled : scope.Spelled)
include spelled

/-- All values that code may mention are shown as words. -/
theorem vocabulary_spelled {value : Value}
    (known : value ∈ scope.vocabulary {constant | constant.Spelled}) :
    Spelling value.token value.text.toList := by
  cases value with
  | literal constant =>
      obtain written | isNo | isYes := known
      · exact written
      · cases isNo
        exact integer_spelled (Nat.zero_le _)
      · cases isYes
        exact integer_spelled (by decide)
  | name place =>
      cases place with
      | var name => exact spelled name known
      | temp index => exact temp_spelled index

/-- Values that code may mention have distinct texts. -/
theorem vocabulary_injOn :
    Set.InjOn Value.text (scope.vocabulary {constant | constant.Spelled}) := by
  intro value known other otherKnown same
  have first := vocabulary_spelled spelled known
  have second := vocabulary_spelled spelled otherKnown
  rw [← same] at second
  have tokens := first.unique second
  cases value with
  | literal constant =>
      cases other with
      | literal twin =>
          cases tokens
          rfl
      | name place => cases tokens
  | name place =>
      cases other with
      | literal twin => cases tokens
      | name twin => exact congrArg Value.name (name_text_injective known otherKnown same)

/-- The words of the vocabulary have no blanks in them. -/
theorem vocabulary_unbroken :
    ∀ value ∈ scope.vocabulary {constant | constant.Spelled}, Unbroken value.text :=
  fun _ known => (vocabulary_spelled spelled known).visible

end Vocabulary

/-- What code may mention depends on the names of the variables alone. -/
theorem Scope.vocabulary_congr {scope other : Scope} {constants : Set Literal}
    (same : scope.contains = other.contains) :
    scope.vocabulary constants = other.vocabulary constants := by
  rw [vocabulary, vocabulary, same]

section Sources
variable {source : String} {code : Listing} {found : List Token} {program : Program}

/-- What is compiled was cut into tokens and read as a program. -/
theorem compile_read (compiled : compile source = .ok code) : ∃ found program,
    tokens source = .ok found ∧ Program.ofTokens found = .ok program ∧
      code = (generate (Scope.ofDeclarations program.declarations).1 program.body).program := by
  cases cut : tokens source with
  | error faults => cases (compile_lexical cut).symm.trans compiled
  | ok found =>
      cases read : Program.ofTokens found with
      | error error => cases (compile_grammatical cut read).symm.trans compiled
      | ok program =>
          rw [compile_program cut read] at compiled
          by_cases clean : program.semanticErrors = []
          · cases (ofProgram_clean clean).symm.trans compiled
            exact ⟨found, program, rfl, read, rfl⟩
          · cases (ofProgram_error clean (faulty_increasing cut read)).symm.trans compiled

/-- The variables of a source are named by words. -/
theorem scope_spelled (cut : tokens source = .ok found)
    (read : Program.ofTokens found = .ok program) :
    (Scope.ofDeclarations program.declarations).1.Spelled := by
  intro name declared
  rw [Scope.ofDeclarations_contains, decide_eq_true_eq] at declared
  obtain ⟨ident, isDeclared, rfl⟩ := List.mem_map.mp declared
  exact (program_worded cut read).names ident (List.mem_append_left _ isDeclared)

/-- The code of a source mentions nothing but constants that are words, declared variables and
temporaries. -/
theorem source_within (cut : tokens source = .ok found)
    (read : Program.ofTokens found = .ok program) :
    let scope := (Scope.ofDeclarations program.declarations).1
    (generate scope program.body).program.Within
      (scope.vocabulary {constant | constant.Spelled}) := by
  apply generate_within
  exact (program_worded cut read).constants

/-- The names that a source declares, if it can be read. -/
def declaredNames (source : String) : Set String := {name | ∃ found program,
  tokens source = .ok found ∧ Program.ofTokens found = .ok program ∧ program.declares name = true}

/-- The declared names of a source are those that its program declares. -/
theorem declaredNames_eq (cut : tokens source = .ok found)
    (read : Program.ofTokens found = .ok program) :
    declaredNames source = {name | program.declares name = true} := by
  ext name
  constructor
  · rintro ⟨others, twin, cutTwin, readTwin, declared⟩
    cases cut.symm.trans cutTwin
    cases read.symm.trans readTwin
    exact declared
  · exact fun declared => ⟨found, program, cut, read, declared⟩

end Sources

/-- The text of a compiled program determines it. Sources that declare the same names and are
compiled to the same text are compiled to the same instructions. -/
theorem compile_text {first second : String} {code other : Listing}
    (compiled : compile first = .ok code) (compiledOther : compile second = .ok other)
    (sameNames : declaredNames first = declaredNames second) (sameText : code.text = other.text) :
    code = other := by
  obtain ⟨found, program, cut, read, rfl⟩ := compile_read compiled
  obtain ⟨foundOther, twin, cutOther, readOther, rfl⟩ := compile_read compiledOther
  rw [declaredNames_eq cut read, declaredNames_eq cutOther readOther] at sameNames
  have contains : (Scope.ofDeclarations program.declarations).1.contains =
      (Scope.ofDeclarations twin.declarations).1.contains := by
    funext name
    have declared (program : Program) :
        (Scope.ofDeclarations program.declarations).1.contains name = program.declares name :=
      Scope.ofDeclarations_contains program.declarations name
    rw [declared, declared, Bool.eq_iff_iff]
    exact Set.ext_iff.mp sameNames name
  have spelled := scope_spelled cut read
  have within := source_within cut read
  have withinOther := source_within cutOther readOther
  dsimp only at withinOther
  rw [← Scope.vocabulary_congr contains] at withinOther
  exact Listing.text_injOn (vocabulary_injOn spelled) (vocabulary_unbroken spelled) within
    withinOther sameText

/-- A variable that is named like the first temporary, in sources that are written differently. -/
theorem firstTemp_text :
    let source := "t1:int;{output(t1+07);}"
    let spaced := "t1 :int; { output(t1 + 7); }"
    ∃ code other, compile source = .ok code ∧ compile spaced = .ok other ∧
      declaredNames source = declaredNames spaced ∧
      code.text = "IADD t2 t1 7\nIPRT t2\nHALT\n" ∧ code.text = other.text ∧ code = other := by
  intro source spaced
  let found : List Token := [⟨.identifier "t1", ⟨0, 2⟩⟩, ⟨.symbol .colon, ⟨2, 3⟩⟩,
    ⟨.keyword .intWord, ⟨3, 6⟩⟩, ⟨.symbol .semicolon, ⟨6, 7⟩⟩, ⟨.symbol .openBrace, ⟨7, 8⟩⟩,
    ⟨.keyword .outputWord, ⟨8, 14⟩⟩, ⟨.symbol .openParen, ⟨14, 15⟩⟩, ⟨.identifier "t1", ⟨15, 17⟩⟩,
    ⟨.symbol .plus, ⟨17, 18⟩⟩, ⟨.literal (.integer 7), ⟨18, 20⟩⟩, ⟨.symbol .closeParen, ⟨20, 21⟩⟩,
    ⟨.symbol .semicolon, ⟨21, 22⟩⟩, ⟨.symbol .closeBrace, ⟨22, 23⟩⟩]
  let foundSpaced : List Token := [⟨.identifier "t1", ⟨0, 2⟩⟩, ⟨.symbol .colon, ⟨3, 4⟩⟩,
    ⟨.keyword .intWord, ⟨4, 7⟩⟩, ⟨.symbol .semicolon, ⟨7, 8⟩⟩, ⟨.symbol .openBrace, ⟨9, 10⟩⟩,
    ⟨.keyword .outputWord, ⟨11, 17⟩⟩, ⟨.symbol .openParen, ⟨17, 18⟩⟩, ⟨.identifier "t1", ⟨18, 20⟩⟩,
    ⟨.symbol .plus, ⟨21, 22⟩⟩, ⟨.literal (.integer 7), ⟨23, 24⟩⟩, ⟨.symbol .closeParen, ⟨24, 25⟩⟩,
    ⟨.symbol .semicolon, ⟨25, 26⟩⟩, ⟨.symbol .closeBrace, ⟨27, 28⟩⟩]
  let program (used : Span) : Program := ⟨[⟨[⟨"t1", ⟨0, 2⟩⟩], .int⟩],
    [.output (.binary .add (.identifier ⟨"t1", used⟩) (.literal (.integer 7)))]⟩
  let code : Listing := [.arith .int .add (.temp 2) (.name (.var "t1")) (.literal (.integer 7)),
    .print .int (.name (.temp 2)), .halt]
  have cut : tokens source = .ok found := tokens_ok.mpr (by decide +kernel)
  have cutSpaced : tokens spaced = .ok foundSpaced := tokens_ok.mpr (by decide +kernel)
  have read : Program.ofTokens found = .ok (program ⟨15, 17⟩) := by cbv
  have readSpaced : Program.ofTokens foundSpaced = .ok (program ⟨18, 20⟩) := by cbv
  have compiled : compile source = .ok code := by
    rw [compile_program cut read, ofProgram_clean (by decide)]
    decide +kernel
  have compiledSpaced : compile spaced = .ok code := by
    rw [compile_program cutSpaced readSpaced, ofProgram_clean (by decide)]
    decide +kernel
  have sameNames : declaredNames source = declaredNames spaced := by
    rw [declaredNames_eq cut read, declaredNames_eq cutSpaced readSpaced]
    rfl
  exact ⟨code, code, compiled, compiledSpaced, sameNames, by decide +kernel, rfl,
    compile_text compiled compiledSpaced sameNames rfl⟩

end Cpl
