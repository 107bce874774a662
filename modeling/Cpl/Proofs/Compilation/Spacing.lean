import Cpl.Proofs.Diagnostic.Rendering
import Cpl.Proofs.Grammar.Places
import Cpl.Proofs.Lowering.Transport
import Mathlib.Logic.Function.Basic

namespace Cpl

section Moves
variable {spans : Span → Span} {found other : List Token}

/-- Tokens of the same kinds as others, which are in distinct places, are these in other places. -/
theorem exists_move (apart : found.Pairwise fun first second => first.span ≠ second.span)
    (alike : found.map Token.kind = other.map Token.kind) :
    ∃ spans, other = found.map (Token.move spans) := by
  induction found generalizing other with
  | nil => exact ⟨id, List.map_eq_nil_iff.mp alike.symm⟩
  | cons token later ih =>
      obtain ⟨distinct, rest⟩ := List.pairwise_cons.mp apart
      cases other with
      | nil => cases alike
      | cons twin twins =>
          obtain ⟨kind, kinds⟩ := List.cons.inj alike
          obtain ⟨spans, rfl⟩ := ih rest kinds
          refine ⟨Function.update spans token.span twin.span, ?_⟩
          rw [List.map_cons]
          congr 1
          · rw [Token.move, Function.update_self, kind]
          · apply List.map_congr_left
            intro token member
            rw [Token.move, Token.move, Function.update_of_ne (distinct token member).symm]

/-- The names of a program are moved with its tokens. -/
theorem idents_move {program image : Program} (read : Program.ofTokens found = .ok program)
    (readImage : Program.ofTokens (found.map (Token.move spans)) = .ok image) :
    image.idents = program.idents.map (Ident.respell (.moving spans)) := by
  rw [ofTokens_idents read, ofTokens_idents readImage, List.filterMap_map, List.map_filterMap]
  exact List.filterMap_congr fun token _ => Grammar.ident?_move token

end Moves

section Generation
variable (spans : Span → Span)

/-- Places have no part in the names of variables and in the choice of temporaries. -/
def Transport.ofMove (scope : Scope) : Transport scope scope where
  respelling := .moving spans
  temps := id
  scalar _ := rfl
  next _ := rfl

/-- Respelling without a change keeps all names. -/
theorem Name.respell_id : Name.respell id id = id := by
  funext name
  cases name <;> rfl

/-- Code stays as it is when no name is changed. -/
theorem Listing.mapNames_id (code : Listing) : code.mapNames id = code := by
  have same (quad : Quad) : quad.mapNames id = quad := by
    have value (operand : Value) : operand.mapName id = operand := by cases operand <;> rfl
    cases quad <;> simp [Quad.mapNames, value]
  simp [mapNames, funext same]

/-- A program with its names in other places has the same code, and the same errors there. -/
theorem generate_move (scope : Scope) (body : List Statement) :
    (generate scope (Statement.respellAll (.moving spans) body)).program =
        (generate scope body).program ∧
      (generate scope (Statement.respellAll (.moving spans) body)).errors =
        (generate scope body).errors.map (SemanticError.respell (.moving spans)) := by
  have carried := (Transport.ofMove spans scope).generate_carries rfl body
  have place : (Transport.ofMove spans scope).place = id := Name.respell_id
  rw [place, Listing.mapNames_id] at carried
  exact carried

/-- Declarations in other places make the same scope, and errors in these places. -/
theorem ofDeclarations_move (declarations : List Declaration) :
    Scope.ofDeclarations (declarations.map (Declaration.respell (.moving spans))) =
      ((Scope.ofDeclarations declarations).1,
        (Scope.ofDeclarations declarations).2.map (SemanticError.respell (.moving spans))) := by
  rw [Scope.ofDeclarations_respell Function.injective_id, Scope.rename_id]

end Generation

section Programs
variable {spans : Span → Span} {program : Program}

/-- The same names are at fault in a moved program. -/
theorem semanticErrors_perm (spans : Span → Span) (program : Program) :
    (program.respell (.moving spans)).semanticErrors.Perm
      (program.semanticErrors.map (SemanticError.respell (.moving spans))) := by
  have declared := ofDeclarations_move spans program.declarations
  have generated := generate_move spans (Scope.ofDeclarations program.declarations).1 program.body
  have found := found_errors (program.respell (.moving spans))
  simp only [Program.respell, declared, generated.2, ← List.map_append] at found
  exact found.symm.trans ((found_errors program).map _)

/-- A program without errors has the same code wherever its names stand. -/
theorem ofProgram_move (clean : program.semanticErrors = []) :
    (Compilation.ofProgram (program.respell (.moving spans))).outcome =
      (Compilation.ofProgram program).outcome := by
  have same := semanticErrors_perm spans program
  rw [clean, List.map_nil, List.perm_nil] at same
  have declared := ofDeclarations_move spans program.declarations
  have generated := generate_move spans (Scope.ofDeclarations program.declarations).1 program.body
  rw [ofProgram_clean clean, ofProgram_clean same]
  simp only [Program.respell, declared, generated.1]

/-- The errors of a moved program are in the same order, if its names are in the order of their
places: both lists have the same members and are strictly sorted. -/
theorem semanticErrors_move
    (moved : (program.respell (.moving spans)).idents =
      program.idents.map (Ident.respell (.moving spans)))
    (increasing : (program.respell (.moving spans)).idents.Pairwise fun first second =>
      first.span.start < second.span.start) :
    (program.respell (.moving spans)).semanticErrors =
      program.semanticErrors.map (SemanticError.respell (.moving spans)) := by
  have places : ((program.respell (.moving spans)).idents.map Ident.span).Pairwise
      fun first second => first.start < second.start := List.pairwise_map.mpr increasing
  have ordered {errors : List SemanticError} (named : (errors.map SemanticError.span).Sublist
      ((program.respell (.moving spans)).idents.map Ident.span)) :
      errors.Pairwise fun first second => first.span.start < second.span.start := by
    have inside := places.sublist named
    rw [List.pairwise_map] at inside
    exact inside
  have image := ordered (semanticErrors_sublist _)
  have twin : (program.semanticErrors.map (SemanticError.respell (.moving spans))).Pairwise
      fun first second => first.span.start < second.span.start := by
    apply ordered
    rw [moved, List.map_map, List.map_map]
    have sublist := (semanticErrors_sublist program).map spans
    rw [List.map_map, List.map_map] at sublist
    exact sublist
  apply List.Perm.eq_of_pairwise _ image twin (semanticErrors_perm spans program)
  intro first second _ _ before after
  omega

end Programs

/-- The place of one token in two lists of tokens, or the end of both lists. -/
inductive SamePlace (found other : List Token) : Span → Span → Prop
  | token {index : Nat} {token twin : Token} (isFound : found[index]? = some token)
      (isTwin : other[index]? = some twin) : SamePlace found other token.span twin.span
  | ended : SamePlace found other (.point (Grammar.lastStop found))
      (.point (Grammar.lastStop other))

/-- Diagnostics that differ in nothing but the places of the tokens that they point to. -/
structure SameDiagnostic (found other : List Token) (error twin : Diagnostic) : Prop where
  phase : error.phase = twin.phase
  message : error.message = twin.message
  place : SamePlace found other error.span twin.span

section Diagnostics
variable {spans : Span → Span} {found : List Token}

/-- A token and the moved token have the same index. -/
theorem samePlace_move {token : Token} (member : token ∈ found) :
    SamePlace found (found.map (Token.move spans)) token.span (spans token.span) := by
  obtain ⟨index, isFound⟩ := List.mem_iff_getElem?.mp member
  have isTwin : (found.map (Token.move spans))[index]? = some (token.move spans) := by
    rw [List.getElem?_map, isFound]
    rfl
  exact .token isFound isTwin

/-- A failure is reported in the same words at the same token, or at the end. -/
theorem ofFailure_move {failure : Grammar.Failure}
    (failed : Grammar.program found = .error failure) :
    SameDiagnostic found (found.map (Token.move spans)) (.ofGrammatical (.ofFailure found failure))
      (.ofGrammatical (.ofFailure (found.map (Token.move spans)) (failure.move spans))) := by
  cases stopped : failure.found with
  | none =>
      have stoppedTwin : (failure.move spans).found = none := by
        rw [Grammar.Failure.move, stopped]
        rfl
      refine ⟨rfl, ?_, ?_⟩
      · simp [Diagnostic.ofGrammatical, SyntaxError.message, SyntaxError.ofFailure,
          Grammar.Failure.move, stopped]
      · rw [Diagnostic.ofGrammatical, Diagnostic.ofGrammatical, Grammar.ofFailure_end stopped,
          Grammar.ofFailure_end stoppedTwin]
        exact .ended
  | some token =>
      have stoppedTwin : (failure.move spans).found = some (token.move spans) := by
        rw [Grammar.Failure.move, stopped]
        rfl
      have stuck := Grammar.program_fails failed
      rw [stopped] at stuck
      obtain ⟨before, after, rfl, _⟩ := stuck
      refine ⟨rfl, ?_, ?_⟩
      · simp [Diagnostic.ofGrammatical, SyntaxError.message, SyntaxError.ofFailure,
          Grammar.Failure.move, stopped, Token.move]
      · rw [Diagnostic.ofGrammatical, Diagnostic.ofGrammatical, Grammar.ofFailure_token stopped,
          Grammar.ofFailure_token stoppedTwin]
        exact samePlace_move (List.mem_append_right _ List.mem_cons_self)

/-- Tokens in other places fail with the same message at the same token. -/
theorem ofTokens_move_error {error : SyntaxError} (failed : Program.ofTokens found = .error error) :
    ∃ twin, Program.ofTokens (found.map (Token.move spans)) = .error twin ∧
      SameDiagnostic found (found.map (Token.move spans)) (.ofGrammatical error)
        (.ofGrammatical twin) := by
  obtain ⟨failure, wrong, rfl⟩ := Grammar.ofTokens_error.mp failed
  have moved : Grammar.program (found.map (Token.move spans)) = .error (failure.move spans) := by
    rw [Grammar.program_move, wrong]
    rfl
  exact ⟨_, Grammar.ofTokens_error.mpr ⟨_, moved, rfl⟩, ofFailure_move wrong⟩

/-- Tokens in other places make the same program, with its names in these places. -/
theorem ofTokens_move_ok {program : Program} (read : Program.ofTokens found = .ok program) :
    Program.ofTokens (found.map (Token.move spans)) = .ok (program.respell (.moving spans)) := by
  rw [Grammar.ofTokens_ok] at read ⊢
  rw [Grammar.program_move, read]
  rfl

/-- The errors of a program that was read stand at its tokens, and move with them. -/
theorem semanticErrors_same {program : Program} (read : Program.ofTokens found = .ok program) :
    List.Forall₂ (SameDiagnostic found (found.map (Token.move spans)))
      (program.semanticErrors.map .ofSemantic)
      ((program.semanticErrors.map (SemanticError.respell (.moving spans))).map .ofSemantic) := by
  rw [List.map_map, List.forall₂_map_left_iff, List.forall₂_map_right_iff, List.forall₂_same]
  intro error member
  have place := (semanticErrors_sublist program).subset (List.mem_map_of_mem member)
  obtain ⟨ident, named, same⟩ := List.mem_map.mp place
  obtain ⟨token, isFound, _, atToken⟩ := ident_token read named
  refine ⟨rfl, ?_, ?_⟩
  · obtain ⟨cause, span⟩ := error
    cases cause <;> rfl
  · have place : error.span = token.span := same.symm.trans atToken.symm
    have moved : (error.respell (.moving spans)).span = spans token.span := congrArg spans place
    rw [Diagnostic.ofSemantic, Function.comp_apply, Diagnostic.ofSemantic, moved, place]
    exact samePlace_move isFound

end Diagnostics

/-- Sources with tokens of the same kinds are compiled alike, whatever blanks and comments stand
between the tokens and however the tokens are written. Either they have the same code, or the same
diagnostics in the same order, each at one token of both sources or at the end of both. -/
theorem compile_spacing {first second : String} {found other : List Token}
    (cut : tokens first = .ok found) (cutOther : tokens second = .ok other)
    (alike : found.map Token.kind = other.map Token.kind) :
    (∃ code, compile first = .ok code ∧ compile second = .ok code) ∨
      ∃ errors others, compile first = .error errors ∧ compile second = .error others ∧
        List.Forall₂ (SameDiagnostic found other) errors others := by
  have apart : found.Pairwise fun first second => first.span ≠ second.span := by
    apply (tokens_increasing cut).imp
    intro first second before same
    rw [same] at before
    omega
  obtain ⟨spans, rfl⟩ := exists_move apart alike
  cases read : Program.ofTokens found with
  | error error =>
      obtain ⟨twin, failed, same⟩ := ofTokens_move_error read
      exact .inr ⟨_, _, compile_grammatical cut read, compile_grammatical cutOther failed,
        .cons same .nil⟩
  | ok program =>
      have readTwin : Program.ofTokens (found.map (Token.move spans)) = _ := ofTokens_move_ok read
      rw [compile_program cut read, compile_program cutOther readTwin]
      by_cases clean : program.semanticErrors = []
      · have done := ofProgram_clean clean
        exact .inl ⟨_, done, (ofProgram_move clean).trans done⟩
      · have errors := semanticErrors_move (idents_move read readTwin)
          (idents_increasing cutOther readTwin)
        have faulty : (program.respell (.moving spans)).semanticErrors ≠ [] := by
          rw [errors]
          exact fun empty => clean (List.map_eq_nil_iff.mp empty)
        refine .inr ⟨_, _, ofProgram_error clean (faulty_increasing cut read),
          ofProgram_error faulty (faulty_increasing cutOther readTwin), ?_⟩
        rw [errors]
        exact semanticErrors_same read

/-- An undeclared name after a declaration, in one line and over two lines with a comment. -/
theorem undeclared_spacing :
    let source := "a:int;{b=07;}"
    let spaced := "a :int;\n{ /* b */ b = 7; }"
    let found : List Token := [⟨.identifier "a", ⟨0, 1⟩⟩, ⟨.symbol .colon, ⟨1, 2⟩⟩,
      ⟨.keyword .intWord, ⟨2, 5⟩⟩, ⟨.symbol .semicolon, ⟨5, 6⟩⟩, ⟨.symbol .openBrace, ⟨6, 7⟩⟩,
      ⟨.identifier "b", ⟨7, 8⟩⟩, ⟨.symbol .assign, ⟨8, 9⟩⟩, ⟨.literal (.integer 7), ⟨9, 11⟩⟩,
      ⟨.symbol .semicolon, ⟨11, 12⟩⟩, ⟨.symbol .closeBrace, ⟨12, 13⟩⟩]
    let other : List Token := [⟨.identifier "a", ⟨0, 1⟩⟩, ⟨.symbol .colon, ⟨2, 3⟩⟩,
      ⟨.keyword .intWord, ⟨3, 6⟩⟩, ⟨.symbol .semicolon, ⟨6, 7⟩⟩, ⟨.symbol .openBrace, ⟨8, 9⟩⟩,
      ⟨.identifier "b", ⟨18, 19⟩⟩, ⟨.symbol .assign, ⟨20, 21⟩⟩, ⟨.literal (.integer 7), ⟨22, 23⟩⟩,
      ⟨.symbol .semicolon, ⟨23, 24⟩⟩, ⟨.symbol .closeBrace, ⟨25, 26⟩⟩]
    tokens source = .ok found ∧ tokens spaced = .ok other ∧
      compile source = .error [.ofSemantic ⟨.undeclared "b", ⟨7, 8⟩⟩] ∧
      ∃ others, compile spaced = .error others ∧ List.Forall₂ (SameDiagnostic found other)
        [.ofSemantic ⟨.undeclared "b", ⟨7, 8⟩⟩] others := by
  intro source spaced found other
  have cut : tokens source = .ok found := tokens_ok.mpr (by decide +kernel)
  have cutSpaced : tokens spaced = .ok other := tokens_ok.mpr (by decide +kernel)
  have read : Program.ofTokens found = .ok ⟨[⟨[⟨"a", ⟨0, 1⟩⟩], .int⟩],
    [.assign ⟨"b", ⟨7, 8⟩⟩ (.literal (.integer 7))]⟩ := by cbv
  have failed : compile source = .error [.ofSemantic ⟨.undeclared "b", ⟨7, 8⟩⟩] := by
    rw [compile_program cut read, ofProgram_error (by decide) (faulty_increasing cut read)]
    decide
  obtain ⟨code, done, _⟩ | ⟨errors, others, first, second, same⟩ :=
    compile_spacing cut cutSpaced (by decide)
  · cases done.symm.trans failed
  · cases first.symm.trans failed
    exact ⟨cut, cutSpaced, failed, others, second, same⟩

end Cpl
