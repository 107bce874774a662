import Cpl.Compile
import Cpl.Proofs.Grammar.Programs
import Cpl.Proofs.Grammar.Yield
import Cpl.Proofs.Lexeme.Order
import Cpl.Proofs.Lowering.Failure
import Cpl.Proofs.Scope.Declarations
import Mathlib.Data.List.Nodup

namespace Cpl

namespace Program

/-- The names that a program declares, in the order in which they are written. -/
def declaredIdents (program : Program) : List Ident :=
  program.declarations.flatMap Declaration.idents

def declares (program : Program) (name : String) : Bool :=
  decide (name ∈ program.declaredIdents.map Ident.name)

/-- The declared names that were declared before. -/
def redeclared (program : Program) : List Ident := Ident.repeated [] program.declaredIdents

/-- For each statement without parts and for each condition, the first name that is declared
nowhere. -/
def undeclared (program : Program) : List Ident :=
  Statement.unknownOf program.declares program.body

def semanticErrors (program : Program) : List SemanticError :=
  program.redeclared.map .duplicate ++ program.undeclared.map .undeclared

/-- A program is without errors if no name is declared again or used without a declaration. -/
theorem semanticErrors_nil {program : Program} :
    program.semanticErrors = [] ↔ program.redeclared = [] ∧ program.undeclared = [] := by
  simp [semanticErrors]

end Program

section Places

/-- The first unknown name is one of the names. -/
theorem firstUnknown_sublist (known : String → Bool) (idents : List Ident) :
    (Ident.firstUnknown known idents).toList.Sublist idents := by
  cases found : Ident.firstUnknown known idents with
  | none => exact List.nil_sublist _
  | some ident => exact List.singleton_sublist.mpr (List.mem_of_find?_eq_some found)

mutual

/-- The unknown names of a statement stand in it, in the same order. -/
theorem Statement.unknown_sublist (known : String → Bool) : ∀ statement : Statement,
    (statement.unknown known).Sublist statement.idents
  | .assign target value => firstUnknown_sublist known (target :: value.idents)
  | .input target => firstUnknown_sublist known [target]
  | .output value => firstUnknown_sublist known value.idents
  | .branch test yes no =>
      ((firstUnknown_sublist known test.idents).append (yes.unknown_sublist known)).append
        (no.unknown_sublist known)
  | .loop test body => (firstUnknown_sublist known test.idents).append (body.unknown_sublist known)
  | .block body => Statement.unknownOf_sublist known body

/-- The unknown names of statements stand in them, in the same order. -/
theorem Statement.unknownOf_sublist (known : String → Bool) : ∀ body : List Statement,
    (Statement.unknownOf known body).Sublist (Statement.identsOf body)
  | [] => .slnil
  | first :: later =>
      (first.unknown_sublist known).append (Statement.unknownOf_sublist known later)

end

/-- The names of a program are those of its tokens. -/
theorem ofTokens_idents {found : List Token} {program : Program}
    (read : Program.ofTokens found = .ok program) :
    program.idents = found.filterMap Grammar.ident? := by
  rw [Grammar.ofTokens_ok, Grammar.program_iff_phrase] at read
  exact read.idents.symm

/-- Each name of a program stands at a token. -/
theorem ident_token {found : List Token} {program : Program} {ident : Ident}
    (read : Program.ofTokens found = .ok program) (named : ident ∈ program.idents) :
    ∃ token ∈ found, token.kind = .identifier ident.name ∧ token.span = ident.span := by
  rw [ofTokens_idents read] at named
  obtain ⟨token, isFound, isIdent⟩ := List.mem_filterMap.mp named
  obtain ⟨name, kind, rfl⟩ := Grammar.ident?_some.mp isIdent
  exact ⟨token, isFound, kind, rfl⟩

/-- The names that a source spells are in the order of their places. -/
theorem idents_increasing {source : String} {found : List Token} {program : Program}
    (cut : tokens source = .ok found) (read : Program.ofTokens found = .ok program) :
    program.idents.Pairwise fun first second => first.span.start < second.span.start := by
  rw [ofTokens_idents read, List.pairwise_filterMap]
  apply (tokens_increasing cut).imp
  intro first second before ident isIdent other isOther
  obtain ⟨_, _, rfl⟩ := Grammar.ident?_some.mp isIdent
  obtain ⟨_, _, rfl⟩ := Grammar.ident?_some.mp isOther
  exact before

/-- The names at fault are names of the program. -/
theorem faulty_sublist (program : Program) :
    (program.redeclared ++ program.undeclared).Sublist program.idents :=
  (Ident.repeated_sublist [] _).append (Statement.unknownOf_sublist _ program.body)

/-- The names at fault are in the order of their places. -/
theorem faulty_increasing {source : String} {found : List Token} {program : Program}
    (cut : tokens source = .ok found) (read : Program.ofTokens found = .ok program) :
    (program.redeclared ++ program.undeclared).Pairwise fun first second =>
      first.span.start < second.span.start :=
  (idents_increasing cut read).sublist (faulty_sublist program)

end Places

section Outcome
variable {program : Program}

/-- Compilation finds the errors of a program, each of them once. -/
theorem found_errors (program : Program) :
    ((Scope.ofDeclarations program.declarations).2 ++
      (generate (Scope.ofDeclarations program.declarations).1 program.body).errors).Perm
        program.semanticErrors := by
  have declared : (Scope.ofDeclarations program.declarations).1.contains = program.declares :=
    funext (Scope.ofDeclarations_contains program.declarations)
  have used := generate_errors (Scope.ofDeclarations program.declarations).1 program.body
  rw [declared] at used
  rw [Scope.ofDeclarations_errors]
  exact used.append_left _

/-- Sorted diagnostics are in the order of their places. -/
theorem mergeSort_ordered (found : List Diagnostic) :
    (found.mergeSort fun first second => decide (first.span.start ≤ second.span.start)).Pairwise
      fun first second => first.span.start ≤ second.span.start := by
  have transitive (first second third : Diagnostic)
      (before : decide (first.span.start ≤ second.span.start) = true)
      (after : decide (second.span.start ≤ third.span.start) = true) :
      decide (first.span.start ≤ third.span.start) = true := by
    rw [decide_eq_true_eq] at *
    exact Nat.le_trans before after
  have total (first second : Diagnostic) : (decide (first.span.start ≤ second.span.start) ||
      decide (second.span.start ≤ first.span.start)) = true := by
    rw [Bool.or_eq_true, decide_eq_true_eq, decide_eq_true_eq]
    exact Nat.le_total _ _
  exact (List.pairwise_mergeSort transitive total found).imp of_decide_eq_true

/-- Diagnostics in distinct places are sorted into the order of these, in whatever order they were
found. -/
theorem mergeSort_increasing {found sorted : List Diagnostic} (same : found.Perm sorted)
    (increasing : sorted.Pairwise fun first second => first.span.start < second.span.start) :
    (found.mergeSort fun first second => decide (first.span.start ≤ second.span.start)) = sorted := by
  have moved := (found.mergeSort_perm fun first second =>
    decide (first.span.start ≤ second.span.start)).trans same
  have starts : (sorted.map fun diagnostic => diagnostic.span.start).Nodup :=
    List.pairwise_map.mpr (increasing.imp Nat.ne_of_lt)
  apply List.Perm.eq_of_pairwise _ (mergeSort_ordered found) (increasing.imp Nat.le_of_lt) moved
  intro first second firstMember secondMember before after
  exact List.inj_on_of_nodup_map starts (moved.mem_iff.mp firstMember) secondMember
    (Nat.le_antisymm before after)

/-- A clean program has the code of its body. -/
theorem ofProgram_clean (clean : program.semanticErrors = []) :
    (Compilation.ofProgram program).outcome =
      .ok (generate (Scope.ofDeclarations program.declarations).1 program.body).program := by
  have found := found_errors program
  rw [clean, List.perm_nil] at found
  simp only [Compilation.ofProgram, found]

/-- A program without errors has code. -/
theorem ofProgram_ok (clean : program.semanticErrors = []) :
    ∃ code, (Compilation.ofProgram program).outcome = .ok code :=
  ⟨_, ofProgram_clean clean⟩

/-- The errors of a program stand where the names at fault do. -/
theorem semanticErrors_spans (program : Program) :
    program.semanticErrors.map SemanticError.span =
      (program.redeclared ++ program.undeclared).map Ident.span := by
  simp [Program.semanticErrors, Function.comp_def, SemanticError.duplicate,
    SemanticError.undeclared]

/-- The errors of a program stand at some of its names, in their order. -/
theorem semanticErrors_sublist (program : Program) :
    (program.semanticErrors.map SemanticError.span).Sublist (program.idents.map Ident.span) := by
  rw [semanticErrors_spans]
  exact (faulty_sublist program).map Ident.span

/-- A program whose faulty names are in order is reported with an error at each of them. -/
theorem ofProgram_error (faulty : program.semanticErrors ≠ [])
    (increasing : (program.redeclared ++ program.undeclared).Pairwise fun first second =>
      first.span.start < second.span.start) :
    (Compilation.ofProgram program).outcome =
      .error (program.semanticErrors.map .ofSemantic) := by
  have found := found_errors program
  have places : (program.semanticErrors.map SemanticError.span).Pairwise
      fun first second => first.start < second.start := by
    rw [semanticErrors_spans]
    exact List.pairwise_map.mpr increasing
  have ordered : (program.semanticErrors.map Diagnostic.ofSemantic).Pairwise
      fun first second => first.span.start < second.span.start := by
    rw [List.pairwise_map] at places ⊢
    exact places
  have sorted := mergeSort_increasing (found.map Diagnostic.ofSemantic) ordered
  simp only [Compilation.ofProgram]
  split
  · rename_i empty
    rw [empty, List.nil_perm] at found
    contradiction
  · rw [sorted]

end Outcome

/-- A source with tokens that can be read is compiled as the program that they spell. -/
theorem compile_program {source : String} {found : List Token} {program : Program}
    (cut : tokens source = .ok found) (read : Program.ofTokens found = .ok program) :
    compile source = (Compilation.ofProgram program).outcome := by
  obtain ⟨clean, rfl⟩ := tokens_ok.mp cut
  simp only [compile, Compilation.ofSource, Compilation.ofLexemes, clean]
  simp only [Compilation.after, Compilation.ofTokens, read]

/-- A source that can be read is compiled exactly if no name is declared again or used without a
declaration. Otherwise each name that is declared again is reported, and then the first undeclared
name of each statement and of each condition, all of them in the order of their places. -/
theorem compile_diagnostics {source : String} {found : List Token} {program : Program}
    (cut : tokens source = .ok found) (read : Program.ofTokens found = .ok program) :
    ((∃ code, compile source = .ok code) ↔ program.redeclared = [] ∧ program.undeclared = []) ∧
      (¬(program.redeclared = [] ∧ program.undeclared = []) →
        compile source = .error ((program.redeclared.map SemanticError.duplicate ++
          program.undeclared.map SemanticError.undeclared).map .ofSemantic)) ∧
      (program.redeclared ++ program.undeclared).Pairwise fun first second =>
        first.span.start < second.span.start := by
  have increasing := faulty_increasing cut read
  rw [compile_program cut read, ← Program.semanticErrors_nil]
  refine ⟨⟨?_, ofProgram_ok⟩, fun faulty => ofProgram_error faulty increasing, increasing⟩
  rintro ⟨code, compiled⟩
  by_contra faulty
  rw [ofProgram_error faulty increasing] at compiled
  cases compiled

/-- A name that is declared twice, and undeclared ones in a condition and below it. -/
theorem redeclaration_diagnostics :
    let source := "a,a:int;{if(q<1)y=a;else{}}"
    let found : List Token := [⟨.identifier "a", ⟨0, 1⟩⟩, ⟨.symbol .comma, ⟨1, 2⟩⟩,
      ⟨.identifier "a", ⟨2, 3⟩⟩, ⟨.symbol .colon, ⟨3, 4⟩⟩, ⟨.keyword .intWord, ⟨4, 7⟩⟩,
      ⟨.symbol .semicolon, ⟨7, 8⟩⟩, ⟨.symbol .openBrace, ⟨8, 9⟩⟩, ⟨.keyword .ifWord, ⟨9, 11⟩⟩,
      ⟨.symbol .openParen, ⟨11, 12⟩⟩, ⟨.identifier "q", ⟨12, 13⟩⟩, ⟨.symbol .lt, ⟨13, 14⟩⟩,
      ⟨.literal (.integer 1), ⟨14, 15⟩⟩, ⟨.symbol .closeParen, ⟨15, 16⟩⟩,
      ⟨.identifier "y", ⟨16, 17⟩⟩, ⟨.symbol .assign, ⟨17, 18⟩⟩, ⟨.identifier "a", ⟨18, 19⟩⟩,
      ⟨.symbol .semicolon, ⟨19, 20⟩⟩, ⟨.keyword .elseWord, ⟨20, 24⟩⟩,
      ⟨.symbol .openBrace, ⟨24, 25⟩⟩, ⟨.symbol .closeBrace, ⟨25, 26⟩⟩,
      ⟨.symbol .closeBrace, ⟨26, 27⟩⟩]
    let program : Program := ⟨[⟨[⟨"a", ⟨0, 1⟩⟩, ⟨"a", ⟨2, 3⟩⟩], .int⟩],
      [.branch (.relation .less (.identifier ⟨"q", ⟨12, 13⟩⟩) (.literal (.integer 1)))
        (.assign ⟨"y", ⟨16, 17⟩⟩ (.identifier ⟨"a", ⟨18, 19⟩⟩)) (.block [])]⟩
    tokens source = .ok found ∧ Program.ofTokens found = .ok program ∧
      compile source = .error ([⟨.duplicate "a", ⟨2, 3⟩⟩, ⟨.undeclared "q", ⟨12, 13⟩⟩,
        ⟨.undeclared "y", ⟨16, 17⟩⟩].map .ofSemantic) := by
  intro source found program
  have cut : tokens source = .ok found := tokens_ok.mpr (by decide +kernel)
  have read : Program.ofTokens found = .ok program := by cbv
  have again : program.redeclared = [⟨"a", ⟨2, 3⟩⟩] := by decide
  have missing : program.undeclared = [⟨"q", ⟨12, 13⟩⟩, ⟨"y", ⟨16, 17⟩⟩] := by decide
  have reported := (compile_diagnostics cut read).2.1 (by simp [again])
  rw [again, missing] at reported
  exact ⟨cut, read, reported⟩

end Cpl
