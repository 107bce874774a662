import Cpl.Proofs.Command.Hosts
import Cpl.Proofs.Diagnostic.Semantic

namespace Cpl

open Report

variable {State File : Type}

/-- A file is read and compiled to the code. -/
def Host.Compiles (host : Host (StateM State)) (before : State) (file : String) (code : Listing) :
    Prop :=
  ∃ source, (host.read file before).1 = .ok source ∧ compile source = .ok code

/-- The standard output takes the whole code of a file. -/
def Host.Takes (host : Host (StateM State)) (before : State) (file : String) : Prop :=
  ∀ code, host.Compiles before file code → (host.print code.text before).1 = .ok ()

namespace Operation

/-- Each step of an operation succeeds. -/
def Succeeds (host : Host (StateM State)) (before : State) : Operation → Prop
  | check file => ∃ code, host.Compiles before file code
  | compile file ⟨_, true⟩ =>
      Path.extension? file = some sourceExtension ∧
        ∃ code, host.Compiles before file code ∧ (host.print code.text before).1 = .ok ()
  | compile file ⟨output, false⟩ =>
      Path.extension? file = some sourceExtension ∧
        ∃ code, host.Compiles before file code ∧
          (host.write (output.getD (Path.replaceExtension file targetExtension)) code.text before).1
            = .ok ()

/-- The code was to be printed, and only a beginning of it was. -/
def Interrupted (host : Host (StateM State)) (view : View State File) (before after : State) :
    Operation → Prop
  | check _ => False
  | compile _ ⟨_, false⟩ => False
  | compile file ⟨_, true⟩ =>
      ∃ code fault taken, host.Compiles before file code ∧
        host.print code.text before = (.error fault, after) ∧
        taken.toList <+: code.text.toList ∧ view.Prints taken before after

/-- Checking has no effect. Code that is printed changes no file. Other code replaces the file at
the path that is asked for, or else the one beside the source, with the text that would be
printed. -/
def Effect (host : Host (StateM State)) (view : View State File) (verbose : Nat)
    (before after : State) : Operation → Prop
  | check _ => after = before
  | compile file ⟨_, true⟩ => ∃ code, host.Compiles before file code ∧
      view.Prints code.text before after
  | compile file ⟨output, false⟩ => ∃ source code target,
      Path.extension? file = some sourceExtension ∧
      (host.read file before).1 = .ok source ∧ view.Holds before file source ∧
      Cpl.compile source = .ok code ∧
      view.named before (output.getD (Path.replaceExtension file targetExtension)) = some target ∧
      view.Replaces target code.text before after ∧
      ∀ printing printed,
        run host ⟨compile file ⟨none, true⟩, verbose⟩ before = (printing, printed) →
        printing.code = 0 → view.Prints code.text before printed

end Operation

/-- The code of a report says whether all steps succeeded. If they did not, no file is changed, and
nothing is printed unless printing is what failed. -/
structure Report.Honest (report : Report) (host : Host (StateM State)) (view : View State File)
    (verbose : Nat) (operation : Operation) (before after : State) : Prop where
  code : report.code = 0 ↔ operation.Succeeds host before
  done : report.code = 0 → operation.Effect host view verbose before after
  failed : report.code ≠ 0 → report.code = 1 ∧
    ∀ file, view.content after file = view.content before file
  silent : report.code ≠ 0 → after = before ∨ operation.Interrupted host view before after

section Compiling
variable {host : Host (StateM State)} {view : View State File} {before : State} {verbose : Nat}
  {file source : String} {code : Listing}

/-- A file that cannot be read is not compiled. -/
theorem compileFile_unreadable {fault : FileFault}
    (read : host.read file before = (.error fault, before)) :
    compileFile host verbose file before = (("", .error (.unreadable file fault)), before) := by
  simp only [compileFile, bind, StateT.bind, read]
  rfl

/-- The code of a source that was read is handed on. -/
theorem compileFile_compiled (read : host.read file before = (.ok source, before))
    (compiled : compile source = .ok code) :
    compileFile host verbose file before =
      (((Compilation.ofSource source).journal.shown verbose, .ok code), before) := by
  rw [compile] at compiled
  simp only [compileFile, bind, StateT.bind, read, compiled]
  rfl

/-- The errors of a source that was read are shown after the records. -/
theorem compileFile_rejected {errors : List Diagnostic}
    (read : host.read file before = (.ok source, before))
    (failed : compile source = .error errors) :
    compileFile host verbose file before =
      (((Compilation.ofSource source).journal.shown verbose ++ diagnosticsText errors source,
        .error (.rejected file errors.length)), before) := by
  rw [compile] at failed
  simp only [compileFile, bind, StateT.bind, read, failed]
  rfl

/-- A file is compiled to its code, or has none. -/
theorem compileFile_cases (faithful : host.Faithful view) (before : State) (verbose : Nat)
    (file : String) :
    (∃ shown code, host.Compiles before file code ∧
      compileFile host verbose file before = ((shown, .ok code), before)) ∨
    (∃ shown reason, (∀ code, ¬host.Compiles before file code) ∧
      compileFile host verbose file before = ((shown, .error reason), before)) := by
  obtain ⟨result, read, _⟩ := faithful.read file before
  cases result with
  | error fault =>
      right
      refine ⟨_, _, ?_, compileFile_unreadable read⟩
      intro code ⟨source, isRead, _⟩
      cases (congrArg Prod.fst read).symm.trans isRead
  | ok source =>
      cases compiled : compile source with
      | ok code =>
          left
          refine ⟨_, _, ⟨source, ?_, compiled⟩, compileFile_compiled read compiled⟩
          exact congrArg Prod.fst read
      | error errors =>
          right
          refine ⟨_, _, ?_, compileFile_rejected read compiled⟩
          intro code ⟨other, isRead, isCompiled⟩
          cases (congrArg Prod.fst read).symm.trans isRead
          cases compiled.symm.trans isCompiled

/-- A file has one code only. -/
theorem Host.Compiles.unique {other : Listing} (compiles : host.Compiles before file code)
    (otherwise : host.Compiles before file other) : code = other := by
  obtain ⟨source, read, compiled⟩ := compiles
  obtain ⟨twin, readTwin, compiledTwin⟩ := otherwise
  cases read.symm.trans readTwin
  cases compiled.symm.trans compiledTwin
  rfl

/-- A file that compiles holds the source of its code. -/
theorem Host.Compiles.holds (faithful : host.Faithful view)
    (compiles : host.Compiles before file code) :
    ∃ source, (host.read file before).1 = .ok source ∧ view.Holds before file source ∧
      compile source = .ok code := by
  obtain ⟨source, isRead, compiled⟩ := compiles
  obtain ⟨result, read, holds⟩ := faithful.read file before
  refine ⟨source, isRead, holds source ?_, compiled⟩
  rwa [read] at isRead

/-- Only a source that compiles is printed or written. -/
theorem Operation.Succeeds.compiles {options : OutputOptions}
    (done : (Operation.compile file options).Succeeds host before) :
    Path.extension? file = some sourceExtension ∧ ∃ code, host.Compiles before file code := by
  obtain ⟨output, stdout⟩ := options
  cases stdout <;>
  · obtain ⟨expected, code, compiles, _⟩ := done
    exact ⟨expected, code, compiles⟩

end Compiling

section Running
variable {host : Host (StateM State)} {before after : State} {verbose : Nat}
  {file shown : String} {options : OutputOptions} {output : Option String} {reason : RunError}
  {fault : FileFault} {code : Listing}

/-- A check fails with the compilation. -/
theorem run_check_failed
    (failed : compileFile host verbose file before = ((shown, .error reason), before)) :
    run host ⟨.check file, verbose⟩ before = (failure shown reason, before) := by
  simp only [run, bind, StateT.bind, failed]
  rfl

/-- A check succeeds with the compilation. -/
theorem run_check_done
    (compiled : compileFile host verbose file before = ((shown, .ok code), before)) :
    ∃ told, run host ⟨.check file, verbose⟩ before = (success told, before) := by
  simp only [run, bind, StateT.bind, compiled]
  exact ⟨_, rfl⟩

/-- A file of another kind is not read. -/
theorem run_compile_refused (other : Path.extension? file ≠ some sourceExtension) :
    run host ⟨.compile file options, verbose⟩ before =
      (failure "" (.wrongExtension file), before) := by
  simp only [run, if_pos other]
  rfl

/-- Without code nothing is printed or written. -/
theorem run_compile_failed (expected : Path.extension? file = some sourceExtension)
    (failed : compileFile host verbose file before = ((shown, .error reason), before)) :
    run host ⟨.compile file options, verbose⟩ before = (failure shown reason, before) := by
  simp only [run, if_neg (not_not_intro expected), bind, StateT.bind, failed]
  rfl

/-- The fault of the standard output is the reason of the failure. -/
theorem run_stdout_failed (expected : Path.extension? file = some sourceExtension)
    (compiled : compileFile host verbose file before = ((shown, .ok code), before))
    (failed : host.print code.text before = (.error fault, after)) :
    run host ⟨.compile file ⟨output, true⟩, verbose⟩ before =
      (failure shown (.unprintable fault), after) := by
  simp only [run, if_neg (not_not_intro expected), bind, StateT.bind, compiled,
    OutputOptions.destination, if_true, failed]
  rfl

/-- Code that was printed is not written. -/
theorem run_stdout_done (expected : Path.extension? file = some sourceExtension)
    (compiled : compileFile host verbose file before = ((shown, .ok code), before))
    (printed : host.print code.text before = (.ok (), after)) :
    run host ⟨.compile file ⟨output, true⟩, verbose⟩ before = (success shown, after) := by
  simp only [run, if_neg (not_not_intro expected), bind, StateT.bind, compiled,
    OutputOptions.destination, if_true, printed]
  rfl

/-- The fault of the file at the destination is the reason of the failure. -/
theorem run_file_failed (expected : Path.extension? file = some sourceExtension)
    (compiled : compileFile host verbose file before = ((shown, .ok code), before))
    (failed : host.write (output.getD (Path.replaceExtension file targetExtension)) code.text before
      = (.error fault, after)) :
    ∃ path, run host ⟨.compile file ⟨output, false⟩, verbose⟩ before =
      (failure shown (.unwritable path fault), after) := by
  simp only [run, if_neg (not_not_intro expected), bind, StateT.bind, compiled,
    OutputOptions.destination, Bool.false_eq_true, if_false, failed]
  exact ⟨_, rfl⟩

/-- Code that is not printed is written to the destination. -/
theorem run_file_done (expected : Path.extension? file = some sourceExtension)
    (compiled : compileFile host verbose file before = ((shown, .ok code), before))
    (written : host.write (output.getD (Path.replaceExtension file targetExtension)) code.text before
      = (.ok (), after)) :
    ∃ told, run host ⟨.compile file ⟨output, false⟩, verbose⟩ before = (success told, after) := by
  simp only [run, if_neg (not_not_intro expected), bind, StateT.bind, compiled,
    OutputOptions.destination, Bool.false_eq_true, if_false, written]
  exact ⟨_, rfl⟩

end Running

section Honesty
variable {host : Host (StateM State)} {view : View State File} {verbose : Nat}
  {operation : Operation} {before after : State} {shown : String} {reason : RunError}

/-- A success is honest about an operation whose steps succeed. -/
theorem success_honest (done : operation.Succeeds host before)
    (effect : operation.Effect host view verbose before after) :
    (success shown).Honest host view verbose operation before after where
  code := ⟨fun _ => done, fun _ => rfl⟩
  done _ := effect
  failed wrong := absurd rfl wrong
  silent wrong := absurd rfl wrong

/-- A failure that changes nothing is honest about an operation that does not succeed. -/
theorem failure_honest (failed : ¬operation.Succeeds host before) :
    (failure shown reason).Honest host view verbose operation before before where
  code := ⟨fun zero => absurd zero Nat.one_ne_zero, fun done => absurd done failed⟩
  done zero := absurd zero Nat.one_ne_zero
  failed _ := ⟨rfl, fun _ => rfl⟩
  silent _ := .inl rfl

/-- A failure to print is honest, whatever was printed of the code. -/
theorem interrupted_honest {file : String} {output : Option String} {code : Listing}
    {fault : FileFault} {taken : String} (compiles : host.Compiles before file code)
    (failed : host.print code.text before = (.error fault, after))
    (beginning : taken.toList <+: code.text.toList) (prints : view.Prints taken before after) :
    (failure shown reason).Honest host view verbose (.compile file ⟨output, true⟩) before
      after where
  code := by
    refine ⟨fun zero => absurd zero Nat.one_ne_zero, ?_⟩
    intro ⟨_, other, compilesOther, printed⟩
    rw [← compiles.unique compilesOther, failed] at printed
    cases printed
  done zero := absurd zero Nat.one_ne_zero
  failed _ := ⟨rfl, prints.files⟩
  silent _ := .inr ⟨code, fault, taken, compiles, failed, beginning, prints⟩

end Honesty

section Operations
variable {host : Host (StateM State)} {view : View State File}

/-- Checks end with an honest report. -/
theorem run_check (faithful : host.Faithful view) (before : State) (verbose : Nat)
    (file : String) :
    ∃ report after, run host ⟨.check file, verbose⟩ before = (report, after) ∧
      report.Honest host view verbose (.check file) before after := by
  rcases compileFile_cases faithful before verbose file with
    ⟨shown, code, compiles, compiled⟩ | ⟨shown, reason, never, failed⟩
  · obtain ⟨told, done⟩ := run_check_done compiled
    exact ⟨_, before, done, success_honest ⟨code, compiles⟩ rfl⟩
  · refine ⟨_, before, run_check_failed failed, failure_honest ?_⟩
    intro ⟨code, compiles⟩
    exact never code compiles

/-- Without code a run fails and changes nothing. Otherwise there is code to print or to write. -/
theorem run_compile_cases (faithful : host.Faithful view) (before : State) (verbose : Nat)
    (file : String) (options : OutputOptions) :
    (∃ shown reason,
      run host ⟨.compile file options, verbose⟩ before = (failure shown reason, before) ∧
      ¬(Operation.compile file options).Succeeds host before) ∨
    (Path.extension? file = some sourceExtension ∧ ∃ shown code, host.Compiles before file code ∧
      compileFile host verbose file before = ((shown, .ok code), before)) := by
  by_cases expected : Path.extension? file = some sourceExtension
  · rcases compileFile_cases faithful before verbose file with
      ⟨shown, code, compiles, compiled⟩ | ⟨shown, reason, never, failed⟩
    · exact .inr ⟨expected, shown, code, compiles, compiled⟩
    · refine .inl ⟨shown, reason, run_compile_failed expected failed, ?_⟩
      intro done
      obtain ⟨_, code, compiles⟩ := done.compiles
      exact never code compiles
  · refine .inl ⟨_, _, run_compile_refused expected, ?_⟩
    intro done
    exact expected done.compiles.1

/-- Printing ends with an honest report. -/
theorem run_stdout (faithful : host.Faithful view) (before : State) (verbose : Nat)
    (file : String) (output : Option String) :
    ∃ report after,
      run host ⟨.compile file ⟨output, true⟩, verbose⟩ before = (report, after) ∧
      report.Honest host view verbose (.compile file ⟨output, true⟩) before after := by
  rcases run_compile_cases faithful before verbose file ⟨output, true⟩ with
    ⟨_, _, failed, never⟩ | ⟨expected, shown, code, compiles, compiled⟩
  · exact ⟨_, before, failed, failure_honest never⟩
  · rcases faithful.print code.text before with
      ⟨fault, taken, after, failed, beginning, prints⟩ | ⟨after, printed, prints⟩
    · exact ⟨_, after, run_stdout_failed expected compiled failed,
        interrupted_honest compiles failed beginning prints⟩
    · have succeeds : (host.print code.text before).1 = .ok () := congrArg Prod.fst printed
      exact ⟨_, after, run_stdout_done expected compiled printed,
        success_honest ⟨expected, code, compiles, succeeds⟩ ⟨code, compiles, prints⟩⟩

/-- Code that is printed to the end is the code of the file. -/
theorem run_stdout_text (faithful : host.Faithful view) {before after : State} {verbose : Nat}
    {file : String} {code : Listing} {output : Option String} {report : Report}
    (compiles : host.Compiles before file code)
    (ran : run host ⟨.compile file ⟨output, true⟩, verbose⟩ before = (report, after))
    (zero : report.code = 0) : view.Prints code.text before after := by
  obtain ⟨_, _, same, honest⟩ := run_stdout faithful before verbose file output
  cases ran.symm.trans same
  obtain ⟨other, compilesOther, prints⟩ := honest.done zero
  rw [compiles.unique compilesOther]
  exact prints

/-- Writing to a file ends with an honest report. -/
theorem run_file (faithful : host.Faithful view) (before : State) (verbose : Nat)
    (file : String) (output : Option String) :
    ∃ report after,
      run host ⟨.compile file ⟨output, false⟩, verbose⟩ before = (report, after) ∧
      report.Honest host view verbose (.compile file ⟨output, false⟩) before after := by
  rcases run_compile_cases faithful before verbose file ⟨output, false⟩ with
    ⟨_, _, failed, never⟩ | ⟨expected, shown, code, compiles, compiled⟩
  · exact ⟨_, before, failed, failure_honest never⟩
  · rcases faithful.write _ code.text before with
      ⟨fault, failed⟩ | ⟨target, after, written, named, replaces⟩
    · obtain ⟨path, done⟩ := run_file_failed expected compiled failed
      refine ⟨_, before, done, failure_honest ?_⟩
      intro ⟨_, other, compilesOther, writes⟩
      rw [← compiles.unique compilesOther, failed] at writes
      cases writes
    · obtain ⟨told, done⟩ := run_file_done expected compiled written
      obtain ⟨source, isRead, holds, isCompiled⟩ := compiles.holds faithful
      refine ⟨_, after, done, success_honest ?_ ?_⟩
      · exact ⟨expected, code, compiles, congrArg Prod.fst written⟩
      · refine ⟨source, code, target, expected, isRead, holds, isCompiled, named, replaces, ?_⟩
        intro printing printed ran zero
        exact run_stdout_text faithful compiles ran zero

/-- Every operation ends with an honest report. -/
theorem run_honest (faithful : host.Faithful view) (before : State) (verbose : Nat)
    (operation : Operation) :
    ∃ report after, run host ⟨operation, verbose⟩ before = (report, after) ∧
      report.Honest host view verbose operation before after := by
  cases operation with
  | check file => exact run_check faithful before verbose file
  | compile file options =>
      obtain ⟨output, stdout⟩ := options
      cases stdout with
      | true => exact run_stdout faithful before verbose file output
      | false => exact run_file faithful before verbose file output

/-- Where the standard output takes the code, a file can be checked when it can be printed. -/
theorem run_check_taken (faithful : host.Faithful view) {before : State} {file : String}
    (verbose : Nat) (output : Option String)
    (expected : Path.extension? file = some sourceExtension) (takes : host.Takes before file) :
    (run host ⟨.check file, verbose⟩ before).1.code = 0 ↔
      (run host ⟨.compile file ⟨output, true⟩, verbose⟩ before).1.code = 0 := by
  obtain ⟨checked, _, ranCheck, honestCheck⟩ := run_check faithful before verbose file
  obtain ⟨printing, _, ranPrint, honestPrint⟩ := run_stdout faithful before verbose file output
  rw [ranCheck, ranPrint, honestCheck.code, honestPrint.code]
  constructor
  · intro ⟨code, compiles⟩
    exact ⟨expected, code, compiles, takes code compiles⟩
  · intro ⟨_, code, compiles, _⟩
    exact ⟨code, compiles⟩

/-- Where the standard output does not take the code, only the check succeeds. -/
theorem run_check_untaken (faithful : host.Faithful view) {before : State} {file : String}
    (verbose : Nat) (output : Option String) (leaves : ¬host.Takes before file) :
    (run host ⟨.check file, verbose⟩ before).1.code = 0 ∧
      (run host ⟨.compile file ⟨output, true⟩, verbose⟩ before).1.code = 1 := by
  obtain ⟨checked, _, ranCheck, honestCheck⟩ := run_check faithful before verbose file
  obtain ⟨printing, _, ranPrint, honestPrint⟩ := run_stdout faithful before verbose file output
  simp only [Host.Takes, not_forall] at leaves
  obtain ⟨code, compiles, fault⟩ := leaves
  rw [ranCheck, ranPrint, honestCheck.code]
  refine ⟨⟨code, compiles⟩, (honestPrint.failed ?_).1⟩
  rw [Ne, honestPrint.code]
  intro ⟨_, other, compilesOther, printed⟩
  rw [← compiles.unique compilesOther] at printed
  exact fault printed

/-- A file that cannot be checked cannot be printed, and the reports are the same. -/
theorem run_check_report (faithful : host.Faithful view) {before : State} {file : String}
    (verbose : Nat) (output : Option String)
    (expected : Path.extension? file = some sourceExtension)
    (wrong : (run host ⟨.check file, verbose⟩ before).1.code ≠ 0) :
    (run host ⟨.check file, verbose⟩ before).1 =
      (run host ⟨.compile file ⟨output, true⟩, verbose⟩ before).1 := by
  rcases compileFile_cases faithful before verbose file with
    ⟨shown, code, _, compiled⟩ | ⟨shown, reason, _, failed⟩
  · obtain ⟨told, done⟩ := run_check_done compiled
    rw [done] at wrong
    exact absurd rfl wrong
  · rw [run_check_failed failed, run_compile_failed expected failed]

/-- The errors of a source are shown when it is checked. -/
theorem run_check_rejected (faithful : host.Faithful view) {before : State} {verbose : Nat}
    {file source : String} {errors : List Diagnostic}
    (isRead : (host.read file before).1 = .ok source) (failed : compile source = .error errors) :
    ∃ log, (run host ⟨.check file, verbose⟩ before).1.stderr =
      log ++ diagnosticsText errors source ++
        "Error: " ++ (RunError.rejected file errors.length).message ++ "\n" := by
  obtain ⟨result, read, _⟩ := faithful.read file before
  rw [read] at isRead
  cases isRead
  rw [run_check_failed (compileFile_rejected read failed)]
  exact ⟨_, rfl⟩

end Operations

/-- There is no slash in the extension of compiled files. -/
theorem target_plain : '/' ∉ targetExtension.toList := by decide

/-- Sources and compiled files have different extensions. -/
theorem source_target : sourceExtension ≠ targetExtension := by decide

end Cpl
