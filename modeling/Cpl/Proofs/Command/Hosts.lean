import Cpl.Command.Report
import Cpl.Proofs.Command.Paths

namespace Cpl

/-- A view shows the files in the states of a host, the one that a path names, and what was
printed. -/
structure View (State File : Type) where
  named : State → String → Option File
  content : State → File → Option ByteArray
  printed : State → String

namespace View
variable {State File : Type}

/-- A path names a file with the text. -/
def Holds (view : View State File) (state : State) (path text : String) : Prop :=
  ∃ file, view.named state path = some file ∧ view.content state file = some text.toUTF8

/-- A text was printed, and all files are as they were. -/
structure Prints (view : View State File) (text : String) (before after : State) : Prop where
  printed : view.printed after = view.printed before ++ text
  files : ∀ file, view.content after file = view.content before file

/-- One file has a new text, all others are as they were, and nothing was printed. -/
structure Replaces (view : View State File) (target : File) (text : String)
    (before after : State) : Prop where
  content : view.content after target = some text.toUTF8
  others : ∀ other, other ≠ target → view.content after other = view.content before other
  printed : view.printed after = view.printed before

end View

/-- Reading has no effect and gives the text of the file. Writing either fails and has no effect, or
replaces the file. Printing changes no file, and a text that is not printed whole is printed up to
some point. -/
structure Host.Faithful {State File : Type} (host : Host (StateM State)) (view : View State File) :
    Prop where
  read : ∀ path before, ∃ result, host.read path before = (result, before) ∧
    ∀ text, result = .ok text → view.Holds before path text
  write : ∀ path text before, (∃ fault, host.write path text before = (.error fault, before)) ∨
    ∃ file after, host.write path text before = (.ok (), after) ∧
      view.named before path = some file ∧ view.Replaces file text before after
  print : ∀ text before,
    (∃ fault taken after, host.print text before = (.error fault, after) ∧
      taken.toList <+: text.toList ∧ view.Prints taken before after) ∨
    ∃ after, host.print text before = (.ok (), after) ∧ view.Prints text before after

/-- Two steps succeed together when the first does and the second does with its result. -/
theorem except_bind_ok {Fault A B : Type} {first : Except Fault A} {next : A → Except Fault B}
    {result : B} :
    first >>= next = .ok result ↔ ∃ value, first = .ok value ∧ next value = .ok result := by
  cases first with
  | error fault => simp [bind, Except.bind]
  | ok value => simp [bind, Except.bind]

/-- Bytes are a text exactly if they are its encoding. -/
theorem decodeText_ok {content : ByteArray} {text : String} :
    decodeText content = .ok text ↔ content = text.toUTF8 := by
  constructor
  · intro decoded
    rw [decodeText] at decoded
    split at decoded
    · rename_i read isRead
      cases decoded
      rw [String.fromUTF8?] at isRead
      split at isRead
      · cases isRead
        rfl
      · cases isRead
    · cases decoded
  · intro encoded
    have valid : String.fromUTF8? content = some text := by
      rw [encoded, String.fromUTF8?]
      exact dif_pos text.isValidUTF8
    rw [decodeText, valid]

namespace FileTree

section Files
variable {tree changed : FileTree} {path : String} {content : ByteArray}

/-- A look-up finds the first file of a name. -/
theorem lookup_first (names other : List String) (content : ByteArray)
    (later : List (List String × ByteArray)) :
    ((names, content) :: later).lookup other =
      if other = names then some content else later.lookup other := by
  by_cases same : other = names
  · rw [if_pos same, same, List.lookup_cons_self]
  · rw [if_neg same, List.lookup_cons, beq_eq_false_iff_ne.mpr same]

/-- A file that is put in is found under its names, and all others as before. -/
theorem lookup_insert (tree : FileTree) (names : List String) (content : ByteArray)
    (other : List String) :
    (tree.insert names content).files.lookup other =
      if other = names then some content else tree.files.lookup other := by
  rw [insert]
  induction tree.files with
  | nil => rw [insert.go, lookup_first]
  | cons file later ih =>
      obtain ⟨path, old⟩ := file
      rw [insert.go]
      by_cases replaced : path = names
      · rw [if_pos replaced, lookup_first, lookup_first, replaced]
        by_cases same : other = names
        · rw [if_pos same, if_pos same]
        · rw [if_neg same, if_neg same, if_neg same]
      · rw [if_neg replaced, lookup_first, lookup_first, ih]
        by_cases same : other = path
        · rw [if_pos same, if_pos same, if_neg (same ▸ replaced)]
        · rw [if_neg same, if_neg same]

/-- Files are found inside of the tree only. -/
theorem entry_file {place : Place} (found : tree.entry place = .file content) :
    ∃ names, place = .inside names ∧ tree.files.lookup names = some content := by
  cases place with
  | outside => cases found
  | inside names =>
      rw [entry] at found
      split at found
      · rename_i old isOld
        cases found
        exact ⟨names, rfl, isOld⟩
      · split at found <;> cases found

/-- What is read is in the file that the path leads to. -/
theorem read_ok (done : tree.read path = .ok content) :
    ∃ names, tree.locate path = .ok (.inside names) ∧ tree.files.lookup names = some content := by
  obtain ⟨place, located, done⟩ := except_bind_ok.mp done
  split at done
  · rename_i old found
    cases done
    obtain ⟨names, rfl, isOld⟩ := entry_file found
    exact ⟨names, located, isOld⟩
  · cases done
  · cases done

/-- A file is written where the path leads to. -/
theorem write_ok (done : tree.write path content = .ok changed) :
    ∃ names, tree.locate path = .ok (.inside names) ∧ changed = tree.insert names content := by
  rw [write] at done
  generalize String.ofList (path.toList.reverse.dropWhile (· = '/')).reverse = trimmed at done
  obtain ⟨place, located, done⟩ := except_bind_ok.mp done
  by_cases whole : trimmed = path
  · rw [whole, ite_self] at located
    rw [if_neg (not_not_intro whole)] at done
    split at done
    · cases done
      exact ⟨_, located, rfl⟩
    · cases done
      exact ⟨_, located, rfl⟩
    · cases done
  · rw [if_pos whole] at done
    cases done

end Files

section Places
variable {tree : FileTree} {place reached : Place} {parents : List String} {name : String}

theorem walk_cons {part : String} {later : List String} :
    tree.walk place (part :: later) = tree.step place part >>= (tree.walk · later) :=
  List.foldlM_cons

/-- What one part of a path can do. -/
theorem step_ok {part : String} (stepped : tree.step place part = .ok reached) :
    (Path.isIdle part = true ∧ reached = place) ∨
    (part = ".." ∧ reached = place.parent) ∨
    (Path.isIdle part = false ∧ part ≠ ".." ∧
      ∃ names, place = .inside names ∧ reached = .inside (names ++ [part])) := by
  unfold step at stepped
  split at stepped
  · cases stepped
  · cases stepped
  · by_cases idle : Path.isIdle part = true
    · rw [if_pos idle] at stepped
      cases stepped
      exact .inl ⟨idle, rfl⟩
    · rw [if_neg idle] at stepped
      by_cases up : part = ".."
      · rw [if_pos up] at stepped
        cases stepped
        exact .inr (.inl ⟨up, rfl⟩)
      · rw [if_neg up] at stepped
        split at stepped
        · cases stepped
          exact .inr (.inr ⟨Bool.eq_false_iff.mpr idle, up, _, rfl, rfl⟩)
        · cases stepped

/-- Idle parts lead nowhere else. -/
theorem walk_idle {idle : List String} (still : ∀ part ∈ idle, Path.isIdle part = true)
    (walked : tree.walk place idle = .ok reached) : reached = place := by
  induction idle generalizing place with
  | nil =>
      cases walked
      rfl
  | cons part later ih =>
      obtain ⟨own, after⟩ := List.forall_mem_cons.mp still
      rw [walk_cons] at walked
      obtain ⟨middle, stepped, rest⟩ := except_bind_ok.mp walked
      rcases step_ok stepped with ⟨_, rfl⟩ | ⟨rfl, _⟩ | ⟨busy, _⟩
      · exact ih after rest
      · cases own
      · rw [own] at busy
        cases busy

/-- A walk that ends with a name and idle parts makes its last step with the name. -/
theorem walk_ends {parts : List String} {idle : List String}
    (still : ∀ part ∈ idle, Path.isIdle part = true)
    (walked : tree.walk place (parts ++ name :: idle) = .ok reached) :
    ∃ middle, tree.walk place parts = .ok middle ∧ tree.step middle name = .ok reached := by
  rw [walk, List.foldlM_append] at walked
  obtain ⟨middle, before, after⟩ := except_bind_ok.mp walked
  rw [← walk, walk_cons] at after
  obtain ⟨last, stepped, later⟩ := except_bind_ok.mp after
  cases walk_idle still later
  exact ⟨middle, before, stepped⟩

/-- A path leads to where its name leads from the place of its parents, which is the same for all
names. -/
theorem locate_ends (tree : FileTree) (parents : List String) :
    ∃ start : Except FileFault Place, ∀ path name reached, Path.Ends path parents name →
      tree.locate path = .ok reached →
        ∃ place, start = .ok place ∧ tree.step place name = .ok reached := by
  cases parents with
  | nil =>
      refine ⟨tree.walk (.inside []) [], ?_⟩
      intro path name reached ⟨busy, idle, still, parts⟩ located
      rw [locate, parts] at located
      split at located
      · rename_i empty
        cases empty
        cases busy
      · exact walk_ends still located
  | cons first later =>
      by_cases rooted : first = ""
      · refine ⟨tree.walk .outside later, ?_⟩
        intro path name reached ⟨busy, idle, still, parts⟩ located
        rw [locate, parts, rooted] at located
        exact walk_ends still located
      · refine ⟨tree.walk (.inside []) (first :: later), ?_⟩
        intro path name reached ⟨busy, idle, still, parts⟩ located
        rw [locate, parts] at located
        split at located
        · rename_i empty
          cases empty
          contradiction
        · exact walk_ends still located

/-- A place is not that of its parent's parent. -/
theorem parent_ne (names : List String) (name : String) :
    Place.inside (names ++ [name]) ≠ (Place.inside names).parent := by
  cases names with
  | nil => exact Place.noConfusion
  | cons first later =>
      intro same
      have lengths := congrArg List.length (Place.inside.inj same)
      rw [List.length_append, List.length_dropLast, List.length_singleton] at lengths
      omega

/-- In no tree does a path with another extension lead to the same place. -/
theorem locate_replaceExtension {path old new : String} (found : Path.extension? path = some old)
    (differs : old ≠ new) (plain : '/' ∉ new.toList) (located : tree.locate path = .ok reached) :
    tree.locate (Path.replaceExtension path new) ≠ .ok reached := by
  obtain ⟨parents, stem, name, ends, pointed, replaced, named⟩ :=
    Path.replaceExtension_ends found plain
  obtain ⟨start, leads⟩ := tree.locate_ends parents
  intro same
  obtain ⟨place, isStart, stepped⟩ := leads _ _ _ ends located
  obtain ⟨_, isStart', other⟩ := leads _ _ _ replaced same
  cases isStart.symm.trans isStart'
  rcases step_ok stepped with ⟨idle, _⟩ | ⟨up, _⟩ | ⟨_, _, names, rfl, rfl⟩
  · rw [ends.1] at idle
    cases idle
  · exact pointed.file up
  · rcases step_ok other with ⟨_, still⟩ | ⟨_, up⟩ | ⟨_, notUp, others, samePlace, reached⟩
    · have longer := Place.inside.inj still
      simp at longer
    · exact parent_ne names _ up
    · cases samePlace
      have sameName : stem ++ "." ++ old = name := by simpa using Place.inside.inj reached
      rcases named with rfl | ⟨_, isUp⟩
      · exact differs ((String.append_right_inj _).mp sameName)
      · exact notUp isUp

end Places

end FileTree

namespace Workspace

/-- The files of a workspace are named by the way to them. -/
def view : View Workspace (List String) where
  named workspace path :=
    match workspace.files.locate path with
    | .ok (.inside names) => some names
    | _ => none
  content workspace names := workspace.files.files.lookup names
  printed workspace := workspace.stdout.printed

/-- A path names the file that it leads to. -/
theorem view_named {workspace : Workspace} {path : String} {names : List String}
    (located : workspace.files.locate path = .ok (.inside names)) :
    view.named workspace path = some names := by
  simp only [view, located]

/-- A stream takes a beginning of each text, and the whole text when it finds no fault. -/
theorem print_taken (stream : Stream) (text : String) :
    ∃ taken, taken.toList <+: text.toList ∧
      (stream.print text).2.printed = stream.printed ++ taken ∧
      ((stream.print text).1 = .ok () → taken = text) := by
  obtain ⟨printed, room⟩ := stream
  cases room with
  | none => exact ⟨text, List.prefix_refl _, rfl, fun _ => rfl⟩
  | some room =>
      by_cases fits : text.length ≤ room
      · refine ⟨text, List.prefix_refl _, ?_, fun _ => rfl⟩
        simp only [Stream.print, if_pos fits]
      · refine ⟨String.ofList (text.toList.take room), ?_, ?_, ?_⟩
        · rw [String.toList_ofList]
          exact List.take_prefix room text.toList
        · simp only [Stream.print, if_neg fits]
        · simp only [Stream.print, if_neg fits]
          exact nofun

/-- Workspaces have no other effects than those that a host may have. -/
theorem host_faithful : host.Faithful view := by
  constructor
  · intro path before
    refine ⟨before.files.read path >>= decodeText, rfl, ?_⟩
    intro text done
    obtain ⟨content, found, decoded⟩ := except_bind_ok.mp done
    obtain ⟨names, located, isContent⟩ := FileTree.read_ok found
    exact ⟨names, view_named located, isContent.trans (congrArg some (decodeText_ok.mp decoded))⟩
  · intro path text before
    simp only [host]
    cases done : before.files.write path text.toUTF8 with
    | error fault => exact .inl ⟨fault, rfl⟩
    | ok after =>
        obtain ⟨names, located, rfl⟩ := FileTree.write_ok done
        refine .inr ⟨names, _, rfl, view_named located, ?_, ?_, rfl⟩
        · exact (FileTree.lookup_insert before.files names _ names).trans (if_pos rfl)
        · intro other differs
          exact (FileTree.lookup_insert before.files names _ other).trans (if_neg differs)
  · intro text before
    obtain ⟨taken, isPrefix, printed, whole⟩ := print_taken before.stdout text
    let after : Workspace := { before with stdout := (before.stdout.print text).2 }
    cases result : (before.stdout.print text).1 with
    | error fault =>
        have failed : host.print text before = (.error fault, after) := Prod.ext result rfl
        exact .inl ⟨fault, taken, after, failed, isPrefix, printed, fun _ => rfl⟩
    | ok done =>
        have succeeded : host.print text before = (.ok (), after) := Prod.ext result rfl
        rw [whole result] at printed
        exact .inr ⟨after, succeeded, printed, fun _ => rfl⟩

end Workspace

end Cpl
