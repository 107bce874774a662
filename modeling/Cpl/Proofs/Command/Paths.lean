import Cpl.Command.Path
import Mathlib.Data.List.TakeWhile

namespace Cpl.Path

section Parts

/-- Parts are cut at slashes, with the characters that were read before in front. -/
theorem split_go (text read : List Char) :
    split.go read text = (text.splitOnPPrepend (· == '/') read).map String.ofList := by
  fun_induction split.go read text with
  | case1 read => rfl
  | case2 read rest ih =>
      rw [ih, List.splitOnPPrepend_cons_pos (by rfl)]
      rfl
  | case3 read character rest other ih =>
      have isOther : (character == '/') = false := beq_eq_false_iff_ne.mpr other
      rw [ih, List.splitOnPPrepend_cons_neg (p := (· == '/')) isOther]

/-- The parts of a path are what stands between its slashes. -/
theorem split_eq (path : String) :
    split path = (path.toList.splitOn '/').map String.ofList :=
  split_go path.toList []

/-- The parts of a path make up the path. -/
theorem join_split (path : String) : join (split path) = path := by
  apply String.toList_injective
  rw [join, String.toList_intercalate, split_eq, List.map_map]
  have same : String.toList ∘ String.ofList = id := funext fun _ => String.toList_ofList
  rw [same, List.map_id]
  exact List.intercalate_splitOn '/'

/-- Parts without slashes are found again in the path that they make up. -/
theorem split_join {parts : List String} (some : parts ≠ [])
    (plain : ∀ part ∈ parts, '/' ∉ part.toList) : split (join parts) = parts := by
  have cut : List.splitOn '/' (join parts).toList = parts.map String.toList := by
    rw [join, String.toList_intercalate]
    apply List.splitOn_intercalate '/'
    · exact List.forall_mem_map.mpr plain
    · exact fun empty => some (List.map_eq_nil_iff.mp empty)
  rw [split_eq, cut, List.map_map]
  have same : String.ofList ∘ String.toList = id := funext fun _ => String.ofList_toList
  rw [same, List.map_id]

/-- There are no slashes in the parts. -/
theorem split_plain (path : String) : ∀ part ∈ split path, '/' ∉ part.toList := by
  have inside (read text : List Char) (plain : '/' ∉ read) :
      ∀ part ∈ split.go read text, '/' ∉ part.toList := by
    fun_induction split.go read text with
    | case1 read =>
        rw [List.forall_mem_singleton, String.toList_ofList, List.mem_reverse]
        exact plain
    | case2 read rest ih =>
        rw [List.forall_mem_cons, String.toList_ofList, List.mem_reverse]
        exact ⟨plain, ih List.not_mem_nil⟩
    | case3 read character rest other ih =>
        apply ih
        rw [List.mem_cons, not_or]
        exact ⟨Ne.symm other, plain⟩
  exact inside [] path.toList List.not_mem_nil

/-- Only an empty part and a single point are idle. -/
theorem isIdle_iff {part : String} : isIdle part = true ↔ part = "" ∨ part = "." := by
  simp [isIdle]

/-- The characters of idle parts, with a slash before each. -/
def tail (idle : List String) : List Char := idle.flatMap fun part => '/' :: part.toList

/-- The characters of a path are those of its parents, its name and the idle parts after it. -/
theorem toList_join (parents : List String) (name : String) (idle : List String) :
    (join (parents ++ name :: idle)).toList =
      parents.flatMap (fun part => part.toList ++ ['/']) ++ (name.toList ++ tail idle) := by
  rw [join, String.toList_intercalate]
  induction parents with
  | nil =>
      induction idle generalizing name with
      | nil => simp [tail]
      | cons part later ih =>
          have shown := ih part
          simp only [List.nil_append, List.map_cons, List.flatMap_nil] at shown ⊢
          rw [List.intercalate_cons_cons, shown]
          simp [tail]
  | cons part later ih =>
      have more : (later ++ name :: idle).map String.toList ≠ [] := by simp
      rw [List.cons_append, List.map_cons, List.intercalate_cons_of_ne_nil more, ih]
      simp

/-- What is left of idle parts when characters are taken from their end is idle. -/
theorem tail_take {idle : List String} (still : ∀ part ∈ idle, isIdle part = true) (count : Nat) :
    ∃ others, (∀ part ∈ others, isIdle part = true) ∧ (tail idle).take count = tail others := by
  induction idle generalizing count with
  | nil => exact ⟨[], by simp, by simp [tail]⟩
  | cons part later ih =>
      obtain ⟨own, after⟩ := List.forall_mem_cons.mp still
      cases count with
      | zero => exact ⟨[], by simp, rfl⟩
      | succ count =>
          rcases isIdle_iff.mp own with rfl | rfl
          · obtain ⟨others, stillIdle, same⟩ := ih after count
            refine ⟨"" :: others, List.forall_mem_cons.mpr ⟨own, stillIdle⟩, ?_⟩
            show '/' :: (tail later).take count = '/' :: tail others
            rw [same]
          · cases count with
            | zero => exact ⟨[""], by simp [isIdle], rfl⟩
            | succ count =>
                obtain ⟨others, stillIdle, same⟩ := ih after count
                refine ⟨"." :: others, List.forall_mem_cons.mpr ⟨own, stillIdle⟩, ?_⟩
                show '/' :: '.' :: (tail later).take count = '/' :: '.' :: tail others
                rw [same]

end Parts

section Names

/-- A path whose last part that is not idle is a name. -/
def Ends (path : String) (parents : List String) (name : String) : Prop :=
  isIdle name = false ∧
    ∃ idle, (∀ part ∈ idle, isIdle part = true) ∧ split path = parents ++ name :: idle

/-- A name that has an extension. -/
structure Pointed (stem extension : String) : Prop where
  some : stem ≠ ""
  last : '.' ∉ extension.toList
  file : stem ++ "." ++ extension ≠ ".."

variable {path name stem extension : String} {parents : List String}

/-- A name with a stem and a point is not idle. -/
theorem pointed_busy (some : stem ≠ "") : isIdle (stem ++ "." ++ extension) = false := by
  rw [Bool.eq_false_iff]
  intro idle
  rcases isIdle_iff.mp idle with empty | single
  · have characters := congrArg String.toList empty
    simp at characters
  · have characters := congrArg String.toList single
    simp only [String.toList_append, String.reduceToList, List.append_assoc,
      List.append_eq_singleton_iff, List.cons_append, List.cons_ne_nil, and_false, or_false,
      String.toList_eq_nil_iff] at characters
    exact some characters.1

/-- The parent directory would have a point as its stem. -/
theorem pointed_parent (some : stem ≠ "") (parent : stem ++ "." ++ extension = "..") :
    stem = "." := by
  have characters := congrArg String.toList parent
  rw [String.toList_append, String.toList_append, List.append_assoc] at characters
  cases start : stem.toList with
  | nil => exact absurd (String.toList_eq_nil_iff.mp start) some
  | cons first later =>
      rw [start, List.cons_append] at characters
      obtain ⟨rfl, others⟩ := List.cons.inj characters
      have nothing : later = [] := by
        cases later with
        | nil => rfl
        | cons second rest => simp at others
      apply String.toList_injective
      rw [start, nothing]
      rfl

/-- The last part that is not idle is the name that a path ends with. -/
theorem significant_cons : significant path = name :: parents.reverse ↔ Ends path parents name := by
  constructor
  · intro found
    have divided := List.takeWhile_append_dropWhile (p := isIdle) (l := (split path).reverse)
    rw [significant] at found
    refine ⟨?_, ((split path).reverse.takeWhile isIdle).reverse, ?_, ?_⟩
    · have busy := List.head_dropWhile_not isIdle (by rw [found]; exact List.cons_ne_nil _ _)
      simpa only [found, List.head_cons] using busy
    · intro part member
      exact List.mem_takeWhile_imp (List.mem_reverse.mp member)
    · rw [found] at divided
      have parts := congrArg List.reverse divided
      simpa using parts.symm
  · intro ⟨busy, idle, still, parts⟩
    have stillReverse : ∀ part ∈ idle.reverse, isIdle part = true := by
      intro part member
      exact still part (List.mem_reverse.mp member)
    rw [significant, parts, List.reverse_append, List.reverse_cons, List.append_assoc,
      List.dropWhile_append_of_pos stillReverse, List.singleton_append,
      List.dropWhile_cons_of_neg (by simp [busy])]

/-- A name is cut at the last point, with a stem before it. -/
theorem cutName?_some (cut : cutName? name = some (stem, some extension)) :
    name = stem ++ "." ++ extension ∧ Pointed stem extension := by
  unfold cutName? at cut
  split at cut
  · cases cut
  · rename_i other
    dsimp only at cut
    have divided := List.takeWhile_append_dropWhile (p := (· ≠ '.')) (l := name.toList.reverse)
    split at cut
    · cases cut
    · cases cut
    · rename_i point before single found
      cases cut
      have ended := List.head_dropWhile_not (· ≠ '.') (by rw [found]; exact List.cons_ne_nil _ _)
      simp only [found, List.head_cons] at ended
      have isPoint : point = '.' := by simpa using ended
      subst isPoint
      rw [found] at divided
      have whole : name = String.ofList before.reverse ++ "." ++
          String.ofList (name.toList.reverse.takeWhile (· ≠ '.')).reverse := by
        apply String.toList_injective
        have characters := congrArg List.reverse divided
        simpa using characters.symm
      refine ⟨whole, ?_, ?_, whole ▸ other⟩
      · intro empty
        have nothing := congrArg String.toList empty
        rw [String.toList_ofList] at nothing
        exact single rfl (List.reverse_eq_nil_iff.mp nothing)
      · intro member
        rw [String.toList_ofList, List.mem_reverse] at member
        have differs := List.mem_takeWhile_imp member
        simp at differs

/-- A name with an extension is cut into its stem and the extension. -/
theorem cutName?_point (pointed : Pointed stem extension) :
    cutName? (stem ++ "." ++ extension) = some (stem, some extension) := by
  have reversed : (stem ++ "." ++ extension).toList.reverse =
      extension.toList.reverse ++ '.' :: stem.toList.reverse := by
    simp
  have differs : ∀ character ∈ extension.toList.reverse, decide (character ≠ '.') = true := by
    intro character member
    rw [decide_eq_true_eq]
    intro isPoint
    exact pointed.last (isPoint ▸ List.mem_reverse.mp member)
  have first : (extension.toList.reverse ++ '.' :: stem.toList.reverse).takeWhile (· ≠ '.') =
      extension.toList.reverse := by
    rw [List.takeWhile_append_of_pos differs, List.takeWhile_cons_of_neg (by decide),
      List.append_nil]
  have second : (extension.toList.reverse ++ '.' :: stem.toList.reverse).dropWhile (· ≠ '.') =
      '.' :: stem.toList.reverse := by
    rw [List.dropWhile_append_of_pos differs, List.dropWhile_cons_of_neg (by decide)]
  rw [cutName?, if_neg pointed.file]
  dsimp only
  rw [reversed, first, second]
  split
  · rename_i empty
    cases empty
  · rename_i single
    have nothing := List.reverse_eq_nil_iff.mp (List.cons.inj single).2
    exact absurd (String.toList_eq_nil_iff.mp nothing) pointed.some
  · rename_i found
    cases found
    simp

/-- A path with an extension ends with a name that has it. -/
theorem extension?_some (found : extension? path = some extension) :
    ∃ parents stem, Ends path parents (stem ++ "." ++ extension) ∧ Pointed stem extension := by
  rw [extension?] at found
  obtain ⟨name, isLast, found⟩ := Option.bind_eq_some_iff.mp found
  obtain ⟨⟨stem, after⟩, cut, rfl⟩ := Option.bind_eq_some_iff.mp found
  obtain ⟨rfl, pointed⟩ := cutName?_some cut
  obtain ⟨later, parts⟩ := List.head?_eq_some_iff.mp isLast
  rw [← List.reverse_reverse later] at parts
  exact ⟨later.reverse, stem, significant_cons.mp parts, pointed⟩

end Names

section Replacing
variable {path stem old new : String} {parents : List String}

/-- Parents, a name and idle parts make up a path that ends with the name. -/
theorem join_ends {name : String} {idle : List String} (busy : isIdle name = false)
    (still : ∀ part ∈ idle, isIdle part = true) (plain : ∀ part ∈ parents, '/' ∉ part.toList)
    (own : '/' ∉ name.toList) : Ends (join (parents ++ name :: idle)) parents name := by
  refine ⟨busy, idle, still, split_join (by simp) ?_⟩
  rw [List.forall_mem_append, List.forall_mem_cons]
  refine ⟨plain, own, ?_⟩
  intro part member
  rcases isIdle_iff.mp (still part member) with rfl | rfl <;> decide

/-- There are no slashes in the parents and in the name. -/
theorem Ends.plain {name : String} (ends : Ends path parents name) :
    (∀ part ∈ parents, '/' ∉ part.toList) ∧ '/' ∉ name.toList := by
  obtain ⟨_, idle, _, parts⟩ := ends
  have plain := split_plain path
  rw [parts, List.forall_mem_append, List.forall_mem_cons] at plain
  exact ⟨plain.1, plain.2.1⟩

/-- A name with an extension keeps its stem when the extension is changed. -/
theorem setExtension_pointed (ends : Ends path parents (stem ++ "." ++ old))
    (pointed : Pointed stem old) :
    setExtension path new = join (parents ++ [stem ++ "." ++ new]) := by
  rw [setExtension, significant_cons.mpr ends]
  dsimp only
  rw [cutName?_point pointed]
  dsimp only
  rw [List.reverse_reverse]

/-- The name of the parent directory has no extension to be changed. -/
theorem setExtension_parent (ends : Ends path parents "..") : setExtension path new = path := by
  rw [setExtension, significant_cons.mpr ends]
  rfl

/-- Taking as many characters from the end as the extension has takes them from the idle parts first
and then from the extension, so that the stem and the point stay. -/
theorem ends_take (ends : Ends path parents (stem ++ "." ++ old)) (pointed : Pointed stem old) :
    ∃ kept, '.' ∉ kept.toList ∧
      Ends (String.ofList (path.toList.take (path.length - old.length))) parents
        (stem ++ "." ++ kept) := by
  obtain ⟨plain, own⟩ := ends.plain
  obtain ⟨_, idle, still, parts⟩ := ends
  obtain ⟨front, isFront⟩ : ∃ front, front =
    parents.flatMap (fun part => part.toList ++ ['/']) ++ (stem.toList ++ ['.']) := ⟨_, rfl⟩
  let kept := String.ofList (old.toList.take (tail idle).length)
  have keptOld : ∀ character ∈ kept.toList, character ∈ old.toList := by
    intro character member
    rw [String.toList_ofList] at member
    exact List.mem_of_mem_take member
  obtain ⟨others, stillOthers, taken⟩ := tail_take still ((tail idle).length - old.length)
  have whole : path.toList = front ++ (old.toList ++ tail idle) := by
    have joined := toList_join parents (stem ++ "." ++ old) idle
    rw [← parts, join_split] at joined
    simpa [isFront] using joined
  have count : path.length - old.length = front.length + (tail idle).length := by
    have lengths := congrArg List.length whole
    rw [List.length_append, List.length_append, String.length_toList, String.length_toList]
      at lengths
    omega
  have shorter : String.ofList (path.toList.take (path.length - old.length)) =
      join (parents ++ (stem ++ "." ++ kept) :: others) := by
    apply String.toList_injective
    rw [toList_join, String.toList_ofList, count, whole, List.take_length_add_append,
      List.take_append, String.length_toList, taken]
    simp [isFront, kept]
  refine ⟨kept, fun member => pointed.last (keptOld _ member), ?_⟩
  rw [shorter]
  apply join_ends (pointed_busy pointed.some) stillOthers plain
  simp only [String.toList_append, List.mem_append, not_or] at own ⊢
  exact ⟨own.1, fun member => own.2 (keptOld _ member)⟩

/-- A path with another extension leads to a name beside the old one. There is one name that loses
its extension instead, and is then that of the parent directory. -/
theorem replaceExtension_ends (found : extension? path = some old) (plain : '/' ∉ new.toList) :
    ∃ parents stem name, Ends path parents (stem ++ "." ++ old) ∧ Pointed stem old ∧
      Ends (replaceExtension path new) parents name ∧
      (name = stem ++ "." ++ new ∨ stem = "." ∧ name = "..") := by
  obtain ⟨parents, stem, ends, pointed⟩ := extension?_some found
  obtain ⟨kept, last, shorter⟩ := ends_take ends pointed
  have replaced : replaceExtension path new =
      setExtension (String.ofList (path.toList.take (path.length - old.length))) new := by
    rw [replaceExtension, found]
  refine ⟨parents, stem, ?_⟩
  by_cases parent : stem ++ "." ++ kept = ".."
  · have single : stem = "." := pointed_parent pointed.some parent
    rw [parent] at shorter
    refine ⟨"..", ends, pointed, ?_, .inr ⟨single, rfl⟩⟩
    rw [replaced, setExtension_parent shorter]
    exact shorter
  · refine ⟨stem ++ "." ++ new, ends, pointed, ?_, .inl rfl⟩
    rw [replaced, setExtension_pointed shorter ⟨pointed.some, last, parent⟩]
    obtain ⟨plainParents, own⟩ := ends.plain
    apply join_ends (pointed_busy pointed.some) (by simp) plainParents
    simp only [String.toList_append, List.mem_append, not_or] at own ⊢
    exact ⟨own.1, plain⟩

/-- A path with another extension is another path. -/
theorem replaceExtension_ne (found : extension? path = some old) (differs : old ≠ new)
    (plain : '/' ∉ new.toList) : replaceExtension path new ≠ path := by
  obtain ⟨parents, stem, name, ends, pointed, replaced, named⟩ := replaceExtension_ends found plain
  intro same
  rw [same] at replaced
  have sameNames := (significant_cons.mpr replaced).symm.trans (significant_cons.mpr ends)
  have sameName : name = stem ++ "." ++ old := (List.cons.inj sameNames).1
  rcases named with rfl | ⟨rfl, rfl⟩
  · exact differs ((String.append_right_inj _).mp sameName).symm
  · exact pointed.file sameName.symm

end Replacing

end Cpl.Path
