import Cpl.Proofs.Lowering.Recovery
import Cpl.Proofs.Program.Constructs
import Cpl.Proofs.Quad.Matching

namespace Cpl

/-- What is taken in two runs is matched. -/
structure Pairing.Matches (pairing : Pairing) (before after : Supply × Supply) : Prop where
  temps : Matching pairing.temps (before.1.temps, before.2.temps) (after.1.temps, after.2.temps)
  labels : Matching pairing.labels (before.1.labels, before.2.labels)
    (after.1.labels, after.2.labels)

/-- Numbers that are paired in order match. -/
theorem Pairing.Between.matches {pairing : Pairing} {before after : Supply × Supply}
    (paired : pairing.Between before after) : pairing.Matches before after :=
  ⟨paired.temps.matching, paired.labels.matching⟩

section Twins
variable {A B : Type} {renumber : Renumbering → A → A} {also : Renumbering → B → B}
  {before middle after : Supply × Supply}

/-- Of the results of two runs, one is the other under every renumbering that agrees with what the
runs took. -/
def Twins (renumber : Renumbering → A → A) (before after : Supply × Supply) (one other : A) :
    Prop :=
  ∃ pairing : Pairing, pairing.Matches before after ∧
    ∀ numbers : Renumbering, numbers.Agrees pairing → other = renumber numbers one

/-- Results of two runs each are twins if they are twins one by one. -/
theorem twins_pair {early late : Pairing} {one other : A} {next image : B}
    (matched : (early ++ late).Matches before after)
    (same : ∀ numbers : Renumbering, numbers.Agrees early → other = renumber numbers one)
    (sameLater : ∀ numbers : Renumbering, numbers.Agrees late → image = also numbers next) :
    Twins (fun numbers => Prod.map (renumber numbers) (also numbers)) before after (one, next)
      (other, image) := by
  refine ⟨_, matched, fun numbers agrees => ?_⟩
  obtain ⟨agreesEarly, agreesLate⟩ := agrees_append.mp agrees
  exact Prod.ext (same numbers agreesEarly) (sameLater numbers agreesLate)

/-- Parts of two results that are made in the same order. -/
theorem twins_append {one other : A} {next image : B}
    (first : Twins renumber before middle one other)
    (second : Twins also middle after next image) :
    Twins (fun numbers => Prod.map (renumber numbers) (also numbers)) before after (one, next)
      (other, image) := by
  obtain ⟨early, matched, same⟩ := first
  obtain ⟨late, matchedLater, sameLater⟩ := second
  exact twins_pair ⟨matching_append matched.temps matchedLater.temps,
    matching_append matched.labels matchedLater.labels⟩ same sameLater

/-- Parts of two results, of which the first is made last in the second run. -/
theorem twins_crossed {start finish left begin last right : Supply} {one other : A} {next image : B}
    (first : Twins renumber (start, right) (left, last) one other)
    (second : Twins also (left, begin) (finish, right) next image) :
    Twins (fun numbers => Prod.map (renumber numbers) (also numbers)) (start, begin) (finish, last)
      (one, next) (other, image) := by
  obtain ⟨early, matched, same⟩ := first
  obtain ⟨late, matchedLater, sameLater⟩ := second
  exact twins_pair ⟨matching_crossed matched.temps matchedLater.temps,
    matching_crossed matched.labels matchedLater.labels⟩ same sameLater

/-- What is put together from twins in the same way is a twin. -/
theorem Twins.map {one other : A} (twins : Twins renumber before after one other) (layout : A → B)
    (renumbered : ∀ numbers part, also numbers (layout part) = layout (renumber numbers part)) :
    Twins also before after (layout one) (layout other) := by
  obtain ⟨pairing, matched, same⟩ := twins
  refine ⟨pairing, matched, fun numbers agrees => ?_⟩
  rw [renumbered, same numbers agrees]

/-- What is lowered uniformly from two supplies is twins. -/
theorem Uniform.twins {one other : Lowering A} {start finish : Supply} {value : A}
    (uniform : Uniform renumber one fun _ => other) (lowered : one start = .ok value finish)
    (begin : Supply) : ∃ image last, other begin = .ok image last ∧
      Twins renumber (start, begin) (finish, last) value image := by
  obtain ⟨pairing, image, last, loweredToo, paired, same⟩ := uniform.image lowered begin
  exact ⟨image, last, loweredToo, pairing, paired.matches, same⟩

/-- Two new labels from each supply are twins. -/
theorem twins_labels (before : Supply × Supply) :
    Twins (fun numbers => Prod.map (Label.renumber numbers) (Label.renumber numbers)) before
      (⟨before.1.temps, before.1.labels + 2⟩, ⟨before.2.temps, before.2.labels + 2⟩)
      (⟨before.1.labels + 1⟩, ⟨before.1.labels + 2⟩)
      (⟨before.2.labels + 1⟩, ⟨before.2.labels + 2⟩) := by
  refine ⟨_, (between_labels before).matches, fun numbers agrees => ?_⟩
  have first := agrees.labels _ (List.mem_cons_self ..)
  have second := agrees.labels _ (List.mem_cons_of_mem _ (List.mem_singleton.mpr rfl))
  simp only [Prod.map_apply, Label.renumber, first, second]

end Twins

/-- Two ways to lower statements that give the same code up to numbers, wherever they start. -/
def Interchangeable (one other : Supply → Lowered × Supply) : Prop :=
  ∀ before : Supply × Supply, Twins Listing.renumber before
    ((one before.1).2, (other before.2).2) (one before.1).1.code (other before.2).1.code

section Runs
variable {scope : Scope} {before : Supply × Supply}

/-- Runs that leave everything out are twins. -/
theorem twins_nothing {after : Supply × Supply} (grown : before ≤ after) :
    Twins Listing.renumber before after [] [] :=
  ⟨⟨[], []⟩, (between_nil grown).matches, fun _ _ => rfl⟩

/-- A statement without parts is lowered to the same code up to numbers. -/
theorem keepOrDrop_interchangeable {lowering : Lowering Listing} {idents : List Ident}
    {statement : Statement}
    (lowers : ∀ supply, lowerStatement scope statement supply = keepOrDrop lowering supply)
    (grows : Grows lowering) (blames : Blames scope lowering idents)
    (uniform : Uniform Listing.renumber lowering fun _ => lowering) :
    Interchangeable (lowerStatement scope statement) (lowerStatement scope statement) := by
  intro before
  rw [lowers, lowers]
  by_cases declared : scope.declares idents = true
  · obtain ⟨code, after, lowered⟩ := blames.ok declared before.1
    obtain ⟨image, last, loweredToo, twins⟩ := uniform.twins lowered before.2
    simp only [keepOrDrop, lowered, loweredToo]
    exact twins
  · obtain ⟨error, after, failed⟩ := blames.error declared before.1
    obtain ⟨other, last, failedToo⟩ := blames.error declared before.2
    have grown := grows before.1
    have grownToo := grows before.2
    simp only [failed, failedToo, keepOrDrop] at grown grownToo ⊢
    exact twins_nothing ⟨grown, grownToo⟩

/-- A branch whose sides are twins, in whichever order they were lowered. -/
theorem twins_branchCode {afterTest afterSides : Supply × Supply} {tested image : Evaluated}
    {sides images : Listing × Listing}
    (test : Twins Evaluated.renumber before afterTest tested image)
    (parts : Twins (fun numbers => Prod.map (Listing.renumber numbers) (Listing.renumber numbers))
      afterTest afterSides sides images) :
    Twins Listing.renumber before
      (⟨afterSides.1.temps, afterSides.1.labels + 2⟩, ⟨afterSides.2.temps, afterSides.2.labels + 2⟩)
      (branchCode tested sides.1 sides.2 ⟨afterSides.1.labels + 1⟩ ⟨afterSides.1.labels + 2⟩)
      (branchCode image images.1 images.2 ⟨afterSides.2.labels + 1⟩ ⟨afterSides.2.labels + 2⟩) :=
  (twins_append (twins_append test parts) (twins_labels afterSides)).map
    (fun ((test, first, second), failure, exit) => branchCode test first second failure exit)
    fun numbers ((test, first, second), failure, exit) =>
      branchCode_renumber numbers test first second failure exit

/-- Code for the sides of a branch, in the order in which it stands. -/
def sideCodes (scope : Scope) (test : Condition) (yes no : Statement) (supply : Supply) :
    (Listing × Listing) × Supply :=
  let first := lowerStatement scope yes supply
  let second := lowerStatement scope no first.2
  (if test.isNegation then (second.1.code, first.1.code) else (first.1.code, second.1.code),
    second.2)

/-- A branch is lowered to its condition and its sides, which change places under a negation. -/
theorem lowerStatement_sideCodes {test : Condition} {tested : Evaluated} {start afterTest : Supply}
    (lowered : lowerCondition scope test.positive start = .ok tested afterTest)
    (yes no : Statement) :
    let result := lowerStatement scope (.branch test yes no) start
    let sides := sideCodes scope test yes no afterTest
    result.1.code =
        branchCode tested sides.1.1 sides.1.2 ⟨sides.2.labels + 1⟩ ⟨sides.2.labels + 2⟩ ∧
      result.2 = ⟨sides.2.temps, sides.2.labels + 2⟩ := by
  rw [lowerStatement_branch_ok lowered]
  dsimp only [sideCodes]
  split <;> exact ⟨rfl, rfl⟩

/-- Branches on one condition are interchangeable if their sides are laid out alike. -/
theorem branch_interchangeable {test other : Condition} {yes no otherYes otherNo : Statement}
    (same : other.positive = test.positive)
    (sides : ∀ start : Supply × Supply,
      Twins (fun numbers => Prod.map (Listing.renumber numbers) (Listing.renumber numbers)) start
        ((sideCodes scope test yes no start.1).2,
          (sideCodes scope other otherYes otherNo start.2).2)
        (sideCodes scope test yes no start.1).1
        (sideCodes scope other otherYes otherNo start.2).1) :
    Interchangeable (lowerStatement scope (.branch test yes no))
      (lowerStatement scope (.branch other otherYes otherNo)) := by
  intro before
  have blames := lowerCondition_blames scope test.positive
  by_cases declared : scope.declares test.positive.idents = true
  · obtain ⟨tested, afterTest, lowered⟩ := blames.ok declared before.1
    obtain ⟨image, last, loweredToo, twins⟩ :=
      (lowerCondition_uniform scope test.positive).twins lowered before.2
    obtain ⟨code, supply⟩ := lowerStatement_sideCodes lowered yes no
    obtain ⟨otherCode, otherSupply⟩ := lowerStatement_sideCodes (same ▸ loweredToo) otherYes otherNo
    rw [code, supply, otherCode, otherSupply]
    exact twins_branchCode twins (sides (afterTest, last))
  · obtain ⟨error, afterTest, failed⟩ := blames.error declared before.1
    obtain ⟨cause, last, failedToo⟩ := blames.error declared before.2
    have grown := (lowerStatement_emits scope (.branch test yes no) before.1).grown
    have grownToo := (lowerStatement_emits scope (.branch other otherYes otherNo) before.2).grown
    rw [lowerStatement_branch_error failed] at grown ⊢
    rw [lowerStatement_branch_error (same ▸ failedToo)] at grownToo ⊢
    exact twins_nothing ⟨grown, grownToo⟩

section Parts
variable {yes no body otherYes otherNo otherBody : Statement}

/-- Branches are interchangeable if their sides are. -/
theorem branch_interchangeable_sides (test : Condition)
    (first : Interchangeable (lowerStatement scope yes) (lowerStatement scope otherYes))
    (second : Interchangeable (lowerStatement scope no) (lowerStatement scope otherNo)) :
    Interchangeable (lowerStatement scope (.branch test yes no))
      (lowerStatement scope (.branch test otherYes otherNo)) := by
  refine branch_interchangeable rfl fun start => ?_
  have sides := twins_append (first start) (second _)
  dsimp only [sideCodes]
  split
  · exact sides.map Prod.swap fun _ _ => rfl
  · exact sides

/-- A branch on a negation lowers its sides in the order opposite to that in which their code
stands. With the sides exchanged they are lowered as their code stands, and each run takes
its second side from where the other one left the supply. -/
theorem branch_interchangeable_not {test : Condition} (plain : test.isNegation = false)
    (first : Interchangeable (lowerStatement scope yes) (lowerStatement scope otherYes))
    (second : Interchangeable (lowerStatement scope no) (lowerStatement scope otherNo)) :
    Interchangeable (lowerStatement scope (.branch (.not test) yes no))
      (lowerStatement scope (.branch test otherNo otherYes)) := by
  refine branch_interchangeable (Condition.positive_of_plain plain) fun start => ?_
  let left := (lowerStatement scope yes start.1).2
  let right := (lowerStatement scope otherNo start.2).2
  have sides := twins_crossed (first (start.1, right)) (second (left, start.2))
  dsimp only [sideCodes]
  rw [plain]
  exact sides.map Prod.swap fun _ _ => rfl

/-- Loops are interchangeable if their bodies are. -/
theorem loop_interchangeable (test : Condition)
    (inner : Interchangeable (lowerStatement scope body) (lowerStatement scope otherBody)) :
    Interchangeable (lowerStatement scope (.loop test body))
      (lowerStatement scope (.loop test otherBody)) := by
  intro before
  have blames := lowerCondition_blames scope test
  by_cases declared : scope.declares test.idents = true
  · obtain ⟨tested, afterTest, lowered⟩ :=
      blames.ok declared ⟨before.1.temps, before.1.labels + 2⟩
    obtain ⟨image, last, loweredToo, twins⟩ :=
      (lowerCondition_uniform scope test).twins lowered ⟨before.2.temps, before.2.labels + 2⟩
    rw [lowerStatement_loop_ok lowered, lowerStatement_loop_ok loweredToo]
    exact (twins_append (twins_append (twins_labels before) twins) (inner (afterTest, last))).map
      (fun (((entry, exit), test), body) => loopCode test body entry exit)
      fun numbers (((entry, exit), test), body) => loopCode_renumber numbers test body entry exit
  · obtain ⟨error, afterTest, failed⟩ :=
      blames.error declared ⟨before.1.temps, before.1.labels + 2⟩
    obtain ⟨cause, last, failedToo⟩ :=
      blames.error declared ⟨before.2.temps, before.2.labels + 2⟩
    have grown := (lowerStatement_emits scope (.loop test body) before.1).grown
    have grownToo := (lowerStatement_emits scope (.loop test otherBody) before.2).grown
    rw [lowerStatement_loop_error failed] at grown ⊢
    rw [lowerStatement_loop_error failedToo] at grownToo ⊢
    exact twins_nothing ⟨grown, grownToo⟩

/-- Blocks are interchangeable if their bodies are. -/
theorem block_interchangeable {body otherBody : List Statement}
    (inner : Interchangeable (lowerStatements scope body) (lowerStatements scope otherBody)) :
    Interchangeable (lowerStatement scope (.block body))
      (lowerStatement scope (.block otherBody)) := by
  intro before
  rw [lowerStatement, lowerStatement]
  exact inner before

/-- Statements that follow each other are interchangeable if they are one by one. -/
theorem cons_interchangeable {first otherFirst : Statement} {later otherLater : List Statement}
    (start : Interchangeable (lowerStatement scope first) (lowerStatement scope otherFirst))
    (rest : Interchangeable (lowerStatements scope later) (lowerStatements scope otherLater)) :
    Interchangeable (lowerStatements scope (first :: later))
      (lowerStatements scope (otherFirst :: otherLater)) := by
  intro before
  rw [lowerStatements, lowerStatements]
  exact (twins_append (start before) (rest _)).map (fun (first, later) => first ++ later)
    fun numbers (first, later) => Listing.renumber_append numbers first later

end Parts

end Runs

mutual

/-- The code of a statement depends on where its lowering starts only in its numbers. -/
theorem lowerStatement_interchangeable (scope : Scope) : ∀ statement : Statement,
    Interchangeable (lowerStatement scope statement) (lowerStatement scope statement)
  | .assign target value =>
      keepOrDrop_interchangeable (fun _ => by rw [lowerStatement])
        (lowerAssign_grows scope target value) (lowerAssign_blames scope target value)
        (lowerAssign_uniform scope target value)
  | .input target =>
      keepOrDrop_interchangeable (fun _ => by rw [lowerStatement]) (lowerInput_grows scope target)
        (lowerInput_blames scope target) (lowerInput_uniform scope target)
  | .output value =>
      keepOrDrop_interchangeable (fun _ => by rw [lowerStatement]) (lowerOutput_grows scope value)
        (lowerOutput_blames scope value) (lowerOutput_uniform scope value)
  | .branch test yes no =>
      branch_interchangeable_sides test (lowerStatement_interchangeable scope yes)
        (lowerStatement_interchangeable scope no)
  | .loop test body => loop_interchangeable test (lowerStatement_interchangeable scope body)
  | .block body => block_interchangeable (lowerStatements_interchangeable scope body)

/-- Statements are interchangeable with themselves. -/
theorem lowerStatements_interchangeable (scope : Scope) : ∀ body : List Statement,
    Interchangeable (lowerStatements scope body) (lowerStatements scope body)
  | [] => fun before => twins_nothing (le_refl before)
  | first :: later =>
      cons_interchangeable (lowerStatement_interchangeable scope first)
        (lowerStatements_interchangeable scope later)

end

/-- Statements around interchangeable ones do not matter. -/
theorem lowerStatements_around {scope : Scope} {one other : Statement}
    (same : Interchangeable (lowerStatement scope one) (lowerStatement scope other))
    (before after : List Statement) :
    Interchangeable (lowerStatements scope (before ++ one :: after))
      (lowerStatements scope (before ++ other :: after)) := by
  induction before with
  | nil => exact cons_interchangeable same (lowerStatements_interchangeable scope after)
  | cons first later ih =>
      exact cons_interchangeable (lowerStatement_interchangeable scope first) ih

/-- A place in a statement where a part of it stands. -/
inductive Statement.Site where
  | here
  | onYes (test : Condition) (inner : Statement.Site) (no : Statement)
  | onNo (test : Condition) (yes : Statement) (inner : Statement.Site)
  | inLoop (test : Condition) (inner : Statement.Site)
  | inBlock (before : List Statement) (inner : Statement.Site) (after : List Statement)

namespace Statement.Site

/-- The statement with a part at the place. -/
def fill (part : Statement) : Site → Statement
  | here => part
  | onYes test inner no => .branch test (inner.fill part) no
  | onNo test yes inner => .branch test yes (inner.fill part)
  | inLoop test inner => .loop test (inner.fill part)
  | inBlock before inner after => .block (before ++ inner.fill part :: after)

variable {one other : Statement} (site : Site)

/-- What is interchangeable alone is interchangeable at every site. -/
theorem fill_interchangeable {scope : Scope}
    (same : Interchangeable (lowerStatement scope one) (lowerStatement scope other)) :
    Interchangeable (lowerStatement scope (site.fill one))
      (lowerStatement scope (site.fill other)) := by
  induction site with
  | here => exact same
  | onYes test inner no ih =>
      exact branch_interchangeable_sides test ih (lowerStatement_interchangeable scope no)
  | onNo test yes inner ih =>
      exact branch_interchangeable_sides test (lowerStatement_interchangeable scope yes) ih
  | inLoop test inner ih => exact loop_interchangeable test ih
  | inBlock before inner after ih =>
      exact block_interchangeable (lowerStatements_around ih before after)

end Statement.Site

section Unknown
variable {known : String → Bool} {one other : Statement}

/-- A part with the same unknown names in another order changes only their order. -/
theorem Statement.unknownOf_around (same : (one.unknown known).Perm (other.unknown known))
    (before after : List Statement) :
    (Statement.unknownOf known (before ++ one :: after)).Perm
      (Statement.unknownOf known (before ++ other :: after)) := by
  induction before with
  | nil => exact same.append_right _
  | cons first later ih => exact ih.append_left _

/-- Statements with the same unknown names have the same ones at every site. -/
theorem Statement.Site.fill_unknown (same : (one.unknown known).Perm (other.unknown known))
    (site : Site) : ((site.fill one).unknown known).Perm ((site.fill other).unknown known) := by
  induction site with
  | here => exact same
  | onYes test inner no ih => exact (ih.append_left _).append_right _
  | onNo test yes inner ih => exact ih.append_left _
  | inLoop test inner ih => exact ih.append_left _
  | inBlock before inner after ih => exact unknownOf_around ih before after

end Unknown

/-- Wherever a branch on a negated condition stands in a program, it can be replaced by the branch
on the condition itself with its sides exchanged. The code is the same under a permutation of the
temporaries and one of the labels, and the same errors are found. -/
theorem generate_exchange (scope : Scope) (before after : List Statement) (site : Statement.Site)
    {test : Condition} (plain : test.isNegation = false) (yes no : Statement) :
    let negated := generate scope (before ++ site.fill (.branch (.not test) yes no) :: after)
    let exchanged := generate scope (before ++ site.fill (.branch test no yes) :: after)
    (∃ temps labels : Equiv.Perm Nat,
        exchanged.program = negated.program.renumber ⟨temps, labels⟩) ∧
      exchanged.errors.Perm negated.errors := by
  intro negated exchanged
  constructor
  · have sides := branch_interchangeable_not plain (lowerStatement_interchangeable scope yes)
      (lowerStatement_interchangeable scope no)
    have whole := lowerStatements_around (site.fill_interchangeable sides) before after
    obtain ⟨pairing, matched, same⟩ := whole (⟨0, 0⟩, ⟨0, 0⟩)
    refine pairing.permuted matched.temps.apart matched.labels.apart fun numbers agrees => ?_
    have alike := same numbers agrees
    rw [Generated.program, Listing.complete, Generated.program, Listing.complete,
      Listing.renumber_append]
    exact congrArg (· ++ [Quad.halt]) alike
  · have sides : ((Statement.branch test no yes).unknown scope.contains).Perm
        ((Statement.branch (.not test) yes no).unknown scope.contains) := by
      simp only [Statement.unknown, List.append_assoc]
      exact List.perm_append_comm.append_left _
    have names := Statement.unknownOf_around (site.fill_unknown sides) before after
    exact (generate_errors scope _).trans ((names.map _).trans (generate_errors scope _).symm)

/-- Two loops that are numbered in the other order when they are exchanged. Each of them uses a name
that is not declared, and a variable is named like the first temporary. -/
theorem loops_exchange :
    let x : Ident := ⟨"t1", .point 0⟩
    let y : Ident := ⟨"y", .point 5⟩
    let z : Ident := ⟨"z", .point 9⟩
    let scope : Scope := ⟨[("t1", .int)]⟩
    let test (op : RelOp) (value : Int32) : Condition :=
      .relation op (.identifier x) (.literal (.integer value))
    let yes : Statement := .loop (test .less 1) (.input y)
    let no : Statement := .loop (test .greater 2) (.input z)
    let site : Statement.Site := .inBlock [.input x] .here []
    let after : List Statement :=
      [.output (.binary .multiply (.identifier x) (.literal (.integer 2)))]
    let negated := generate scope (site.fill (.branch (.not (test .equal 0)) yes no) :: after)
    let exchanged := generate scope (site.fill (.branch (test .equal 0) no yes) :: after)
    let place : Value := .name (.var "t1")
    (test .equal 0).isNegation = false ∧
      negated.program = [.input .int (.var "t1"),
        .compare .int .equal (.temp 2) place (flag 0), .jumpIfZero ⟨5⟩ (.name (.temp 2)),
        .mark ⟨3⟩, .compare .int .greater (.temp 4) place (flag 2),
        .jumpIfZero ⟨4⟩ (.name (.temp 4)), .jump ⟨3⟩, .mark ⟨4⟩, .jump ⟨6⟩, .mark ⟨5⟩,
        .mark ⟨1⟩, .compare .int .less (.temp 3) place (flag 1),
        .jumpIfZero ⟨2⟩ (.name (.temp 3)), .jump ⟨1⟩, .mark ⟨2⟩, .mark ⟨6⟩,
        .arith .int .multiply (.temp 5) place (flag 2), .print .int (.name (.temp 5)), .halt] ∧
      exchanged.program = [.input .int (.var "t1"),
        .compare .int .equal (.temp 2) place (flag 0), .jumpIfZero ⟨5⟩ (.name (.temp 2)),
        .mark ⟨1⟩, .compare .int .greater (.temp 3) place (flag 2),
        .jumpIfZero ⟨2⟩ (.name (.temp 3)), .jump ⟨1⟩, .mark ⟨2⟩, .jump ⟨6⟩, .mark ⟨5⟩,
        .mark ⟨3⟩, .compare .int .less (.temp 4) place (flag 1),
        .jumpIfZero ⟨4⟩ (.name (.temp 4)), .jump ⟨3⟩, .mark ⟨4⟩, .mark ⟨6⟩,
        .arith .int .multiply (.temp 5) place (flag 2), .print .int (.name (.temp 5)), .halt] ∧
      negated.errors = [.undeclared y, .undeclared z] ∧
      exchanged.errors = [.undeclared z, .undeclared y] ∧
      (∃ temps labels : Equiv.Perm Nat,
        exchanged.program = negated.program.renumber ⟨temps, labels⟩) ∧
      exchanged.errors.Perm negated.errors := by
  intro x y z scope test yes no site after negated exchanged place
  have plain : (test .equal 0).isNegation = false := rfl
  exact ⟨plain, by decide +kernel, by decide +kernel, by decide +kernel, by decide +kernel,
    generate_exchange scope [] after site plain yes no⟩

end Cpl
