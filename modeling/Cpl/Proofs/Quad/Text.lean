import Cpl.Proofs.Lexeme.Layout
import Cpl.Proofs.Quad.Flow
import Mathlib.Data.List.Nodup
import Mathlib.Data.Set.Function

namespace Cpl

/-- Names with the same letters in front differ by their numbers. -/
theorem numbered_injective (stem : String) {index other : Nat}
    (same : stem ++ toString index = stem ++ toString other) : index = other := by
  have characters := congrArg String.toList same
  simp only [String.toList_append, Nat.toString_eq_ofList_toDigits,
    String.toList_ofList] at characters
  have value := congrArg (Nat.ofDigitChars 10 · 0) (List.append_cancel_left characters)
  simpa only [Nat.ofDigitChars_ten_toDigits] using value

/-- The values that an instruction mentions, with the one in the place that it writes. -/
def Quad.mentions (quad : Quad) : List Value :=
  (quad.target?.map Value.name).toList ++ quad.operands

namespace Listing

def mentions (code : Listing) : List Value := code.flatMap Quad.mentions

/-- Code mentions only some values. -/
def Within (words : Set Value) (code : Listing) : Prop := ∀ value ∈ code.mentions, value ∈ words

section Within
variable {words : Set Value}

@[simp] theorem within_nil : Within words [] := by simp [Within, mentions]

@[simp] theorem within_cons {quad : Quad} {rest : Listing} :
    Within words (quad :: rest) ↔ (∀ value ∈ quad.mentions, value ∈ words) ∧ Within words rest := by
  simp [Within, mentions, or_imp, forall_and]

@[simp] theorem within_append {first second : Listing} :
    Within words (first ++ second) ↔ Within words first ∧ Within words second := by
  simp [Within, mentions, or_imp, forall_and]

end Within

end Listing

/-- Labels differ in their texts. -/
theorem Label.text_injective {label other : Label} (same : label.text = other.text) :
    label = other :=
  congrArg Label.mk (numbered_injective "L" same)

/-- A text without blanks in it. -/
def Unbroken (text : String) : Prop := ∀ character ∈ text.toList, isBlank character = false

instance (text : String) : Decidable (Unbroken text) :=
  List.decidableBAll (fun character => isBlank character = false) text.toList

/-- A text is unbroken exactly if both parts are. -/
theorem unbroken_append {first second : String} :
    Unbroken (first ++ second) ↔ Unbroken first ∧ Unbroken second := by
  rw [Unbroken, String.toList_append]
  exact List.forall_mem_append

/-- A number is unbroken. -/
theorem unbroken_number (number : Nat) : Unbroken (toString number) := by
  rw [Unbroken, Nat.toString_eq_ofList_toDigits, String.toList_ofList]
  exact fun character member =>
    isBlank_digit (Nat.isDigit_of_mem_toDigits (by decide) (by decide) member)

/-- The text of a label is unbroken. -/
theorem Label.text_unbroken (label : Label) : Unbroken label.text :=
  unbroken_append.mpr ⟨by decide, unbroken_number label.index⟩

/-- What an instruction does, without its operands. A label that is marked belongs to it. -/
inductive Opcode where
  | assign (scalar : Scalar)
  | input (scalar : Scalar)
  | print (scalar : Scalar)
  | arith (scalar : Scalar) (op : ArithOp)
  | compare (scalar : Scalar) (op : CmpOp)
  | toReal
  | toInt
  | jump
  | jumpIfZero
  | mark (label : Label)
  | halt
deriving DecidableEq

namespace Opcode

/-- The first word of an instruction. -/
def text : Opcode → String
  | assign scalar => scalar.letter ++ "ASN"
  | input scalar => scalar.letter ++ "INP"
  | print scalar => scalar.letter ++ "PRT"
  | arith scalar op => scalar.letter ++ op.mnemonic
  | compare scalar op => scalar.letter ++ op.mnemonic
  | toReal => "ITOR"
  | toInt => "RTOI"
  | jump => "JUMP"
  | jumpIfZero => "JMPZ"
  | mark label => label.text ++ ":"
  | halt => "HALT"

/-- All opcodes that mark no label. -/
def unmarked : List Opcode :=
  [toReal, toInt, jump, jumpIfZero, halt] ++ [Scalar.int, .float].flatMap fun scalar =>
    [assign scalar, input scalar, print scalar] ++
      [ArithOp.add, .subtract, .multiply, .divide].map (arith scalar) ++
      [CmpOp.less, .greater, .equal, .notEqual].map (compare scalar)

/-- An operation code is a mark or one of the fixed codes. -/
theorem mark_or_unmarked (opcode : Opcode) :
    (∃ label, opcode = mark label) ∨ opcode ∈ unmarked := by
  cases opcode with
  | mark label => exact .inl ⟨label, rfl⟩
  | assign scalar | input scalar | print scalar =>
      cases scalar <;> exact .inr (by decide)
  | arith scalar op | compare scalar op =>
      cases scalar <;> cases op <;> exact .inr (by decide)
  | toReal | toInt | jump | jumpIfZero | halt => exact .inr (by decide)

/-- The fixed operation codes differ in their texts. -/
theorem unmarked_distinct : (unmarked.map text).Nodup := by decide +kernel

/-- No fixed operation code has a colon. -/
theorem unmarked_noColon : ∀ opcode ∈ unmarked, ':' ∉ opcode.text.toList := by decide +kernel

/-- A mark has a colon. -/
theorem mark_colon (label : Label) : ':' ∈ (mark label).text.toList := by
  rw [text, String.toList_append]
  exact List.mem_append_right _ (by decide)

/-- Operation codes differ in their texts. -/
theorem text_injective {opcode other : Opcode} (same : opcode.text = other.text) :
    opcode = other := by
  obtain ⟨label, rfl⟩ | listed := mark_or_unmarked opcode
  · obtain ⟨twin, rfl⟩ | twinListed := mark_or_unmarked other
    · rw [label.text_injective ((String.append_left_inj ":").mp same)]
    · exact absurd (same ▸ mark_colon label) (unmarked_noColon other twinListed)
  · obtain ⟨twin, rfl⟩ | twinListed := mark_or_unmarked other
    · exact absurd (same ▸ mark_colon twin) (unmarked_noColon opcode listed)
    · exact List.inj_on_of_nodup_map unmarked_distinct listed twinListed same

/-- The text of an operation code is unbroken. -/
theorem text_unbroken (opcode : Opcode) : Unbroken opcode.text := by
  obtain ⟨label, rfl⟩ | listed := mark_or_unmarked opcode
  · exact unbroken_append.mpr ⟨label.text_unbroken, by decide⟩
  · have visible : ∀ opcode ∈ unmarked, Unbroken opcode.text := by decide +kernel
    exact visible opcode listed

end Opcode

namespace Quad

def opcode : Quad → Opcode
  | assign scalar .. => .assign scalar
  | input scalar _ => .input scalar
  | print scalar _ => .print scalar
  | arith scalar op .. => .arith scalar op
  | compare scalar op .. => .compare scalar op
  | toReal .. => .toReal
  | toInt .. => .toInt
  | jump _ => .jump
  | jumpIfZero .. => .jumpIfZero
  | mark label => .mark label
  | halt => .halt

/-- The words of an instruction are its opcode, the label that it may jump to and the values that it
mentions. -/
theorem words_eq (quad : Quad) : quad.words = quad.opcode.text ::
    (quad.jump?.toList.map Label.text ++ quad.mentions.map Value.text) := by
  cases quad <;> rfl

/-- An instruction is known by its parts. -/
theorem parts_injective {quad other : Quad} (opcodes : quad.opcode = other.opcode)
    (labels : quad.jump?.toList = other.jump?.toList) (values : quad.mentions = other.mentions) :
    quad = other := by
  cases quad <;> cases other <;> simp_all [opcode, jump?, mentions, target?, Quad.operands]

/-- The opcode says whether there is a label to jump to. -/
theorem jump?_isSome (quad : Quad) :
    quad.jump?.isSome = decide (quad.opcode = .jump ∨ quad.opcode = .jumpIfZero) := by
  cases quad <;> rfl

end Quad

section Injectivity
variable {A B : Type} {vocabulary : Set Value}

/-- Lists differ under a change that tells their members apart. -/
theorem injOn_map {change : A → B} {members : Set A} (distinct : Set.InjOn change members) :
    Set.InjOn (List.map change) {list | ∀ member ∈ list, member ∈ members} := by
  intro first known second otherKnown same
  induction first generalizing second with
  | nil => exact (List.map_eq_nil_iff.mp same.symm).symm
  | cons member later ih =>
      cases second with
      | nil => cases same
      | cons twin twins =>
          obtain ⟨heads, tails⟩ := List.cons.inj same
          obtain ⟨memberKnown, laterKnown⟩ := List.forall_mem_cons.mp known
          obtain ⟨twinKnown, twinsKnown⟩ := List.forall_mem_cons.mp otherKnown
          rw [distinct memberKnown twinKnown heads, ih laterKnown twinsKnown tails]

/-- Words with a space between them can be told apart, if there are no spaces in them. -/
theorem intercalate_injective {words others : List String} (some : words ≠ [])
    (otherSome : others ≠ []) (unbroken : ∀ word ∈ words, Unbroken word)
    (otherUnbroken : ∀ word ∈ others, Unbroken word)
    (same : " ".intercalate words = " ".intercalate others) : words = others := by
  have split {words : List String} (some : words ≠ []) (unbroken : ∀ word ∈ words, Unbroken word) :
      List.splitOn ' ' (" ".intercalate words).toList = words.map String.toList := by
    rw [String.toList_intercalate]
    apply List.splitOn_intercalate ' '
    · rw [List.forall_mem_map]
      intro word member space
      cases unbroken word member ' ' space
    · exact fun empty => some (List.map_eq_nil_iff.mp empty)
  have texts := split some unbroken
  rw [same, split otherSome otherUnbroken] at texts
  exact (List.map_inj_right fun _ _ => String.toList_injective).mp texts.symm

/-- Lines that end in a mark can be told apart, if the mark is not in them. -/
theorem ended_injective {mark : Char} {lines others : List (List Char)}
    (free : ∀ line ∈ lines, mark ∉ line) (otherFree : ∀ line ∈ others, mark ∉ line)
    (same : lines.flatMap (· ++ [mark]) = others.flatMap (· ++ [mark])) : lines = others := by
  have split {lines : List (List Char)} (free : ∀ line ∈ lines, mark ∉ line) :
      List.splitOn mark (lines.flatMap (· ++ [mark])) = lines ++ [[]] := by
    have ended : lines.flatMap (· ++ [mark]) = [mark].intercalate (lines ++ [[]]) := by
      clear free
      induction lines with
      | nil => rfl
      | cons line later ih =>
          rw [List.flatMap_cons, ih, List.cons_append, List.intercalate_cons_of_ne_nil (by simp)]
    rw [ended]
    apply List.splitOn_intercalate mark
    · rw [List.forall_mem_append]
      exact ⟨free, by simp⟩
    · simp
  have texts := split free
  rw [same, split otherFree] at texts
  exact (List.append_cancel_right texts).symm

/-- A character that is in no word is not between the words. -/
theorem intercalate_free {mark : Char} (notSpace : mark ≠ ' ') : ∀ {words : List (List Char)},
    (∀ word ∈ words, mark ∉ word) → mark ∉ [' '].intercalate words
  | [], _ => List.not_mem_nil
  | [word], free => by
      rw [List.intercalate_singleton]
      exact free word List.mem_cons_self
  | word :: next :: later, free => by
      obtain ⟨first, others⟩ := List.forall_mem_cons.mp free
      rw [List.intercalate_cons_cons, List.mem_append, List.mem_append, List.mem_singleton]
      rintro ((inFirst | same) | inLater)
      · exact first inFirst
      · exact notSpace same
      · exact intercalate_free notSpace others inLater

section Vocabulary
variable (distinct : Set.InjOn Value.text vocabulary)
include distinct

/-- Instructions over values with distinct texts have distinct words. -/
theorem Quad.words_injOn :
    Set.InjOn Quad.words {quad | ∀ value ∈ quad.mentions, value ∈ vocabulary} := by
  intro quad known other otherKnown same
  rw [words_eq, words_eq] at same
  obtain ⟨texts, arguments⟩ := List.cons.inj same
  have opcodes := Opcode.text_injective texts
  have lengths : (quad.jump?.toList.map Label.text).length =
      (other.jump?.toList.map Label.text).length := by
    simp only [List.length_map, Option.length_toList, jump?_isSome, opcodes]
  obtain ⟨labels, values⟩ := List.append_inj arguments lengths
  exact parts_injective opcodes ((List.map_inj_right fun _ _ => Label.text_injective).mp labels)
    (injOn_map distinct known otherKnown values)

variable (unbroken : ∀ value ∈ vocabulary, Unbroken value.text)
include unbroken

omit distinct in
/-- The words of an instruction over the vocabulary are unbroken. -/
theorem Quad.words_unbroken {quad : Quad} (known : ∀ value ∈ quad.mentions, value ∈ vocabulary) :
    ∀ word ∈ quad.words, Unbroken word := by
  rw [words_eq, List.forall_mem_cons, List.forall_mem_append, List.forall_mem_map,
    List.forall_mem_map]
  exact ⟨quad.opcode.text_unbroken, fun label _ => label.text_unbroken,
    fun value mentioned => unbroken value (known value mentioned)⟩

/-- Instructions over the vocabulary differ in their texts. -/
theorem Quad.text_injOn :
    Set.InjOn Quad.text {quad | ∀ value ∈ quad.mentions, value ∈ vocabulary} := by
  intro quad known other otherKnown same
  have some (quad : Quad) : quad.words ≠ [] := by
    rw [words_eq]
    exact List.cons_ne_nil _ _
  exact words_injOn distinct known otherKnown (intercalate_injective (some quad) (some other)
    (words_unbroken unbroken known) (words_unbroken unbroken otherKnown) same)

omit distinct in
/-- An instruction stays in its line. -/
theorem Quad.text_noBreak {quad : Quad} (known : ∀ value ∈ quad.mentions, value ∈ vocabulary) :
    '\n' ∉ quad.text.toList := by
  rw [text, String.toList_intercalate]
  apply intercalate_free (by decide)
  rw [List.forall_mem_map]
  intro word member isBreak
  cases words_unbroken unbroken known word member '\n' isBreak

/-- A program over values with distinct texts, without blanks in them, is known by its text. -/
theorem Listing.text_injOn : Set.InjOn Listing.text {code | code.Within vocabulary} := by
  intro code known other otherKnown same
  have each {code : Listing} (known : code.Within vocabulary) :
      ∀ quad ∈ code, ∀ value ∈ quad.mentions, value ∈ vocabulary :=
    fun quad member value mentioned =>
      known value (List.mem_flatMap.mpr ⟨quad, member, mentioned⟩)
  have lines (code : Listing) : code.text.toList =
      (code.lines.map String.toList).flatMap (· ++ ['\n']) := by
    rw [Listing.text, Listing.lines, String.toList_join, List.flatMap_map, List.flatMap_map,
      List.flatMap_map]
    simp only [String.toList_append]
    rfl
  have noBreak {code : Listing} (known : code.Within vocabulary) :
      ∀ line ∈ code.lines.map String.toList, '\n' ∉ line := by
    rw [List.forall_mem_map, Listing.lines, List.forall_mem_map]
    exact fun quad member => quad.text_noBreak unbroken (each known quad member)
  have texts := congrArg String.toList same
  rw [lines, lines] at texts
  have shown := ended_injective (noBreak known) (noBreak otherKnown) texts
  apply injOn_map (Quad.text_injOn distinct unbroken) (each known) (each otherKnown)
  exact (List.map_inj_right fun _ _ => String.toList_injective).mp shown

end Vocabulary

end Injectivity

end Cpl
