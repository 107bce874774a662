import Cpl.Proofs.Quad.Flow
import Cpl.Scope

namespace Cpl

/-- The types that are chosen for temporaries. -/
abbrev TempTypes := Nat → Option Scalar

/-- What is chosen is kept, and more may be chosen. -/
def TempTypes.Extends (temps later : TempTypes) : Prop :=
  ∀ index scalar, temps index = some scalar → later index = some scalar

theorem TempTypes.extends_refl (temps : TempTypes) : temps.Extends temps := fun _ _ chosen => chosen

/-- More types can be chosen twice. -/
theorem TempTypes.Extends.trans {temps later last : TempTypes} (first : temps.Extends later)
    (second : later.Extends last) : temps.Extends last :=
  fun index scalar chosen => second index scalar (first index scalar chosen)

def Name.scalar? (scope : Scope) (temps : TempTypes) : Name → Option Scalar
  | var name => scope.scalar? name
  | temp index => temps index

def Value.scalar? (scope : Scope) (temps : TempTypes) : Value → Option Scalar
  | literal value => some value.scalar
  | name place => place.scalar? scope temps

/-- A value keeps its type when more types are chosen. -/
theorem Value.scalar?_extends {scope : Scope} {temps later : TempTypes} {value : Value}
    {scalar : Scalar} (more : temps.Extends later) (typed : value.scalar? scope temps = some scalar) :
    value.scalar? scope later = some scalar := by
  cases value with
  | literal value => exact typed
  | name place =>
      cases place with
      | var name => exact typed
      | temp index => exact more index scalar typed

namespace Quad

/-- The type of the value that an instruction writes. -/
def written? : Quad → Option Scalar
  | assign scalar _ _ => some scalar
  | input scalar _ => some scalar
  | arith scalar _ _ _ _ => some scalar
  | compare .. => some .int
  | toReal _ _ => some .float
  | toInt _ _ => some .int
  | print .. | jump _ | jumpIfZero .. | mark _ | halt => none

/-- Two operands meet at a type. -/
def Meet (scope : Scope) (temps : TempTypes) (left right : Value) (scalar : Scalar) : Prop :=
  ∃ first second, left.scalar? scope temps = some first ∧ right.scalar? scope temps = some second ∧
    scalar = first.promote second

/-- The operands of an instruction have the types that it is for. A variable may be given a copy of
any type, a temporary only one of the type of the instruction. -/
def Fits (scope : Scope) (temps : TempTypes) : Quad → Prop
  | assign scalar (.temp _) value => value.scalar? scope temps = some scalar
  | assign _ (.var _) _ => True
  | input scalar target => ∃ name, target = .var name ∧ scope.scalar? name = some scalar
  | print scalar value => value.scalar? scope temps = some scalar
  | arith scalar _ _ left right => Meet scope temps left right scalar
  | compare scalar _ _ left right => Meet scope temps left right scalar
  | toReal _ value => value.scalar? scope temps = some .int
  | toInt _ value => value.scalar? scope temps = some .float
  | jumpIfZero _ value => value.scalar? scope temps = some .int
  | jump _ | mark _ | halt => True

/-- An instruction is well typed if its operands fit, and if a temporary that it writes is of the
type of what is written. -/
structure Typed (scope : Scope) (temps : TempTypes) (quad : Quad) : Prop where
  fits : quad.Fits scope temps
  written : ∀ index, quad.target? = some (.temp index) → temps index = quad.written?

section Extension
variable {scope : Scope} {temps later : TempTypes}

/-- Operands still meet when more types are chosen. -/
theorem Meet.extends {left right : Value} {scalar : Scalar} (meet : Meet scope temps left right scalar)
    (more : temps.Extends later) : Meet scope later left right scalar := by
  obtain ⟨first, second, leftTyped, rightTyped, same⟩ := meet
  exact ⟨first, second, Value.scalar?_extends more leftTyped,
    Value.scalar?_extends more rightTyped, same⟩

/-- An instruction still fits when more types are chosen. -/
theorem Fits.extends {quad : Quad} (fits : quad.Fits scope temps) (more : temps.Extends later) :
    quad.Fits scope later := by
  cases quad with
  | assign scalar target value =>
      cases target with
      | var name => exact fits
      | temp index => exact Value.scalar?_extends more fits
  | print scalar value | toReal target value | toInt target value | jumpIfZero label value =>
      exact Value.scalar?_extends more fits
  | arith scalar op target left right | compare scalar op target left right =>
      exact Meet.extends fits more
  | input scalar target => exact fits
  | jump label | mark label | halt => trivial

/-- More chosen types do no harm. -/
theorem Typed.extends {quad : Quad} (typed : quad.Typed scope temps) (more : temps.Extends later) :
    quad.Typed scope later where
  fits := typed.fits.extends more
  written index target := by
    have chosen := typed.written index target
    cases written : quad.written? with
    | none => cases quad <;> simp_all [target?, written?]
    | some scalar => exact more index scalar (chosen.trans written)

/-- An instruction that writes no temporary is well typed if its operands fit. -/
theorem typed_of_fits {quad : Quad} (fits : quad.Fits scope temps)
    (untouched : ∀ index, quad.target? ≠ some (.temp index)) : quad.Typed scope temps where
  fits := fits
  written index target := absurd target (untouched index)

end Extension

end Quad

/-- Each instruction is well typed. -/
def Listing.Typed (scope : Scope) (temps : TempTypes) (code : Listing) : Prop :=
  ∀ quad ∈ code, quad.Typed scope temps

/-- Code stays well typed when more types are chosen. -/
theorem Listing.Typed.extends {scope : Scope} {temps later : TempTypes} {code : Listing}
    (typed : code.Typed scope temps) (more : temps.Extends later) : code.Typed scope later :=
  fun quad member => (typed quad member).extends more

end Cpl
