/-
Constants.
-/

import Cpl.Decimal.Layout
import Cpl.Scalar

namespace Cpl

inductive Literal where
  | integer (value : Int32)
  | float (value : Binary64)
deriving DecidableEq

namespace Literal

def scalar : Literal → Scalar
  | integer _ => .int
  | float _ => .float

/-- A constant as programs and instructions show it. -/
def text : Literal → String
  | integer value => toString value.toInt
  | float value => String.ofList value.plain

/-- A constant as messages show it. -/
def describe : Literal → String
  | integer value => s!"Integer({value.toInt})"
  | float value => s!"Float({String.ofList value.compact})"

end Literal

end Cpl
