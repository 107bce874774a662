/-
The types of values.
-/

namespace Cpl

inductive Scalar where
  | int
  | float
deriving DecidableEq

namespace Scalar

def text : Scalar → String
  | int => "int"
  | float => "float"

/-- The type at which two operands meet. -/
def promote : Scalar → Scalar → Scalar
  | int, int => int
  | _, _ => float

end Scalar

end Cpl
