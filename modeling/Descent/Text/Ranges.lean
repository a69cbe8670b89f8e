import Descent.Text.Basic

/-! Sets of code points given by ascending ranges. -/

namespace Descent.CodePoint

def within (c : CodePoint) (ranges : List (Nat × Nat)) : Bool :=
  match ranges.find? fun range => c.value ≤ range.2 with
  | some range => range.1 ≤ c.value
  | none => false

end Descent.CodePoint
