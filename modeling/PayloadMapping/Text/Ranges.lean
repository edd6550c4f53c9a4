set_option autoImplicit false

/-!
# Sets of characters given by ranges

A property of characters is a list of closed ranges of code points.
-/

namespace PayloadMapping.Text

def inRanges (ranges : List (Nat × Nat)) (code : Nat) : Bool :=
  ranges.any fun range => range.1 ≤ code && code ≤ range.2

end PayloadMapping.Text
