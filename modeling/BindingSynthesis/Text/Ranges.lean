/-!
# BindingSynthesis.Text.Ranges

Sets of code points given as ascending lists of closed ranges, the form in
which character properties are tabulated.
-/

namespace BindingSynthesis.Text

/-- The code point lies in one of the ranges.  The ranges ascend, so the search
ends at the first one that starts beyond it. -/
def inRanges : List (Nat × Nat) → Nat → Bool
  | [], _ => false
  | (low, high) :: rest, n => if n < low then false else n ≤ high || inRanges rest n

end BindingSynthesis.Text
