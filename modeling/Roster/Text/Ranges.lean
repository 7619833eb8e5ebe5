/-!
# Sets of characters as ranges

Membership in a list of ranges that is in increasing order.
-/

namespace Roster.Text

/-- A code point lies in one of the ranges. -/
def inRanges (n : Nat) : List (Nat × Nat) → Bool
  | [] => false
  | (low, high) :: rest => if n < low then false else n ≤ high || inRanges n rest

end Roster.Text
