/-!
Tables of numbers, given as ranges in ascending order.
-/

namespace LedSwitch.Ranges

/-- Whether a number stands in one of the ascending ranges, both ends of each included. -/
def within (n : Nat) : List (Nat × Nat) → Bool
  | [] => false
  | (low, high) :: rest => if n < low then false else n ≤ high || within n rest

end LedSwitch.Ranges
