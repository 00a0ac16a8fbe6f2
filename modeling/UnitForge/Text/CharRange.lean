/-! # Ranges of characters

Unicode properties are given as lists of ranges of scalar values, both ends included, in order. -/
set_option autoImplicit false
namespace UnitForge.Text

/-- Whether a number lies in one of the ranges; the ranges are in order, so a later one is not
looked at once the number is below a range. -/
def inRanges (n : Nat) : List (Nat × Nat) → Bool
  | [] => false
  | (low, high) :: rest => if n < low then false else n ≤ high || inRanges n rest

end UnitForge.Text
