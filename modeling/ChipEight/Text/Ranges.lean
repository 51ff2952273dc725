/-!
# Ranges of characters

A property of characters is given by the ranges of their numbers, in ascending order.
-/

namespace ChipEight.Text

/-- Whether the number of a character is in one of some ranges. -/
def inRanges (rs : List (Nat × Nat)) (c : Char) : Bool :=
  rs.any fun (first, last) => first ≤ c.toNat && c.toNat ≤ last

end ChipEight.Text
