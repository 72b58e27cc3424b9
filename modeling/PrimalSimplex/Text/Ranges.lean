/-!
# Sets of characters given by ranges

A character property of the Unicode standard is a set of code points, and it is given here the way
the standard prints it: as an increasing list of ranges, both ends included.
-/

namespace PrimalSimplex.Text

/-- A set of characters as a list of ranges of code points, both ends included. -/
abbrev Ranges := List (Nat × Nat)

/-- Whether a character belongs to one of the ranges. -/
def Ranges.contains (ranges : Ranges) (c : Char) : Bool :=
  ranges.any fun range => decide (range.1 ≤ c.toNat) && decide (c.toNat ≤ range.2)

end PrimalSimplex.Text
