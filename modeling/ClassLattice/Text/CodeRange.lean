/-!
# Ranges of code points

A property of characters as the list of the ranges of code points that have it.
-/

set_option autoImplicit false

namespace ClassLattice.Text

/-- The code points from a first one to a last one. -/
abbrev CodeRange : Type := Nat × Nat

/-- Whether a character is in one of some ranges. -/
def isWithin (ranges : List CodeRange) (c : Char) : Bool :=
  ranges.any fun range => range.1 ≤ c.toNat && c.toNat ≤ range.2

end ClassLattice.Text
