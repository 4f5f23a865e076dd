/-!
# Sets of characters given by ranges of code points
-/

namespace DataBinding.Text

/-- A set of characters, as closed ranges of code points. -/
abbrev CharRanges := List (Nat × Nat)

/-- Whether the character's code point lies in one of the ranges. -/
def CharRanges.contains (ranges : CharRanges) (c : Char) : Bool :=
  ranges.any fun r => decide (r.1 ≤ c.toNat) && decide (c.toNat ≤ r.2)

end DataBinding.Text
