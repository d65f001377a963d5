/-!
# Sets of characters by code point

A character property is held as the ascending list of its code point ranges, both ends included.
-/

namespace DemoReel.Text

abbrev CodeRanges := List (Nat × Nat)

namespace CodeRanges

def contains (ranges : CodeRanges) (c : Char) : Bool :=
  ranges.any fun range ↦ decide (range.1 ≤ c.toNat ∧ c.toNat ≤ range.2)

end CodeRanges

end DemoReel.Text
