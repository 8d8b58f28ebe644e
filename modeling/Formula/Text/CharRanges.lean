/-!
# `Formula.Text.CharRanges` — sets of characters given by ranges of code points

The properties of characters that the library needs beyond ASCII are tables of ranges of code points, one
module for each property.
-/

namespace Formula

/-- Ranges of code points, first and last included. -/
abbrev CharRanges := List (Nat × Nat)

/-- Whether a character lies in one of the ranges. -/
def CharRanges.has (ranges : CharRanges) (c : Char) : Bool :=
  ranges.any fun r => r.1 ≤ c.toNat && c.toNat ≤ r.2

end Formula
