/-!
# Ranges of characters

A property of characters is given as the ranges of code points that have it.
-/

namespace SuitePlan.Text

/-- Whether the code point of `c` lies in one of the ranges, whose ends are both included. -/
def covers (ranges : List (Nat × Nat)) (c : Char) : Bool :=
  ranges.any fun (first, last) => first ≤ c.toNat && c.toNat ≤ last

end SuitePlan.Text
