/-!
# Classes of characters

A class of characters is a list of ranges of code points, first and last, in ascending order.
-/

namespace FlatUnion

/-- Whether a character lies in one of the ranges. -/
def Char.within (ranges : List (Nat × Nat)) (c : Char) : Bool :=
  ranges.any fun r => r.1 ≤ c.toNat && c.toNat ≤ r.2

end FlatUnion
