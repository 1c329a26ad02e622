/-!
# Ranges of code points

A property of characters is kept as a list of ranges, each given by its first and last code point.
-/

namespace LocalIpc.Text

abbrev Ranges := List (Nat × Nat)

/-- The code point of `c` lies in one of the ranges. -/
def Ranges.has (rs : Ranges) (c : Char) : Bool :=
  rs.any fun r => decide (r.1 ≤ c.toNat) && decide (c.toNat ≤ r.2)

end LocalIpc.Text
