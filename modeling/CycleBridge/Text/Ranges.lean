/-!
# Ranges of characters

A property of characters is given by the ranges of code points that have it.
-/

namespace CycleBridge.Text

/-- Whether a character lies in one of the ranges, both ends included. -/
def liesIn (ranges : Array (Nat × Nat)) (c : Char) : Bool :=
  ranges.any fun r => r.1 ≤ c.toNat ∧ c.toNat ≤ r.2

end CycleBridge.Text
