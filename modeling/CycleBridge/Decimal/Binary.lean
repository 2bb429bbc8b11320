/-!
# Binary floating point, exactly

A finite double is plus or minus `significand * 2 ^ exponent`. Decimal text is computed from these
two integers, never from rounded arithmetic.
-/

namespace CycleBridge.Decimal

/-- A finite double taken apart. -/
structure Binary where
  negative : Bool
  significand : Nat
  exponent : Int
  deriving DecidableEq, Repr

namespace Binary

/-- The parts of a double given by its bits; a biased exponent of zero means that the leading bit
of the significand is absent. -/
def ofBits (bits : UInt64) : Binary :=
  let n := bits.toNat
  let fraction : Nat := n % Nat.pow 2 52
  let biased : Nat := n / Nat.pow 2 52 % Nat.pow 2 11
  { negative := Nat.pow 2 63 ≤ n
    significand := if biased = 0 then fraction else Nat.pow 2 52 + fraction
    exponent := max (biased : Int) 1 - 1075 }

/-- The parts of a double. -/
def ofFloat (x : Float) : Binary := ofBits x.toBits

/-- Whether the next smaller double is only half as far away as the next larger one: so it is at
the first double of a power of two. -/
def isLowerGapHalved (b : Binary) : Bool := b.significand = Nat.pow 2 52 ∧ -1074 < b.exponent

/-- The magnitude as a quotient of natural numbers, with the significand replaced by `m` and the
exponent lowered by `drop`. -/
def quotient (b : Binary) (m drop : Nat) : Nat × Nat :=
  let e := b.exponent - drop
  (m * Nat.pow 2 e.toNat, Nat.pow 2 (-e).toNat)

end Binary

end CycleBridge.Decimal
