import CycleBridge.Decimal.Binary

/-!
# The shortest decimal of a double

Among all decimals that are read back as a given double, the shortest ones are those on the coarsest
decimal grid that has any; of these the one nearest to the double is taken. All comparisons are made
on natural numbers.

## Implementation notes

The reals that are read back as a double form an interval around it, which includes its ends exactly
if the significand is even. On each grid only the two neighbours of the double need a test: when a
point of the grid lies in the interval, so does one of them.
-/

namespace CycleBridge.Decimal

/-- A decimal `value * 10 ^ exponent`. -/
structure Digits where
  value : Nat
  exponent : Int
  deriving DecidableEq, Repr

namespace Digits

/-- How many digits a decimal has. -/
def length (d : Digits) : Nat := (Nat.toDigits 10 d.value).length

/-- The power of ten of the leading digit. -/
def magnitude (d : Digits) : Int := d.exponent + d.length - 1

/-- Moves zeros at the end of the digits into the exponent, at most as many as the first number
says. -/
def dropZeros : Nat → Digits → Digits
  | 0, d => d
  | n + 1, d =>
    if d.value ≠ 0 ∧ d.value % 10 = 0 then dropZeros n ⟨d.value / 10, d.exponent + 1⟩ else d

end Digits

/-- Compares `a * 10 ^ k` with the quotient `num / den`. -/
def compareScaled (a : Nat) (k : Int) (q : Nat × Nat) : Ordering :=
  compare (a * Nat.pow 10 k.toNat * q.2) (q.1 * Nat.pow 10 (-k).toNat)

/-- How often a quotient below one must be multiplied by ten to reach one; the first number limits
the search. -/
def leastShift : Nat → Nat → Nat → Nat
  | 0, _, _ => 0
  | n + 1, num, den => if den ≤ num then 0 else leastShift n (num * 10) den + 1

/-- The power of ten of the leading digit of a positive quotient. -/
def leadingPower (q : Nat × Nat) : Int :=
  if q.2 ≤ q.1 then (Nat.toDigits 10 (q.1 / q.2)).length - 1
  else -(leastShift 400 q.1 q.2 : Nat)

namespace Binary

/-- Whether `a * 10 ^ k` is read back as the magnitude of a double. -/
def readsBack (b : Binary) (a : Nat) (k : Int) : Bool :=
  let low := b.quotient (if b.isLowerGapHalved then 4 * b.significand - 1
    else 4 * b.significand - 2) 2
  let high := b.quotient (4 * b.significand + 2) 2
  let fromLow := compareScaled a k low
  let fromHigh := compareScaled a k high
  if b.significand % 2 = 0 then fromLow.isGE && fromHigh.isLE else fromLow.isGT && fromHigh.isLT

/-- The point of the grid `10 ^ k` that is nearest to a double among those that are read back as
it; of two equally near ones the even one. -/
def nearestOn (b : Binary) (k : Int) : Option Digits :=
  let (num, den) := b.quotient b.significand 0
  let scaledNum := num * Nat.pow 10 (-k).toNat
  let scaledDen := den * Nat.pow 10 k.toNat
  let below := scaledNum / scaledDen
  let twice := 2 * (scaledNum % scaledDen)
  let preferUpper := scaledDen < twice ∨ (twice = scaledDen ∧ below % 2 = 1)
  match b.readsBack below k, b.readsBack (below + 1) k with
  | true, true => some ⟨if preferUpper then below + 1 else below, k⟩
  | true, false => some ⟨below, k⟩
  | false, true => some ⟨below + 1, k⟩
  | false, false => none

/-- The shortest decimal that is read back as the magnitude of a double. -/
def shortest (b : Binary) : Digits :=
  if b.significand = 0 then ⟨0, 0⟩
  else
    let top := leadingPower (b.quotient b.significand 0)
    let grids := (List.range 17).map fun (n : Nat) => top - n
    match grids.findSome? b.nearestOn with
    | some d => d.dropZeros 17
    | none => ⟨b.significand, b.exponent⟩

end Binary

end CycleBridge.Decimal
