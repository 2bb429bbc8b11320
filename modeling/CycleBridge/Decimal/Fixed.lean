import CycleBridge.Decimal.Binary

/-!
# A fixed number of decimal places

The exact value of a double, rounded to a number of places. `roundDiv` is the rounding: to the
nearest whole number, a half to the even neighbour.
-/

namespace CycleBridge.Decimal

/-- The whole number nearest to a quotient, a half going to the even neighbour. -/
def roundDiv (num den : Nat) : Nat :=
  let q := num / den
  let twice := 2 * (num % den)
  if den < twice ∨ (twice = den ∧ q % 2 = 1) then q + 1 else q

/-- A natural number of the unit `1 / 10 ^ places`, as text with that many places. -/
def placed (places units : Nat) : String :=
  let whole := toString (units / Nat.pow 10 places)
  let rest := (Nat.toDigits 10 (units % Nat.pow 10 places)).leftpad places '0'
  if places = 0 then whole else whole ++ "." ++ String.ofList rest

/-- A finite double with a fixed number of places. -/
def fixed (places : Nat) (x : Float) : String :=
  let b := Binary.ofFloat x
  let (num, den) := b.quotient b.significand 0
  (if b.negative then "-" else "") ++ placed places (roundDiv (num * Nat.pow 10 places) den)

/-- The rounded quotient is within half a unit of the quotient. -/
theorem roundDiv_near (num den : Nat) (h : 0 < den) :
    2 * num ≤ 2 * den * roundDiv num den + den ∧ 2 * den * roundDiv num den ≤ 2 * num + den := by
  have hd : num = den * (num / den) + num % den := (Nat.div_add_mod num den).symm
  have hm := Nat.mod_lt num h
  have hs : 2 * den * (num / den + 1) = 2 * (den * (num / den)) + 2 * den := by
    rw [Nat.mul_add, Nat.mul_assoc, Nat.mul_one]
  unfold roundDiv
  simp only
  split
  · rw [hs]; omega
  · rw [Nat.mul_assoc]; omega

end CycleBridge.Decimal
