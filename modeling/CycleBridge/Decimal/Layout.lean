import CycleBridge.Decimal.Shortest

/-!
# Layouts of decimal text

How a shortest decimal is written: between two powers of ten positionally, beyond them with an
exponent.
-/

namespace CycleBridge.Decimal

/-- The choice of a layout: the range of leading powers that is written positionally. -/
structure Layout where
  positionalFrom : Int
  positionalTo : Int
  deriving DecidableEq, Repr

namespace Layout

/-- Digits with a point after the first `n`, filled up with zeros on either side. -/
def pointed (digits : List Char) (n : Int) : List Char :=
  if n ≤ 0 then
    ['0', '.'] ++ List.replicate (-n).toNat '0' ++ digits
  else
    let whole := digits.take n.toNat
    let fraction := digits.drop n.toNat
    whole ++ List.replicate (n.toNat - whole.length) '0' ++ ['.'] ++
      (if fraction.isEmpty then ['0'] else fraction)

/-- Digits with a point after the first one, and the power of ten that belongs there; it always has
a sign, and as few digits as it needs. -/
def scientific (digits : List Char) (power : Int) : List Char :=
  let mantissa := match digits with
    | d :: e :: rest => d :: '.' :: e :: rest
    | short => short
  let sign := if power < 0 then '-' else '+'
  mantissa ++ ['e', sign] ++ Nat.toDigits 10 power.natAbs

/-- The text of a decimal under a layout. -/
def write (layout : Layout) (d : Digits) : String :=
  let digits := Nat.toDigits 10 d.value
  let power := d.magnitude
  String.ofList <|
    if layout.positionalFrom ≤ power ∧ power ≤ layout.positionalTo then pointed digits (power + 1)
    else scientific digits power

/-- The text of a finite double under a layout, in as few digits as read back as it. -/
def writeFloat (layout : Layout) (x : Float) : String :=
  let b := Binary.ofFloat x
  (if b.negative then "-" else "") ++ layout.write b.shortest

end Layout

end CycleBridge.Decimal
