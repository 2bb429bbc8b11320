import CycleBridge.Json.Scan
import CycleBridge.Word

/-!
# Reading JSON: numbers

The text of a number is scanned first and valued afterwards. A whole number that fits a 64-bit word
keeps its exact value; any other number becomes a double.

## Implementation notes

Digits are gathered into a 64-bit significand as long as they fit. From the first whole digit that
does not fit on, whole digits only raise the exponent; a fraction digit that does not fit ends the
gathering. The double is the significand multiplied or divided by a power of ten, each step rounded,
so it may differ from the nearest double in its last bit.
-/

namespace CycleBridge.Json

/-- The text of a number taken apart. -/
structure NumberText where
  negative : Bool
  whole : List Char
  fraction : List Char
  exponent : Option (Bool × List Char)
  deriving DecidableEq, Repr

/-- The value of a number: a whole number of a word's size, a negative whole number by its
magnitude, or a double by its bits. -/
inductive Numeral where
  | natural (n : Nat)
  | negative (magnitude : Nat)
  | floating (bits : UInt64)
  deriving DecidableEq, Repr

/-- A number that is not of the wanted type. -/
def Numeral.found : Numeral → Found
  | natural n => .integer n
  | negative m => .integer (-m)
  | floating bits => .floating bits

namespace NumberText

/-- One digit or more; `atEnd` is the fault of a text that ends instead. -/
def scanDigits (atEnd : Fault) : Reader (List Char)
  | [] => .error atEnd
  | c :: s =>
    if c.isDigit then .ok ((c :: s).span Char.isDigit) else .error .badNumber

/-- The digits before the point: a zero alone, or digits of which the first is none. -/
def scanWhole (atEnd : Fault) : Reader (List Char)
  | '0' :: s => if s.head?.any Char.isDigit then .error .badNumber else .ok (['0'], s)
  | s => scanDigits atEnd s

/-- The digits behind the point, if there is a point. -/
def scanFraction (atEnd : Fault) : Reader (List Char)
  | '.' :: s => scanDigits atEnd s
  | s => .ok ([], s)

/-- The exponent, if there is one: whether it is negative, and its digits. -/
def scanExponent (atEnd : Fault) : Reader (Option (Bool × List Char))
  | c :: s =>
    if c = 'e' ∨ c = 'E' then do
      let (negative, s) := match s with
        | '+' :: s => (false, s)
        | '-' :: s => (true, s)
        | s => (false, s)
      let (digits, s) ← scanDigits atEnd s
      return (some (negative, digits), s)
    else .ok (none, c :: s)
  | [] => .ok (none, [])

/-- The text of a number. -/
def scan (atEnd : Fault) (s : List Char) : Except Fault (NumberText × List Char) := do
  let (negative, s) := match s with
    | '-' :: s => (true, s)
    | s => (false, s)
  let (whole, s) ← scanWhole atEnd s
  let (fraction, s) ← scanFraction atEnd s
  let (exponent, s) ← scanExponent atEnd s
  return ({ negative, whole, fraction, exponent }, s)

/-- The value of a digit. -/
def digitValue (c : Char) : Nat := c.toNat - '0'.toNat

/-- Gathers digits behind a significand as long as it stays within a limit: the significand, and how
many digits are left. -/
def gather (limit : Nat) : Nat → List Char → Nat × Nat
  | significand, [] => (significand, 0)
  | significand, c :: rest =>
    let next := significand * 10 + digitValue c
    if next ≤ limit then gather limit next rest else (significand, rest.length + 1)

/-- The largest exponent that is computed with; what goes beyond it is held there. -/
def exponentLimit : Nat := Nat.pow 2 31 - 1

/-- A power of ten as a double. -/
def powerOfTen (n : Nat) : Float := Float.ofScientific 1 false n

/-- A double divided by ten to the power `k`, in steps of at most 308. -/
def scaleDown (x : Float) (k : Nat) : Float :=
  if k ≤ 308 then x / powerOfTen k
  else if x == 0 then x
  else scaleDown (x / powerOfTen 308) (k - 308)
termination_by k

/-- A significand scaled by a power of ten, as a double. -/
def scale (significand : Nat) (exponent : Int) : Except Fault Float :=
  let x := significand.toUInt64.toFloat
  if exponent < 0 then .ok (scaleDown x exponent.natAbs)
  else if exponent ≤ 308 then
    let y := x * powerOfTen exponent.toNat
    if y.isInf then .error .numberTooLarge else .ok y
  else if x == 0 then .ok x
  else .error .numberTooLarge

/-- The double a text stands for. -/
def toFloat (t : NumberText) : Except Fault Float := do
  let (first, wholeLeft) := gather Word.ceiling 0 t.whole
  let (significand, fractionLeft) := gather Word.ceiling first t.fraction
  let shift : Int := (wholeLeft : Int) - ((t.fraction.length : Int) - fractionLeft)
  let magnitude ← match t.exponent with
    | none => scale significand shift
    | some (negative, digits) =>
      let (e, beyond) := gather exponentLimit 0 digits
      if beyond = 0 then
        scale significand (if negative then shift - e else shift + e)
      else if significand ≠ 0 ∧ !negative then .error .numberTooLarge
      else .ok 0
  return if t.negative then -magnitude else magnitude

/-- Whether a text has neither fraction nor exponent. -/
def isWhole (t : NumberText) : Bool := t.fraction.isEmpty && t.exponent.isNone

/-- The value a text stands for. Minus zero and whole numbers that fit no 64-bit integer are
doubles. -/
def value (t : NumberText) : Except Fault Numeral :=
  let (n, left) := gather Word.ceiling 0 t.whole
  if t.isWhole ∧ left = 0 ∧ (!t.negative ∨ (0 < n ∧ n ≤ Nat.pow 2 63)) then
    .ok (if t.negative then .negative n else .natural n)
  else t.toFloat.map fun x => .floating x.toBits

end NumberText

/-- Whether a number can begin with a character. -/
def startsNumber (c : Char) : Bool := c = '-' || c.isDigit

/-- A number and its value. -/
def readNumeral (s : List Char) : Except Fault (Numeral × List Char) := do
  let (t, s) ← NumberText.scan .endInValue s
  let n ← t.value
  return (n, s)

end CycleBridge.Json
