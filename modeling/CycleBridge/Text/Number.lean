/-!
# Numbers in settings and options

Whole numbers with their value, and the form of real numbers.
-/

namespace CycleBridge.Text

/-- A decimal number of at most 64 bits; a plus sign may stand in front. -/
def parseNumber? (value : String) : Option UInt64 :=
  let digits := match value.toList with
    | '+' :: rest => rest
    | rest => rest
  if digits.isEmpty ∨ !digits.all Char.isDigit then none
  else
    let n : Nat := digits.foldl (fun n c => n * 10 + (c.toNat - '0'.toNat)) 0
    if n < UInt64.size then some n.toUInt64 else none

/-- Whether a text is a decimal number without a sign: digits with at most one point among, before
or behind them, and possibly an exponent. -/
def isUnsignedDecimal (s : List Char) : Bool :=
  let (whole, rest) := s.span Char.isDigit
  let (fraction, rest) := match rest with
    | '.' :: rest => rest.span Char.isDigit
    | rest => ([], rest)
  let exponent := match rest with
    | [] => true
    | e :: '+' :: digits | e :: '-' :: digits | e :: digits =>
      (e = 'e' || e = 'E') && !digits.isEmpty && digits.all Char.isDigit
  !(whole.isEmpty && fraction.isEmpty) && exponent

/-- Whether a text is a real number: a decimal number, infinity or no number, with a sign or
without. -/
def isReal (s : List Char) : Bool :=
  let body := match s with
    | '+' :: rest | '-' :: rest => rest
    | rest => rest
  isUnsignedDecimal body || (String.ofList body).toLower ∈ ["inf", "infinity", "nan"]

end CycleBridge.Text
