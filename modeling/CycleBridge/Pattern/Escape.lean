import CycleBridge.Pattern.Mode

/-!
# Escapes in patterns

What stands behind a backslash. Nothing is known of the properties of characters beyond ASCII, so
classes named by a letter and word boundaries are there in byte mode only, and classes that would
hold other bytes than those of ASCII are not there at all.
-/

namespace CycleBridge.Pattern

/-- What an escape stands for. -/
inductive Escaped where
  | char (c : Char)
  | charClass
  | place
  deriving DecidableEq, Repr

/-- The value of a hexadecimal digit. -/
def hexValue? (c : Char) : Option Nat :=
  if c.isDigit then some (c.toNat - '0'.toNat)
  else if 'a' ≤ c ∧ c ≤ 'f' then some (c.toNat - 'a'.toNat + 10)
  else if 'A' ≤ c ∧ c ≤ 'F' then some (c.toNat - 'A'.toNat + 10)
  else none

/-- Reads as many hexadecimal digits as asked for; `value` is that of the digits before. -/
def readHex (m : Mode) (value : Nat) : Nat → List Char → Option (Nat × List Char)
  | 0, s => some (value, s)
  | n + 1, s =>
    match skip m s with
    | [] => none
    | c :: rest => (hexValue? c).bind fun d => readHex m (value * 16 + d) n rest

/-- Reads a character given by its number in so many digits. -/
def readNumbered (m : Mode) (digits : Nat) (s : List Char) : Option (Escaped × List Char) := do
  let (value, rest) ← readHex m 0 digits s
  if value.isValidChar ∧ (m.wide ∨ digits ≠ 2 ∨ value < 0x80) then
    some (.char (Char.ofNat value), rest)
  else none

/-- Reads an escape behind its backslash. -/
def readEscape (m : Mode) : List Char → Option (Escaped × List Char)
  | [] => none
  | c :: rest =>
    if c = 'x' then readNumbered m 2 rest
    else if c = 'u' then readNumbered m 4 rest
    else if c = 'U' then readNumbered m 8 rest
    else if c = 'a' then some (.char '\x07', rest)
    else if c = 'f' then some (.char '\x0c', rest)
    else if c = 't' then some (.char '\t', rest)
    else if c = 'n' then some (.char '\n', rest)
    else if c = 'r' then some (.char '\r', rest)
    else if c = 'v' then some (.char '\x0b', rest)
    else if c = 'A' ∨ c = 'z' then some (.place, rest)
    else if c = 'b' ∨ c = 'B' ∨ c = '<' ∨ c = '>' then
      if m.wide then none else some (.place, rest)
    else if c = 'd' ∨ c = 's' ∨ c = 'w' then
      if m.wide then none else some (.charClass, rest)
    else if c.toNat < 0x80 ∧ !c.isAlphanum then some (.char c, rest)
    else none

end CycleBridge.Pattern
