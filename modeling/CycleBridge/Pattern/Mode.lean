import CycleBridge.Text.Spaces

/-!
# Modes of a pattern

Flags in a pattern change how what follows them is read, up to the end of the group they stand in.
-/

namespace CycleBridge.Pattern

/-- How a stretch of a pattern is read: whether white space and comments in it are passed over,
whether letters stand for both their cases, and whether it is about characters of all scripts and
not only about bytes. -/
structure Mode where
  spaced : Bool := false
  folded : Bool := false
  wide : Bool := true
  deriving DecidableEq, Repr

namespace Mode

/-- Sets or clears the flag of a letter. Other flags do not matter for what a pattern may hold. -/
def put (on : Bool) (m : Mode) : Char → Mode
  | 'x' => { m with spaced := on }
  | 'i' => { m with folded := on }
  | 'u' => { m with wide := on }
  | _ => m

/-- The mode behind flags: letters to set and, behind a dash, letters to clear. No flag may be named
twice, and a dash needs letters behind it. -/
def change? (m : Mode) (flags : List Char) : Option Mode :=
  if !flags.all "imsUuRx-".toList.contains ∨ ¬ flags.Nodup ∨ flags.getLast? = some '-' then none
  else
    let (on, off) := flags.span (· ≠ '-')
    some (off.foldl (put false) (on.foldl (put true) m))

/-- Whether a single character may stand in a pattern. The other case of a letter is only known in
byte mode. -/
def allowsChar (m : Mode) : Bool := !(m.wide && m.folded)

/-- Whether a character may stand in a class. Classes of bytes hold no others. -/
def allowsInClass (m : Mode) (c : Char) : Bool := m.allowsChar && (m.wide || c.toNat < 0x80)

end Mode

/-- Drops white space and comments; a comment goes from a number sign to the end of its line. -/
def dropRoom (inComment : Bool) : List Char → List Char
  | [] => []
  | c :: s =>
    if inComment then dropRoom (c ≠ '\n') s
    else if Text.isSpace c then dropRoom false s
    else if c = '#' then dropRoom true s
    else c :: s

/-- The pattern from what is next to be read. -/
def skip (m : Mode) (s : List Char) : List Char := if m.spaced then dropRoom false s else s

end CycleBridge.Pattern
