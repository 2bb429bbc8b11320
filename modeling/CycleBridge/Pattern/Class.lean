import CycleBridge.Pattern.Escape

/-!
# Character classes in patterns

Classes in square brackets: single characters, ranges, named classes of ASCII, classes within
classes, and operations between all of these. A class in byte mode cannot be turned around, because
then it would hold other bytes than those of ASCII.
-/

namespace CycleBridge.Pattern

/-- The names of the classes of ASCII. -/
def asciiNames : List String :=
  ["alnum", "alpha", "ascii", "blank", "cntrl", "digit", "graph", "lower", "print", "punct",
    "space", "upper", "word", "xdigit"]

/-- Reads a named class behind its opening bracket: whether it is turned around, and the rest. -/
def readNamed? : List Char → Option (Bool × List Char)
  | ':' :: s =>
    let (isTurned, s) := match s with
      | '^' :: s => (true, s)
      | s => (false, s)
    let (name, rest) := s.span (· ≠ ':')
    match rest with
    | ':' :: ']' :: rest =>
      if asciiNames.contains (String.ofList name) then some (isTurned, rest) else none
    | _ => none
  | _ => none

/-- A class, or what stands in it between two operations, as far as it is read: whether it has just
begun, how deep what stands before the last operation is nested, how many items came since, and how
deep the deepest of them is. -/
structure OpenClass where
  isFresh : Bool := true
  before : Option Nat := none
  count : Nat := 0
  depth : Nat := 0

namespace OpenClass

/-- Adds an item that is nested so deep. -/
def add (p : OpenClass) (depth : Nat) : OpenClass :=
  { p with isFresh := false, count := p.count + 1, depth := max p.depth depth }

/-- How deep a class is nested that ends here. Several items together count as one level, and so
does each operation. -/
def closed (p : OpenClass) : Nat :=
  let depth := if p.count ≥ 2 then p.depth + 1 else p.depth
  match p.before with
  | none => depth
  | some before => max before depth + 1

/-- The class behind an operation. -/
def operate (p : OpenClass) : OpenClass := { isFresh := false, before := some p.closed }

end OpenClass

/-- Whether a dash stands for itself, as told by what follows it: the end of the class, or a second
dash. In spaced mode white space does not count, nor does the first number sign. -/
def isPlainDash (m : Mode) (s : List Char) : Bool :=
  let ends (s : List Char) := s.head? = some ']' || s.head? = some '-'
  if m.spaced then
    match s.dropWhile Text.isSpace with
    | [] => ends s
    | '#' :: rest =>
      match rest.dropWhile Text.isSpace with
      | [] => ends s
      | rest => ends rest
    | rest => ends rest
  else ends s

/-- Reads a character or an escape in a class. -/
def readPlain (m : Mode) : List Char → Option (Escaped × List Char)
  | [] => none
  | '\\' :: rest => readEscape m rest
  | c :: rest => some (.char c, rest)

/-- Reads a single item of a class, or a range of characters that does not run backwards. -/
def readRange (m : Mode) (s : List Char) : Option (List Char) := do
  let (first, rest) ← readPlain m s
  let single : Option (List Char) := match first with
    | .char c => if m.allowsInClass c then some rest else none
    | .charClass => some rest
    | .place => none
  match skip m rest with
  | [] => none
  | '-' :: after =>
    if isPlainDash m after then single
    else
      match first, ← readPlain m (skip m after) with
      | .char a, (.char b, rest) =>
        if a ≤ b ∧ m.allowsInClass a ∧ m.allowsInClass b then some rest else none
      | _, _ => none
  | _ => single

/-- Reads the beginning of a class behind its bracket. -/
def openClass (m : Mode) (s : List Char) : Option (OpenClass × List Char) :=
  match skip m s with
  | '^' :: rest => if m.wide then some ({}, rest) else none
  | rest => some ({}, rest)

/-- Reads a class to its end and tells how deep it is nested. The classes around it are `outer`, the
innermost first, and the first number bounds the steps. -/
def readClass (m : Mode) : Nat → List OpenClass → OpenClass → List Char →
    Option (Nat × List Char)
  | 0, _, _, _ => none
  | n + 1, outer, p, s =>
    match skip m s with
    | [] => none
    | c :: rest =>
      if p.isFresh && (c = '-' || (c = ']' && p.count = 0)) then
        if m.allowsChar then readClass m n outer { p.add 0 with isFresh := c = '-' } rest else none
      else if c = ']' then
        match outer with
        | [] => some (p.closed, rest)
        | q :: outer => readClass m n outer (q.add (p.closed + 1)) rest
      else if c = '[' then
        match readNamed? rest with
        | some (isTurned, rest) =>
          if m.allowsChar ∧ (m.wide ∨ !isTurned) then readClass m n outer (p.add 0) rest else none
        | none => do
          let (q, rest) ← openClass m rest
          readClass m n (p :: outer) q rest
      else if (c = '&' ∨ c = '-' ∨ c = '~') ∧ rest.head? = some c then
        readClass m n outer p.operate (rest.drop 1)
      else do readClass m n outer (p.add 0) (← readRange m (c :: rest))

end CycleBridge.Pattern
