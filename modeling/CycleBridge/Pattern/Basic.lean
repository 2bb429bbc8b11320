import CycleBridge.Pattern.Class
import CycleBridge.Text.Numerals

/-!
# Patterns

Which texts are search patterns. Patterns are made of characters, escapes, classes, groups, choices
and repetitions. There are no repetitions with a count: these need curly brackets, and the settings
that hold patterns have another use for them.
-/

namespace CycleBridge.Pattern

/-- How deep a pattern may be nested. -/
def maxDepth : Nat := 250

/-- A choice as far as it is read: how deep its finished branches are nested, if there are any, how
many items the open branch has, how deep the deepest of them is, and how deep the last one if it may
be repeated. -/
structure OpenChoice where
  finished : Option Nat := none
  count : Nat := 0
  depth : Nat := 0
  last : Option Nat := none

namespace OpenChoice

/-- Adds an item that is nested so deep. -/
def add (b : OpenChoice) (depth : Nat) : OpenChoice :=
  { b with count := b.count + 1, depth := max b.depth depth, last := some depth }

/-- Adds flags, which cannot be repeated. -/
def addFlags (b : OpenChoice) : OpenChoice := { b with count := b.count + 1, last := none }

/-- Repeats the last item. -/
def repeatLast? (b : OpenChoice) : Option OpenChoice :=
  b.last.map fun depth => { b with depth := max b.depth (depth + 1), last := some (depth + 1) }

/-- How deep the open branch is nested. Several items in a row count as one level. -/
def branchDepth (b : OpenChoice) : Nat := if b.count ≥ 2 then b.depth + 1 else b.depth

/-- Finishes the open branch and opens the next. -/
def next (b : OpenChoice) : OpenChoice :=
  { finished := some (max (b.finished.getD 0) b.branchDepth) }

/-- How deep the whole choice is nested. Several branches count as one level. -/
def closed (b : OpenChoice) : Nat :=
  match b.finished with
  | none => b.branchDepth
  | some depth => max depth b.branchDepth + 1

end OpenChoice

/-- Whether a text is the name of a group. -/
def isGroupName : List Char → Bool
  | [] => false
  | c :: s =>
    (c = '_' || Text.isLetter c) &&
      s.all fun c => c = '_' || c = '.' || c = '[' || c = ']' || Text.isLetterOrNumeral c

/-- What an opening bracket begins: a group, with a name or not and in a mode of its own, or flags
for what follows. -/
inductive Opening where
  | group (name : Option (List Char)) (mode : Mode)
  | flags (mode : Mode)

/-- Reads the name of a group to its closing bracket. -/
def readName (m : Mode) (s : List Char) : Option (Opening × List Char) :=
  let (name, rest) := s.span (· ≠ '>')
  if rest.isEmpty ∨ !isGroupName name then none else some (.group (some name) m, rest.drop 1)

/-- Reads the beginning of a group behind its bracket. -/
def readOpening (m : Mode) (s : List Char) : Option (Opening × List Char) :=
  match skip m s with
  | '?' :: 'P' :: '<' :: rest | '?' :: '<' :: rest => readName m rest
  | '?' :: rest =>
    let (flags, rest) := rest.span fun c => c ≠ ':' ∧ c ≠ ')'
    match m.change? flags, rest with
    | some mode, ':' :: rest => some (.group none mode, rest)
    | some mode, ')' :: rest => if flags.isEmpty then none else some (.flags mode, rest)
    | _, _ => none
  | rest => some (.group none m, rest)

/-- Reads a pattern to its end and tells how deep it is nested. The names of the groups so far are
`names`; the groups around are `outer`, the innermost first, each with the mode to go back to; and
the first number bounds the steps. -/
def readChoice : Nat → Mode → List (List Char) → List (Mode × OpenChoice) → OpenChoice →
    List Char → Option Nat
  | 0, _, _, _, _, _ => none
  | n + 1, m, names, outer, b, s =>
    match skip m s with
    | [] => if outer.isEmpty then some b.closed else none
    | '(' :: rest => do
      match ← readOpening m rest with
      | (.flags mode, rest) => readChoice n mode names outer b.addFlags rest
      | (.group none mode, rest) => readChoice n mode names ((m, b) :: outer) {} rest
      | (.group (some name) mode, rest) =>
        if names.contains name then none
        else readChoice n mode (name :: names) ((m, b) :: outer) {} rest
    | ')' :: rest =>
      match outer with
      | [] => none
      | (mode, q) :: outer => readChoice n mode names outer (q.add (b.closed + 1)) rest
    | '|' :: rest => readChoice n m names outer b.next rest
    | '[' :: rest => do
      let (p, rest) ← openClass m rest
      let (depth, rest) ← readClass m (rest.length + 1) [] p rest
      readChoice n m names outer (b.add (depth + 1)) rest
    | '\x7b' :: _ => none
    | '\\' :: rest => do
      match ← readEscape m rest with
      | (.char _, rest) => if m.allowsChar then readChoice n m names outer (b.add 0) rest else none
      | (_, rest) => readChoice n m names outer (b.add 0) rest
    | c :: rest =>
      if c = '?' ∨ c = '*' ∨ c = '+' then do
        let rest := if rest.head? = some '?' then rest.drop 1 else rest
        readChoice n m names outer (← b.repeatLast?) rest
      else if c = '^' ∨ c = '$' then readChoice n m names outer (b.add 0) rest
      else if c = '.' then if m.wide then readChoice n m names outer (b.add 0) rest else none
      else if m.allowsChar then readChoice n m names outer (b.add 0) rest
      else none

end Pattern

/-- Whether a text is a search pattern. -/
def isPattern (s : List Char) : Bool :=
  (Pattern.readChoice (s.length + 1) {} [] [] {} s).any (· ≤ Pattern.maxDepth)

end CycleBridge
