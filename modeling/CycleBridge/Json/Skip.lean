import CycleBridge.Json.Number
import CycleBridge.Json.Quoted

/-!
# Reading JSON: values that nobody asked for

A value under an unknown key only has to be JSON. Brackets may nest to any depth: the open ones are
kept in a list, and one walk over the text goes through all levels.
-/

namespace CycleBridge.Json

/-- A bracket that is still open. -/
inductive Bracket where
  | list
  | object
  deriving DecidableEq, Repr

namespace Bracket

/-- The character that closes a bracket. -/
def closing : Bracket → Char
  | list => ']'
  | object => '\x7d'

/-- The fault of a text that ends inside a bracket. -/
def endFault : Bracket → Fault
  | list => .endInList
  | object => .endInObject

/-- The fault of an item that is followed by neither a comma nor the closing bracket. -/
def itemFault : Bracket → Fault
  | list => .noCommaOrBracket
  | object => .noCommaOrBrace

end Bracket

/-- A key that nobody asked for, with its colon. -/
def skipKey (s : List Char) : Except Fault (List Char) :=
  match skipBlanks s with
  | [] => .error .endInObject
  | c :: rest => if c = '"' then skipText rest >>= readColon else .error .keyNoString

/-- The text up to the value of the next item of a bracket: in an object its key comes first. -/
def skipItemStart : Bracket → List Char → Except Fault (List Char)
  | .list, s => .ok s
  | .object, s => skipKey s

/-- A value without brackets: the rest behind it, or nothing if a bracket opens. -/
def skipScalar (c : Char) (s : List Char) : Except Fault (List Char) :=
  if c = 'n' then finishWord ['u', 'l', 'l'] s
  else if c = 't' then finishWord ['r', 'u', 'e'] s
  else if c = 'f' then finishWord ['a', 'l', 's', 'e'] s
  else if c = '"' then skipText s
  else if startsNumber c then (NumberText.scan .badNumber (c :: s)).map (·.2)
  else .error .noValue

/-- Where a walk stands: before a value, or inside the innermost bracket, behind an item of it or
right behind its opening. -/
inductive Place where
  | value
  | behindItem
  | behindOpening
  deriving DecidableEq, Repr

/-- Walks to the end of the outermost value. The first number bounds the steps of the walk. -/
def walk : Nat → Place → List Bracket → List Char → Except Fault (List Char)
  | 0, _, _, _ => .error .endInValue
  | _ + 1, .behindItem, [], s => .ok s
  | _ + 1, .behindOpening, [], s => .ok s
  | steps + 1, .value, stack, s =>
    match skipBlanks s with
    | [] => .error .endInValue
    | c :: rest =>
      if c = '[' then walk steps .behindOpening (.list :: stack) rest
      else if c = '\x7b' then walk steps .behindOpening (.object :: stack) rest
      else do walk steps .behindItem stack (← skipScalar c rest)
  | steps + 1, .behindItem, b :: stack, s =>
    match skipBlanks s with
    | [] => .error b.endFault
    | c :: rest =>
      if c = b.closing then walk steps .behindItem stack rest
      else if c = ',' then do walk steps .value (b :: stack) (← skipItemStart b rest)
      else .error b.itemFault
  | steps + 1, .behindOpening, b :: stack, s =>
    match skipBlanks s with
    | [] => .error b.endFault
    | c :: rest =>
      if c = b.closing then walk steps .behindItem stack rest
      else do walk steps .value (b :: stack) (← skipItemStart b (c :: rest))

/-- The text behind one value, whatever the value is. Every two steps of the walk take at least one
character off the text. -/
def skipValue (s : List Char) : Except Fault (List Char) :=
  walk (2 * s.length + 2) .value [] s

end CycleBridge.Json
