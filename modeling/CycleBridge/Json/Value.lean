import CycleBridge.Json.Number
import CycleBridge.Json.Quoted

/-!
# Reading JSON: numbers and names of a wanted type

Where a value of another type stands, it is read as far as it takes to tell what it is.
-/

namespace CycleBridge.Json

/-- What value begins with a character; no more is read than that takes. -/
def readFound (c : Char) (s : List Char) : Except Fault Found :=
  if c = 'n' then (finishWord ['u', 'l', 'l'] s).map fun _ => .null
  else if c = 't' then (finishWord ['r', 'u', 'e'] s).map fun _ => .boolean true
  else if c = 'f' then (finishWord ['a', 'l', 's', 'e'] s).map fun _ => .boolean false
  else if c = '"' then (readString s).map fun r => .text r.1
  else if startsNumber c then (readNumeral (c :: s)).map fun r => r.1.found
  else if c = '[' then .ok .list
  else if c = '\x7b' then .ok .object
  else .error .noValue

/-- The fault of a value of another type than wanted. -/
def wrongType {α : Type} (wanted : String) (c : Char) (s : List Char) : Except Fault α := do
  throw (.wrongType (← readFound c s) wanted)

/-- A whole number below a bound; `wanted` names its type. -/
def readNatural (wanted : String) (bound : Nat) : Reader Nat := fun s =>
  match skipBlanks s with
  | [] => .error .endInValue
  | c :: rest =>
    if startsNumber c then do
      let (n, s) ← readNumeral (c :: rest)
      match n with
      | .natural k => if k < bound then return (k, s) else throw (.wrongValue n.found wanted)
      | .negative _ => throw (.wrongValue n.found wanted)
      | .floating _ => throw (.wrongType n.found wanted)
    else wrongType wanted c rest

/-- A whole number of 32 bits. -/
def readWord32 : Reader UInt32 := fun s =>
  (readNatural "u32" UInt32.size s).map fun (n, rest) => (n.toUInt32, rest)

/-- A whole number of 64 bits. -/
def readWord64 : Reader UInt64 := fun s =>
  (readNatural "u64" UInt64.size s).map fun (n, rest) => (n.toUInt64, rest)

/-- A whole number of 64 bits that counts places. -/
def readSize : Reader UInt64 := fun s =>
  (readNatural "usize" UInt64.size s).map fun (n, rest) => (n.toUInt64, rest)

/-- The value that a name stands for, among the pairs of a table. -/
def chooseName {α : Type} (table : List (String × α)) (name : String) : Except Fault α :=
  match table.lookup name with
  | some a => .ok a
  | none => .error (.unknownChoice name (table.map (·.1)))

/-- The null behind the name of a choice in its long form, and the closing brace. -/
def finishLongChoice (s : List Char) : Except Fault (List Char) :=
  match skipBlanks s with
  | [] => .error .endInValue
  | c :: rest =>
    if c = 'n' then do
      match skipBlanks (← finishWord ['u', 'l', 'l'] rest) with
      | [] => throw .endInObject
      | c :: rest => if c = '\x7d' then return rest else throw .noValue
    else wrongType "unit" c rest

/-- One of the names of a table: the name as a string, or an object whose only key is the name and
whose value is null. -/
def readChoice {α : Type} (table : List (String × α)) : Reader α := fun s =>
  match skipBlanks s with
  | [] => .error .endInValue
  | c :: rest =>
    if c = '"' then do
      let (name, s) ← readString rest
      return (← chooseName table name, s)
    else if c = '\x7b' then do
      match ← nextKey true rest with
      | (false, _) => throw .noValue
      | (true, s) =>
        let (name, s) ← readString s
        let a ← chooseName table name
        return (a, ← finishLongChoice (← readColon s))
    else .error .noValue

end CycleBridge.Json
