import CycleBridge.Json.Skip
import CycleBridge.Json.Value

/-!
# Reading JSON: records

A record has fields in a fixed order, each with a default. It is written as an object, in which any
field may be left out, any order is right and unknown keys are passed over; or as a list of the
first so many fields.
-/

namespace CycleBridge.Json

/-- A field of a record: its key, and how a value is read into the record. -/
structure Field (α : Type) where
  key : String
  read : α → Reader α

/-- The form of a record: its name in messages, the record of all defaults and the fields. -/
structure Form (α : Type) where
  title : String
  defaults : α
  fields : List (Field α)

namespace Form

variable {α : Type}

/-- The field with a key. -/
def field? (form : Form α) (key : String) : Option (Field α) :=
  form.fields.find? (·.key = key)

/-- One member of an object, from behind the opening quote of its key: the record with the value in
it, the keys seen so far, and the rest. -/
def readMember (form : Form α) (seen : List String) (a : α) (s : List Char) :
    Except Fault (α × List String × List Char) := do
  let (key, s) ← readString s
  match form.field? key with
  | some f =>
    if key ∈ seen then throw (.repeatedField key)
    let (a, s) ← f.read a (← readColon s)
    return (a, key :: seen, s)
  | none => return (a, seen, ← skipValue (← readColon s))

/-- The members of an object up to its end. The first number bounds how many there are. -/
def readMembers (form : Form α) : Nat → List String → Bool → α → Reader α
  | 0, _, _, _, _ => .error .endInObject
  | n + 1, seen, isFirst, a, s => do
    match ← nextKey isFirst s with
    | (false, s) => return (a, s)
    | (true, s) =>
      let (a, seen, s) ← form.readMember seen a s
      readMembers form n seen false a s

/-- The end of a list of which all wanted elements are read. -/
def finishList (s : List Char) : Except Fault (List Char) :=
  match skipBlanks s with
  | [] => .error .endInList
  | c :: rest =>
    if c = ']' then .ok rest
    else if c = ',' ∧ (skipBlanks rest).head? = some ']' then .error .commaAtEnd
    else .error .leftover

/-- Finds the next element of a list, or its end. -/
def nextElement (isFirst : Bool) (s : List Char) : Except Fault (Bool × List Char) :=
  match skipBlanks s with
  | [] => .error .endInList
  | c :: rest =>
    if c = ']' then .ok (false, rest)
    else if isFirst then .ok (true, c :: rest)
    else if c = ',' then
      match skipBlanks rest with
      | [] => .error .endInValue
      | c :: rest => if c = ']' then .error .commaAtEnd else .ok (true, c :: rest)
    else .error .noCommaOrBracket

/-- The elements of a list as values of the fields, in their order. -/
def readElements : List (Field α) → Bool → α → Reader α
  | [], _, a, s => do return (a, ← finishList s)
  | f :: fields, isFirst, a, s => do
    match ← nextElement isFirst s with
    | (false, s) => return (a, s)
    | (true, s) =>
      let (a, s) ← f.read a s
      readElements fields false a s

/-- A record in either way of writing it. -/
def read (form : Form α) : Reader α := fun s =>
  match skipBlanks s with
  | [] => .error .endInValue
  | c :: rest =>
    if c = '\x7b' then form.readMembers (rest.length + 1) [] true form.defaults rest
    else if c = '[' then readElements form.fields true form.defaults rest
    else wrongType form.title c rest

/-- A text that is one record and nothing else. -/
def readDocument (form : Form α) (text : String) : Except Fault α := do
  let (a, rest) ← form.read text.toList
  if (skipBlanks rest).isEmpty then return a else throw .leftover

end Form

end CycleBridge.Json
