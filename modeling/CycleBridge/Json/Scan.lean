import CycleBridge.Json.Fault

/-!
# Reading JSON: blanks, words and marks

A reader takes characters off the front of a text and returns what they stand for and the rest, or
the first fault.
-/

namespace CycleBridge.Json

/-- Takes a value off the front of a text. -/
abbrev Reader (α : Type) := List Char → Except Fault (α × List Char)

/-- The four blanks of JSON. -/
def isBlank (c : Char) : Bool := c = ' ' || c = '\n' || c = '\t' || c = '\r'

/-- The text from its first character that is no blank. -/
def skipBlanks (s : List Char) : List Char := s.dropWhile isBlank

/-- Takes the remaining letters of a word off the front of a text. -/
def finishWord : List Char → List Char → Except Fault (List Char)
  | [], s => .ok s
  | _ :: _, [] => .error .endInValue
  | w :: ws, c :: s => if c = w then finishWord ws s else .error .noWord

/-- The colon between a key and its value. -/
def readColon (s : List Char) : Except Fault (List Char) :=
  match skipBlanks s with
  | [] => .error .endInObject
  | c :: rest => if c = ':' then .ok rest else .error .noColon

/-- Finds the opening quote of the next key of an object, or its end. Behind the first key a comma
comes before each further one. -/
def nextKey (isFirst : Bool) (s : List Char) : Except Fault (Bool × List Char) :=
  match skipBlanks s with
  | [] => .error .endInObject
  | c :: rest =>
    if c = '\x7d' then .ok (false, rest)
    else if isFirst then if c = '"' then .ok (true, rest) else .error .keyNoString
    else if c = ',' then
      match skipBlanks rest with
      | [] => .error .endInValue
      | c :: rest =>
        if c = '"' then .ok (true, rest)
        else if c = '\x7d' then .error .commaAtEnd
        else .error .keyNoString
    else .error .noCommaOrBrace

@[simp] theorem skipBlanks_blank {c : Char} (h : isBlank c = true) (s : List Char) :
    skipBlanks (c :: s) = skipBlanks s := by
  simp [skipBlanks, h]

@[simp] theorem skipBlanks_mark {c : Char} (h : isBlank c = false) (s : List Char) :
    skipBlanks (c :: s) = c :: s := by
  simp [skipBlanks, h]

/-- A word followed by anything is taken off whole. -/
theorem finishWord_append (w s : List Char) : finishWord w (w ++ s) = .ok s := by
  induction w with
  | nil => rfl
  | cons c rest ih => simpa [finishWord] using ih

end CycleBridge.Json
