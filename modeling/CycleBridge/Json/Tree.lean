/-!
# Writing JSON

The values that settings are written as, and the two ways of writing them: on one line without any
blank, or one member a line with two blanks of indentation for each level.
-/

namespace CycleBridge.Json

/-- A value to write. Keys and names are written as they are, so they must need no escapes. -/
inductive Tree where
  | number (n : Nat)
  | name (s : String)
  | object (members : List (String × Tree))

/-- A key or a name between quotes. -/
def quotedName (s : String) : List Char := '"' :: s.toList ++ ['"']

/-- The digits of a number. -/
def digits (n : Nat) : List Char := Nat.toDigits 10 n

/-- A new line with the indentation of a level. -/
def newLine (level : Nat) : List Char := '\n' :: List.replicate (2 * level) ' '

namespace Tree

mutual

/-- A value on one line. -/
def compact : Tree → List Char
  | number n => digits n
  | name s => quotedName s
  | object members => '\x7b' :: compactMembers members ++ ['\x7d']

/-- The members of an object on one line, with commas between them. -/
def compactMembers : List (String × Tree) → List Char
  | [] => []
  | [(key, value)] => quotedName key ++ ':' :: value.compact
  | (key, value) :: rest => quotedName key ++ ':' :: value.compact ++ ',' :: compactMembers rest

end

mutual

/-- A value over several lines; the level is that of the line on which the value begins. -/
def pretty (level : Nat) : Tree → List Char
  | number n => digits n
  | name s => quotedName s
  | object [] => ['\x7b', '\x7d']
  | object (m :: members) =>
    '\x7b' :: prettyMembers (level + 1) (m :: members) ++ newLine level ++ ['\x7d']

/-- The members of an object, each on a new line, with commas between them. -/
def prettyMembers (level : Nat) : List (String × Tree) → List Char
  | [] => []
  | [(key, value)] => newLine level ++ quotedName key ++ [':', ' '] ++ value.pretty level
  | (key, value) :: rest =>
    newLine level ++ quotedName key ++ [':', ' '] ++ value.pretty level ++
      ',' :: prettyMembers level rest

end

end Tree

end CycleBridge.Json
