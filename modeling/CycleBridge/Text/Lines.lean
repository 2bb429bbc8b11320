/-!
# Lines

A text cut into lines. A line ends with a line feed, or with a carriage return and a line feed, and
what stands behind the last of these is a line only if it is not empty.
-/

namespace CycleBridge.Text

/-- A line without the carriage return at its end. -/
def dropReturn (s : List Char) : List Char := if s.getLast? = some '\r' then s.dropLast else s

/-- The lines of a text that begins with the given characters of an open line. -/
def linesFrom (opened : List Char) : List Char → List (List Char)
  | [] => if opened.isEmpty then [] else [opened]
  | c :: s => if c = '\n' then dropReturn opened :: linesFrom [] s else linesFrom (opened ++ [c]) s

/-- The lines of a text. -/
def lines (s : String) : List String := (linesFrom [] s.toList).map String.ofList

end CycleBridge.Text
