import CycleBridge.Log.Filter
import CycleBridge.Pattern.Basic
import CycleBridge.Text.Number

/-!
# Log settings

A log filter as text. Its rules stand between commas, each as `component[span{field}]=level`. Every
piece may be left out: a rule is also a level alone, and a rule without a level shows all it is
about. A field is given by its name or, to ask for a value, as `name=pattern`. One rule that cannot
be read makes the whole setting void.
-/

namespace CycleBridge

namespace LogRule

/-- The threshold that a word in capital or small letters or a number names, the word `off` and zero
for none. -/
def threshold? (word : String) : Option (Option Severity) :=
  let levels := [none, some Severity.error, some .warn, some .info, some .debug, some .trace]
  match Text.parseNumber? word with
  | some n => levels[n.toNat]?
  | none => if word.toLower = "off" then some none else (Severity.ofName? word.toLower).map some

/-- Reads what is asked of a field. A value is a number or a pattern; what stands behind a second
equals sign is passed over. -/
def readField? (text : String) : Option LogField :=
  match text.splitOn "=" with
  | name :: value :: _ =>
    if Text.isReal value.toList ∨ isPattern value.toList then some { name, value := some value }
    else none
  | _ => some { name := text }

/-- Where a piece of a rule lies: the bytes from the first number up to the second. -/
abbrev Place := Nat × Nat

/-- The place of characters that begin at a byte. -/
def placeOf (start : Nat) (s : List Char) : Place := (start, start + (String.ofList s).utf8ByteSize)

/-- Where the pieces of a rule lie: the name in front, the span and the field in brackets, and the
level from its beginning. A rule may be a level or a name alone; then it has none of these. -/
structure Pieces where
  name : Option Place := none
  span : Option Place := none
  field : Option Place := none
  level : Option Nat := none

/-- Whether a rule may begin with a character. -/
def mayBegin (c : Char) : Bool :=
  c = '[' || c = '-' || c = ':' || c = '_' || Text.isLetterOrNumeral c

/-- Finds the level that may stand behind brackets, which end at a byte. -/
def cutLevel? (p : Pieces) (start : Nat) : List Char → Option Pieces
  | [] => some p
  | '=' :: _ => some { p with level := some (start + 1) }
  | _ => none

/-- Cuts what begins with brackets at a byte, behind the opening one. Curly brackets without a name
in front of them leave the span open, and must not be empty. -/
def cutScope? (p : Pieces) (start : Nat) (s : List Char) : Option Pieces :=
  let (span, rest) := s.span fun c => c ≠ ']' ∧ c ≠ '\x7b'
  let place := placeOf start span
  match rest with
  | ']' :: rest => cutLevel? { p with span := some place } (place.2 + 1) rest
  | '\x7b' :: rest =>
    let (field, rest) := rest.span (· ≠ '\x7d')
    let fieldPlace := placeOf (place.2 + 1) field
    match rest with
    | '\x7d' :: ']' :: rest =>
      if field.isEmpty then none
      else
        cutLevel?
          { p with
            span := if span.isEmpty then none else some place
            field := some fieldPlace } (fieldPlace.2 + 2) rest
    | _ => none
  | _ => none

/-- Cuts a rule that has no white space around it. -/
def cut? (s : List Char) : Option Pieces :=
  let (name, rest) := s.span fun c => c ≠ '=' ∧ c ≠ '['
  let place := placeOf 0 name
  if !(s.head?.any mayBegin) then none
  else
    match rest with
    | [] => some {}
    | '[' :: rest =>
      cutScope? { name := if name.isEmpty then none else some place } (place.2 + 1) rest
    | _ :: _ => some { name := some place, level := some (place.2 + 1) }

/-- A rule that is one word: a level, or else the name of a component. -/
def ofWord (word : String) : LogRule :=
  match threshold? word with
  | some threshold => { threshold }
  | none => { component := some word }

/-- The text at a place, if whole characters stand there. -/
def textAt? (text : String) (p : Place) : Option String :=
  String.fromUTF8? (text.toUTF8.extract p.1 p.2)

/-- Reads a rule. The places of its pieces are counted without the white space around the rule, but
the pieces are taken from the text that has it, and the level goes on to the end of that: so a
rule with white space in front does not say what it seems to say. -/
def ofText? (text : String) : Option LogRule := do
  let p ← cut? (Text.trim text.toList)
  if p.name.isNone ∧ p.span.isNone ∧ p.field.isNone then
    return ofWord text
  let component ← p.name.mapM (textAt? text)
  let span ← p.span.mapM (textAt? text)
  let field ← (← p.field.mapM (textAt? text)).mapM readField?
  let threshold ← match p.level with
    | none => some (some .trace)
    | some start =>
      let word ← textAt? text (start, text.utf8ByteSize)
      if word.isEmpty then some (some .trace) else threshold? word
  return { component, span, field, threshold }

end LogRule

namespace LogFilter

/-- Reads a setting; nothing between two commas is no rule. -/
def ofText? (text : String) : Option LogFilter := do
  let rules ← ((text.splitOn ",").filter (· ≠ "")).mapM LogRule.ofText?
  return ⟨rules⟩

/-- The filter of a setting, the usual one if it cannot be read. -/
def ofText (text : String) : LogFilter := (ofText? text).getD usual

end LogFilter

end CycleBridge
