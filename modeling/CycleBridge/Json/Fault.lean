import CycleBridge.Decimal.Layout
import CycleBridge.Text.Quoted

/-!
# What can be wrong with a JSON text

A fault is a cause. Some causes are that the text ends too soon, some that it is no JSON, some that
it is JSON but not what was asked for. The wording is a function of the cause.
-/

namespace CycleBridge.Json

/-- What stands in a text where something else was asked for. A number with fraction or exponent is
kept by its bits as a double. -/
inductive Found where
  | null
  | boolean (value : Bool)
  | integer (value : Int)
  | floating (bits : UInt64)
  | text (value : String)
  | list
  | object
  deriving DecidableEq, Repr

/-- How doubles stand in messages: positional from `1e-5` up to below `1e16`. -/
def floatLayout : Decimal.Layout := ⟨-5, 15⟩

/-- How a found value is called in messages. -/
def Found.describe : Found → String
  | null => "null"
  | boolean b => s!"boolean `{b}`"
  | integer n => s!"integer `{n}`"
  | floating bits => s!"floating point `{floatLayout.writeFloat (Float.ofBits bits)}`"
  | text s => s!"string {Text.quoted s}"
  | list => "sequence"
  | object => "map"

/-- A cause of failure. -/
inductive Fault where
  | endInValue
  | endInString
  | endInList
  | endInObject
  | noValue
  | noWord
  | badNumber
  | numberTooLarge
  | keyNoString
  | noColon
  | noCommaOrBrace
  | noCommaOrBracket
  | commaAtEnd
  | leftover
  | badEscape
  | halfPair
  | lonePart
  | controlCharacter
  | wrongType (found : Found) (wanted : String)
  | wrongValue (found : Found) (wanted : String)
  | unknownChoice (name : String) (choices : List String)
  | repeatedField (name : String)
  deriving DecidableEq, Repr

/-- The three sorts of faults: the text is no JSON, it holds something not asked for, or it ends too
soon. -/
inductive FaultSort where
  | grammar
  | content
  | shortness
  deriving DecidableEq, Repr

namespace Fault

/-- The sort of a fault. -/
def sort : Fault → FaultSort
  | endInValue | endInString | endInList | endInObject => .shortness
  | wrongType .. | wrongValue .. | unknownChoice .. | repeatedField .. => .content
  | _ => .grammar

/-- Names between back quotes, separated by commas. -/
def nameList (names : List String) : String :=
  ", ".intercalate (names.map fun name => s!"`{name}`")

/-- The wording of a fault. -/
def message : Fault → String
  | endInValue => "EOF while parsing a value"
  | endInString => "EOF while parsing a string"
  | endInList => "EOF while parsing a list"
  | endInObject => "EOF while parsing an object"
  | noValue => "expected value"
  | noWord => "expected ident"
  | badNumber => "invalid number"
  | numberTooLarge => "number out of range"
  | keyNoString => "key must be a string"
  | noColon => "expected `:`"
  | noCommaOrBrace => "expected `,` or `\x7d`"
  | noCommaOrBracket => "expected `,` or `]`"
  | commaAtEnd => "trailing comma"
  | leftover => "trailing characters"
  | badEscape => "invalid escape"
  | halfPair => "unexpected end of hex escape"
  | lonePart => "lone leading surrogate in hex escape"
  | controlCharacter => "control character (\\u0000-\\u001F) found while parsing a string"
  | wrongType found wanted => s!"invalid type: {found.describe}, expected {wanted}"
  | wrongValue found wanted => s!"invalid value: {found.describe}, expected {wanted}"
  | unknownChoice name choices => s!"unknown variant `{name}`, expected one of {nameList choices}"
  | repeatedField name => s!"duplicate field `{name}`"

end Fault

end CycleBridge.Json
