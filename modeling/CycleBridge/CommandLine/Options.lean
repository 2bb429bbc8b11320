import CycleBridge.Text.Number

/-!
# Options of a command

An option is written with its long name behind two dashes or its letter behind one, and takes one
value: attached to it, behind an equals sign, or as the next argument. Each option may be given
once. Nothing but options may follow a command.
-/

namespace CycleBridge.CommandLine

/-- What is wrong with the arguments. -/
inductive UsageError where
  | noCommand
  | unknownCommand (word : String)
  | unexpected (argument : String)
  | noValue (option : String)
  | repeated (option : String)
  | badValue (option value : String)
  deriving DecidableEq, Repr

/-- The wording of a usage error. -/
def UsageError.message : UsageError → String
  | noCommand => "a command is required"
  | unknownCommand word => s!"unknown command '{word}'"
  | unexpected argument => s!"unexpected argument '{argument}'"
  | noValue option => s!"--{option} needs a value"
  | repeated option => s!"--{option} may be given only once"
  | badValue option value => s!"invalid value '{value}' for --{option}"

/-- An option by its long name and, if it has one, its letter. -/
structure OptionName where
  long : String
  letter : Option Char := none
  deriving DecidableEq, Repr

/-- Whether an argument begins like an option, so that it is no value. A lone dash is a value. -/
def looksLikeOption (argument : String) : Bool :=
  match argument.toList with
  | '-' :: _ :: _ => true
  | _ => false

/-- Takes an argument apart that is an option: the long name of the option, and the value attached
to it. -/
def parseOption (names : List OptionName) (argument : String) :
    Except UsageError (String × Option String) :=
  let unknown := UsageError.unexpected argument
  match argument.toList with
  | '-' :: '-' :: rest =>
    let (name, value) := rest.span (· ≠ '=')
    let long := String.ofList name
    if names.any (·.long = long) then
      .ok (long, if value.isEmpty then none else some (String.ofList (value.drop 1)))
    else .error unknown
  | '-' :: letter :: rest =>
    match names.find? (·.letter = some letter) with
    | none => .error unknown
    | some name =>
      .ok (name.long, match rest with
        | [] => none
        | '=' :: value => some (String.ofList value)
        | value => some (String.ofList value))
  | _ => .error unknown

/-- The options among arguments, in their order, by long name. Two dashes end the options; nothing
may follow them. The first number bounds how many arguments there are. -/
def parseOptions (names : List OptionName) :
    Nat → List (String × String) → List String → Except UsageError (List (String × String))
  | 0, found, _ => .ok found
  | _ + 1, found, [] => .ok found
  | n + 1, found, argument :: rest =>
    if argument = "--" then
      match rest with
      | [] => .ok found
      | extra :: _ => .error (.unexpected extra)
    else do
      let (name, attached) ← parseOption names argument
      let (value, rest) ← match attached, rest with
        | some value, rest => pure (value, rest)
        | none, value :: rest =>
          if looksLikeOption value then throw (.noValue name) else pure (value, rest)
        | none, [] => throw (.noValue name)
      if (found.lookup name).isSome then throw (.repeated name)
      parseOptions names n (found ++ [(name, value)]) rest

/-- All options of a command's arguments. -/
def options (names : List OptionName) (arguments : List String) :
    Except UsageError (List (String × String)) :=
  parseOptions names arguments.length [] arguments

/-- The number given with an option, or its default. -/
def numberOption (found : List (String × String)) (name : String) (default : UInt64) :
    Except UsageError UInt64 :=
  match found.lookup name with
  | none => .ok default
  | some value =>
    match Text.parseNumber? value with
    | some n => .ok n
    | none => .error (.badValue name value)

/-- The path given with an option, if it is given; it must not be empty. -/
def pathOption (found : List (String × String)) (name : String) :
    Except UsageError (Option String) :=
  match found.lookup name with
  | none => .ok none
  | some value => if value.isEmpty then .error (.badValue name value) else .ok (some value)

end CycleBridge.CommandLine
