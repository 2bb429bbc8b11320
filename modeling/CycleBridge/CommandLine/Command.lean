import CycleBridge.CommandLine.Options
import CycleBridge.Log.Filter
import CycleBridge.Settings.Load
import CycleBridge.Settings.Write
import CycleBridge.Smoke.Result

/-!
# Commands

What the program can be asked to do, how its arguments ask for it, and what it answers. The file a
command needs is handed in, so answering a command is a function.
-/

namespace CycleBridge.CommandLine

/-- A command with its options; a path leads to settings other than the defaults. -/
inductive Command where
  | version
  | smoke (path : Option String) (setup : SmokeSetup)
  | config (path : Option String)
  deriving DecidableEq, Repr

/-- What a command writes to standard output, the events on the way, what it complains of at its
end, and the exit code. -/
structure Response where
  code : UInt8 := 0
  stdout : String := ""
  events : List Event := []
  complaints : List String := []

/-- The program's name and version. -/
def versionLine : String := "membridge 0.3.0"

/-- The exit code of wrong usage. -/
def usageCode : UInt8 := 2

namespace Command

/-- The option for a settings file. -/
def pathName : OptionName := ⟨"config", some 'c'⟩

/-- The options of a smoke run. -/
def smokeNames : List OptionName :=
  [pathName, ⟨"requests", some 'n'⟩, ⟨"max-cycles", none⟩, ⟨"max-inflight", none⟩,
    ⟨"stride", none⟩, ⟨"stall-limit", none⟩]

/-- The smoke run that arguments ask for. -/
def parseSmoke (arguments : List String) : Except UsageError Command := do
  let found ← options smokeNames arguments
  let usual : SmokeSetup := {}
  let path ← pathOption found "config"
  let requests ← numberOption found "requests" usual.requests.toUInt64
  let maxCycles ← numberOption found "max-cycles" usual.maxCycles.toUInt64
  let maxInFlight ← numberOption found "max-inflight" usual.maxInFlight.toUInt64
  let stride ← numberOption found "stride" usual.stride
  let stallLimit ← numberOption found "stall-limit" usual.stallLimit.toUInt64
  return .smoke path
    { requests := requests.toNat
      maxCycles := maxCycles.toNat
      maxInFlight := maxInFlight.toNat
      stride
      stallLimit := stallLimit.toNat }

/-- The display of settings that arguments ask for. -/
def parseConfig (arguments : List String) : Except UsageError Command := do
  let found ← options [pathName] arguments
  return .config (← pathOption found "config")

/-- The command that arguments ask for. The version is told as soon as it is asked for, whatever
follows. -/
def parse : List String → Except UsageError Command
  | [] => .error .noCommand
  | word :: rest =>
    if word = "--version" ∨ word.toList.take 2 = ['-', 'V'] then .ok .version
    else if word = "smoke" then parseSmoke rest
    else if word = "config" then parseConfig rest
    else .error (.unknownCommand word)

/-- The path of the settings file that a command needs. -/
def path? : Command → Option String
  | version => none
  | smoke path _ => path
  | config path => path

/-- The response to a failure. -/
def failed (message : String) : Response := { code := 1, complaints := ["error: " ++ message] }

/-- Runs a smoke setup. -/
def runSmoke (setup : SmokeSetup) (settings : Settings) : Response :=
  match settings.build with
  | .error e => failed e.message
  | .ok b =>
    let r := SmokeResult.ofBridge setup b
    let v := r.verdict
    if v.isSuccess then
      { stdout := r.text setup ++ v.message ++ "\n", events := r.events }
    else
      { code := 1, stdout := r.text setup, events := r.events, complaints := [v.message] }

/-- Shows settings, and the clock ratios of the bridge built from them. The settings are shown even
if no bridge can be built. -/
def showConfig (settings : Settings) : Response :=
  let shown := settings.toPretty ++ "\n"
  match settings.build with
  | .error e => { failed e.message with stdout := shown }
  | .ok b =>
    let front := b.clock.frontendRatio
    let engine := b.clock.engineRatio
    { stdout := shown ++ s!"clock ratios: frontend {front}, timing engine {engine}\n"
      events := b.readyEvent :: b.closingEvents }

/-- Loads the settings of a command, the defaults if it names no file, and goes on with them. -/
def withSettings (path : Option String) (lookup : String → PathEntry)
    (next : Settings → Response) : Response :=
  match path with
  | none => next {}
  | some path =>
    match Settings.load path (lookup path) with
    | .error e => failed e.message
    | .ok settings => next settings

/-- Answers a command; `lookup` tells what a path leads to. -/
def run (lookup : String → PathEntry) : Command → Response
  | version => { stdout := versionLine ++ "\n" }
  | smoke path setup => withSettings path lookup (runSmoke setup)
  | config path => withSettings path lookup showConfig

end Command

namespace Response

/-- What a command writes to standard error: a line for each event that a filter shows, and then the
complaints. -/
def stderr (r : Response) (filter : LogFilter) : String :=
  String.join
    (((r.events.filter filter.shows).map Event.componentLine ++ r.complaints).map (· ++ "\n"))

end Response

end CycleBridge.CommandLine
