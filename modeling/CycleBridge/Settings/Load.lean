import CycleBridge.Files.Entry
import CycleBridge.Settings.Build
import CycleBridge.Settings.Read

/-!
# Loading settings from a file

What a path leads to is given as a value, so loading is a function; only the outermost layer of a
program looks at a real file system.
-/

namespace CycleBridge

/-- Why settings cannot be loaded. -/
inductive LoadError where
  | unreadable (path : String) (fault : FileFault)
  | malformed (path : String) (fault : Json.Fault)
  deriving DecidableEq, Repr

/-- The wording of a load error. -/
def LoadError.message : LoadError → String
  | unreadable path fault => s!"failed to read config file {path}: {fault.message}"
  | malformed path fault => s!"failed to parse config file {path}: {fault.message}"

/-- Why there is no bridge: its settings cannot be loaded or do not allow one. -/
inductive OpenError where
  | load (error : LoadError)
  | setup (error : SetupError)
  deriving DecidableEq, Repr

/-- The wording of an open error. -/
def OpenError.message : OpenError → String
  | load error => error.message
  | setup error => error.message

namespace Settings

/-- The settings in the file behind a path. -/
def load (path : String) (entry : PathEntry) : Except LoadError Settings := do
  let text ← entry.text.mapError (.unreadable path)
  (ofText text).mapError (.malformed path)

end Settings

namespace Bridge

/-- Builds a bridge from the settings behind a path: the events on the way, and the bridge. -/
def openFile (path : String) (entry : PathEntry) :
    List Event × Except OpenError (Bridge Controller) :=
  match Settings.load path entry with
  | .error e => ([], .error (.load e))
  | .ok settings =>
    match settings.build with
    | .error e => ([.settingsLoaded path], .error (.setup e))
    | .ok b => ([.settingsLoaded path, b.readyEvent], .ok b)

end Bridge

end CycleBridge
