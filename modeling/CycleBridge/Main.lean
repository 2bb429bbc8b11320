import CycleBridge.CommandLine.Command
import CycleBridge.Log.Setting

/-!
# The program

Reads arguments, the log setting and the settings file, answers the command and writes the response.
Everything that is decided is decided in `CommandLine`.
-/

open CycleBridge CycleBridge.CommandLine

/-- What a path of the file system leads to. What exists but cannot be read as a file counts as a
directory. -/
def readEntry (path : String) : IO PathEntry := do
  try
    return .file (← IO.FS.readBinFile path)
  catch
    | .noFileOrDirectory .. => return .fault .missing
    | .inappropriateType _ _ "not a directory" => return .fault .blocked
    | .invalidArgument _ _ "name too long" => return .fault .longName
    | _ => return .fault .directory

/-- The log filter that the environment sets; without it the usual one. -/
def logFilter : IO LogFilter := do
  return (← IO.getEnv "BRIDGE_LOG").elim .usual LogFilter.ofText

def main (arguments : List String) : IO UInt32 := do
  match Command.parse arguments with
  | .error e =>
    (← IO.getStderr).putStrLn s!"error: {e.message}"
    return usageCode.toUInt32
  | .ok command =>
    let entry ← match command.path? with
      | some path => readEntry path
      | none => pure (.fault .missing)
    let response := command.run fun _ => entry
    (← IO.getStdout).putStr response.stdout
    (← IO.getStderr).putStr (response.stderr (← logFilter))
    return response.code.toUInt32
