/-!
# What a path leads to

The file system as a command sees it: behind a path there is a file with its bytes, or a reason why
there is none.
-/

namespace CycleBridge

/-- Why a path gives no text. A blocked path goes on behind a file as if that were a directory. -/
inductive FileFault where
  | missing
  | blocked
  | directory
  | longName
  | badName
  | notText
  deriving DecidableEq, Repr

/-- The wording of a file fault. -/
def FileFault.message : FileFault → String
  | .missing => "No such file or directory (os error 2)"
  | .blocked => "Not a directory (os error 20)"
  | .directory => "Is a directory (os error 21)"
  | .longName => "File name too long (os error 36)"
  | .badName => "file name contained an unexpected NUL byte"
  | .notText => "stream did not contain valid UTF-8"

/-- What a path leads to. -/
inductive PathEntry where
  | fault (reason : FileFault)
  | file (bytes : ByteArray)

/-- The text behind a path. -/
def PathEntry.text : PathEntry → Except FileFault String
  | fault reason => .error reason
  | file bytes =>
    match String.fromUTF8? bytes with
    | some text => .ok text
    | none => .error .notText

end CycleBridge
