import CycleBridge.Word

/-!
# Latency models

A latency model says how long each access takes, in engine cycles. It may remember what it was
asked before, and it may tell what an access met in the row buffer.
-/

namespace CycleBridge

/-- What an access met in a row buffer: its own row open, no row open, or another row open. -/
inductive RowResult where
  | hit
  | miss
  | conflict
  deriving DecidableEq, Repr

/-- The name of an outcome. -/
def RowResult.name : RowResult → String
  | .hit => "Hit"
  | .miss => "Miss"
  | .conflict => "Conflict"

/-- A model of access times with states in `σ`. -/
class LatencyModel (σ : Type) where
  /-- The latency of an access to an address, and the state after it. -/
  access : σ → Word → Word × σ
  /-- The row outcome of the last access, for a model that has one. -/
  lastResult : σ → Option RowResult := fun _ => none

namespace LatencyModel

/-- The latency and the row outcome of each access of a sequence, and the state after it. -/
def run {σ : Type} [LatencyModel σ] : σ → List Word → List (Word × Option RowResult) × σ
  | s, [] => ([], s)
  | s, a :: rest =>
    let (latency, s') := access s a
    let (later, final) := run s' rest
    ((latency, lastResult s') :: later, final)

end LatencyModel

end CycleBridge
