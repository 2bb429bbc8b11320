import CycleBridge.Bridge.Basic
import CycleBridge.Latency.Controller
import CycleBridge.Settings.Basic

/-!
# Building a bridge from settings

Both queues must have room and both clock ratios must be positive. Room is looked at first, on each
count the frontend before the engine.
-/

namespace CycleBridge

/-- Why no bridge can be built. -/
inductive SetupError where
  | noRoom (side : Side)
  | zeroRatio (side : Side)
  deriving DecidableEq, Repr

namespace SetupError

/-- The wording of a setup error. -/
def message : SetupError → String
  | noRoom .frontend => "engine construction failed: frontend queue_depth must be positive"
  | noRoom .engine => "engine construction failed: memory queue_depth must be positive"
  | zeroRatio side => s!"invalid {side.label} clock ratio 0: ratios must be positive"

end SetupError

/-- The latency model that the settings ask for. -/
def MemorySettings.model (c : MemorySettings) : Controller :=
  match c.controller with
  | .simple => .fixed ⟨c.latency⟩
  | .dram => .rowBuffer (RowBuffer.ofTimings c.tCas c.tRas c.tPre c.rowBits)

namespace Bridge

/-- Joins two sides, a zero ratio being a setup error. -/
def ofSides {σ : Type} (frontend : Frontend) (engine : Engine σ) (rule : OverlapRule) :
    Except SetupError (Bridge σ) :=
  (assemble frontend engine rule).mapError .zeroRatio

end Bridge

namespace Settings

/-- The frontend that the settings ask for. -/
def newFrontend (c : Settings) : Frontend :=
  { ratio := c.frontend.clockRatio, depth := c.frontend.queueDepth.toNat }

/-- The engine that the settings ask for. -/
def newEngine (c : Settings) : Engine Controller :=
  { ratio := c.memory.clockRatio
    capacity := c.memory.queueDepth.toNat
    model := c.memory.model }

/-- The bridge that the settings ask for. -/
def build (c : Settings) : Except SetupError (Bridge Controller) :=
  if c.frontend.queueDepth = 0 then .error (.noRoom .frontend)
  else if c.memory.queueDepth = 0 then .error (.noRoom .engine)
  else Bridge.ofSides c.newFrontend c.newEngine c.bridge.overlapRule

end Settings

end CycleBridge
