import CycleBridge.Ledger
import CycleBridge.Word

/-!
# Settings

What a bridge is built from: one section for each side and one for the bridge itself. Every setting
has a default value, and a section of which nothing is said has the default value everywhere.
-/

namespace CycleBridge

/-- Which latency model the engine uses. -/
inductive ModelChoice where
  | simple
  | dram
  deriving DecidableEq, Repr

/-- The name of a choice in settings. -/
def ModelChoice.name : ModelChoice → String
  | .simple => "Simple"
  | .dram => "Dram"

/-! ## Default values -/

namespace Defaults

def frontendClockRatio : UInt32 := 8
def frontendQueueDepth : UInt64 := 32
def memoryClockRatio : UInt32 := 3
def memoryQueueDepth : UInt64 := 64
def controller : ModelChoice := .simple
def latency : Word := 100
def tCas : Word := 14
def tRas : Word := 14
def tPre : Word := 14
def rowBits : UInt32 := 11
def overlapRule : OverlapRule := .overwrite

end Defaults

/-! ## Sections -/

/-- The settings of the frontend. -/
structure FrontendSettings where
  clockRatio : UInt32 := Defaults.frontendClockRatio
  queueDepth : UInt64 := Defaults.frontendQueueDepth
  deriving DecidableEq, Repr

/-- The settings of the engine and its latency model. The fixed latency is used by the simple model
only, the timings and the row size by the other one only. -/
structure MemorySettings where
  clockRatio : UInt32 := Defaults.memoryClockRatio
  queueDepth : UInt64 := Defaults.memoryQueueDepth
  controller : ModelChoice := Defaults.controller
  latency : Word := Defaults.latency
  tCas : Word := Defaults.tCas
  tRas : Word := Defaults.tRas
  tPre : Word := Defaults.tPre
  rowBits : UInt32 := Defaults.rowBits
  deriving DecidableEq, Repr

/-- The settings of the bridge itself. -/
structure BridgeSettings where
  overlapRule : OverlapRule := Defaults.overlapRule
  deriving DecidableEq, Repr

/-- All settings. A section that is not given is the default one. -/
structure Settings where
  frontend : FrontendSettings := {}
  memory : MemorySettings := {}
  bridge : BridgeSettings := {}
  deriving DecidableEq, Repr

end CycleBridge
