import CycleBridge.Json.Record
import CycleBridge.Settings.Basic

/-!
# Reading settings

The form of each section of the settings, and the reading of a whole text. Defaults come in on two
ways: a section that a text leaves out is the default section, and a field that a section of the
text leaves out has a default of its own.
-/

namespace CycleBridge

open Json (Field Form Reader)

/-- Stores what a reader reads with a setter. -/
def Json.Reader.into {α β : Type} (r : Reader β) (set : α → β → α) : α → Reader α :=
  fun a s => (r s).map fun (b, rest) => (set a b, rest)

namespace ModelChoice

/-- The names under which a latency model can be asked for. -/
def table : List (String × ModelChoice) :=
  [("Simple", simple), ("DRAM", dram), ("Dram", dram)]

end ModelChoice

namespace OverlapRule

/-- The names under which an overlap rule can be asked for. -/
def table : List (String × OverlapRule) :=
  [("Overwrite", overwrite), ("Track", track), ("Reject", reject)]

end OverlapRule

namespace FrontendSettings

def defaultClockRatio : UInt32 := Defaults.frontendClockRatio
def defaultQueueDepth : UInt64 := Defaults.frontendQueueDepth

/-- A section that leaves out every field. -/
def unstated : FrontendSettings where
  clockRatio := defaultClockRatio
  queueDepth := defaultQueueDepth

end FrontendSettings

namespace MemorySettings

def defaultClockRatio : UInt32 := Defaults.memoryClockRatio
def defaultQueueDepth : UInt64 := Defaults.memoryQueueDepth
def defaultLatency : Word := Defaults.latency
def defaultTCas : Word := Defaults.tCas
def defaultTRas : Word := Defaults.tRas
def defaultTPre : Word := Defaults.tPre
def defaultRowBits : UInt32 := Defaults.rowBits

/-- A section that leaves out every field. -/
def unstated : MemorySettings where
  clockRatio := defaultClockRatio
  queueDepth := defaultQueueDepth
  controller := Defaults.controller
  latency := defaultLatency
  tCas := defaultTCas
  tRas := defaultTRas
  tPre := defaultTPre
  rowBits := defaultRowBits

end MemorySettings

/-- A section that leaves out its only field. -/
def BridgeSettings.unstated : BridgeSettings where
  overlapRule := Defaults.overlapRule

/-- The form of the frontend's section. -/
def FrontendSettings.form : Form FrontendSettings where
  title := "struct FrontendConfig"
  defaults := unstated
  fields :=
    [⟨"clock_ratio", Json.readWord32.into fun c v => { c with clockRatio := v }⟩,
      ⟨"queue_depth", Json.readSize.into fun c v => { c with queueDepth := v }⟩]

/-- The form of the memory's section. -/
def MemorySettings.form : Form MemorySettings where
  title := "struct MemoryConfig"
  defaults := unstated
  fields :=
    [⟨"clock_ratio", Json.readWord32.into fun c v => { c with clockRatio := v }⟩,
      ⟨"queue_depth", Json.readSize.into fun c v => { c with queueDepth := v }⟩,
      ⟨"controller",
        (Json.readChoice ModelChoice.table).into fun c v => { c with controller := v }⟩,
      ⟨"latency", Json.readWord64.into fun c v => { c with latency := v }⟩,
      ⟨"t_cas", Json.readWord64.into fun c v => { c with tCas := v }⟩,
      ⟨"t_ras", Json.readWord64.into fun c v => { c with tRas := v }⟩,
      ⟨"t_pre", Json.readWord64.into fun c v => { c with tPre := v }⟩,
      ⟨"row_bits", Json.readWord32.into fun c v => { c with rowBits := v }⟩]

/-- The form of the bridge's section. -/
def BridgeSettings.form : Form BridgeSettings where
  title := "struct BridgeConfig"
  defaults := unstated
  fields :=
    [⟨"overlap_policy",
        (Json.readChoice OverlapRule.table).into fun c v => { c with overlapRule := v }⟩]

namespace Settings

/-- The form of the settings. -/
def form : Form Settings where
  title := "struct Config"
  defaults := {}
  fields :=
    [⟨"frontend", FrontendSettings.form.read.into fun c v => { c with frontend := v }⟩,
      ⟨"memory", MemorySettings.form.read.into fun c v => { c with memory := v }⟩,
      ⟨"bridge", BridgeSettings.form.read.into fun c v => { c with bridge := v }⟩]

/-- The settings that a text states. -/
def ofText (text : String) : Except Json.Fault Settings := form.readDocument text

end Settings

end CycleBridge
