import CycleBridge.Json.Tree
import CycleBridge.Settings.Basic

/-!
# Writing settings

Settings are written with all their fields, in the order in which the sections list them.
-/

namespace CycleBridge

open Json (Tree)

/-- The frontend's section. -/
def FrontendSettings.tree (c : FrontendSettings) : Tree :=
  .object
    [("clock_ratio", .number c.clockRatio.toNat), ("queue_depth", .number c.queueDepth.toNat)]

/-- The memory's section. -/
def MemorySettings.tree (c : MemorySettings) : Tree :=
  .object
    [("clock_ratio", .number c.clockRatio.toNat), ("queue_depth", .number c.queueDepth.toNat),
      ("controller", .name c.controller.name), ("latency", .number c.latency.toNat),
      ("t_cas", .number c.tCas.toNat), ("t_ras", .number c.tRas.toNat),
      ("t_pre", .number c.tPre.toNat), ("row_bits", .number c.rowBits.toNat)]

/-- The bridge's section. -/
def BridgeSettings.tree (c : BridgeSettings) : Tree :=
  .object [("overlap_policy", .name c.overlapRule.name)]

namespace Settings

/-- All sections. -/
def tree (c : Settings) : Tree :=
  .object
    [("frontend", c.frontend.tree), ("memory", c.memory.tree), ("bridge", c.bridge.tree)]

/-- The settings on one line. -/
def toCompact (c : Settings) : String := String.ofList c.tree.compact

/-- The settings over several lines. -/
def toPretty (c : Settings) : String := String.ofList (c.tree.pretty 0)

end Settings

end CycleBridge
