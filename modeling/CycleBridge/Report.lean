import CycleBridge.Counts
import CycleBridge.Decimal.Fixed

/-!
# The final report

The counters of a bridge and both its sides, and their text. The text has a heading and up to four
sections; naming no section asks for all of them.
-/

namespace CycleBridge

/-- The counters of a closed bridge. -/
structure Report where
  bridge : BridgeCounts := {}
  frontend : FrontendCounts := {}
  engine : EngineCounts := {}
  deriving DecidableEq, Repr

namespace BridgeCounts

/-- The quotient of two counters as a double, each taken to the nearest double first. -/
def ratio (a b : Nat) : Float := a.toUInt64.toFloat / b.toUInt64.toFloat

/-- The mean latency of the correlated reads, zero if there is none. -/
def meanLatency (c : BridgeCounts) : Float :=
  if c.correlated = 0 then 0 else ratio c.latencyTotal c.correlated

end BridgeCounts

namespace EngineCounts

/-- The share of row hits in per cent, zero without any access. -/
def hitRate (c : EngineCounts) : Float :=
  if c.rowAccesses = 0 then 0 else BridgeCounts.ratio c.rowHits c.rowAccesses * 100

end EngineCounts

/-- The parts of a report that can be asked for. -/
inductive Section where
  | summary
  | frontend
  | memory
  | latency
  deriving DecidableEq, Repr

/-- How a section is asked for. -/
def Section.name : Section → String
  | .summary => "summary"
  | .frontend => "frontend"
  | .memory => "memory"
  | .latency => "latency"

namespace Report

/-- A line across the page between heading, sections and end. -/
def doubleRule : String := String.ofList (List.replicate 58 '=')

/-- A line across the page after a section. -/
def singleRule : String := String.ofList (List.replicate 58 '-')

/-- A label filled up to the column of the values, and its value. -/
def row (label value : String) : String :=
  String.ofList (label.toList.rightpad 25 ' ') ++ value

/-- A row whose value is a counter. -/
def countRow (label : String) (n : Nat) : String := row label (toString n)

/-- A counter filled up to eight places. -/
def cell (n : Nat) : String := String.ofList ((toString n).toList.rightpad 8 ' ')

/-- The decimals shown of a mean or a rate. -/
def places : Nat := 2

/-- The line that sums up the row buffer. -/
def rowBufferLine (c : EngineCounts) : String :=
  " | ".intercalate
    ["  row_buffer  hits: " ++ cell c.rowHits, "misses: " ++ cell c.rowMisses,
      "conflicts: " ++ cell c.rowConflicts, "hit_rate: " ++ Decimal.fixed places c.hitRate ++ "%"]

/-- The lines of one section. -/
def sectionLines (r : Report) : Section → List String
  | .summary =>
    [countRow "sim_cycles" r.bridge.cycles,
      countRow "frontend_ticks" r.bridge.frontendTicks,
      countRow "engine_ticks" r.bridge.engineTicks,
      countRow "reads_accepted" r.bridge.readsAccepted,
      countRow "writes_accepted" r.bridge.writesAccepted,
      countRow "rejections" r.bridge.rejections,
      countRow "completions" r.bridge.repliesDrained,
      countRow "unmatched_completions" r.bridge.repliesUnmatched,
      singleRule]
  | .frontend =>
    ["FRONTEND",
      countRow "  cycles" r.frontend.cycles,
      countRow "  accepted" r.frontend.accepted,
      countRow "  rejected" r.frontend.rejected,
      countRow "  forwarded" r.frontend.forwarded,
      countRow "  abandoned" r.frontend.abandoned,
      singleRule]
  | .memory =>
    ["TIMING ENGINE",
      countRow "  cycles" r.engine.cycles,
      countRow "  reads_served" r.engine.readsServed,
      countRow "  writes_served" r.engine.writesServed,
      countRow "  refused" r.engine.refused,
      countRow "  busy_cycles" r.engine.busyCycles,
      countRow "  abandoned" r.engine.abandoned,
      rowBufferLine r.engine,
      singleRule]
  | .latency =>
    ["READ LATENCY (bridge cycles, issue to drain)",
      countRow "  correlated" r.bridge.correlated,
      row "  mean" (Decimal.fixed places r.bridge.meanLatency),
      countRow "  min" (r.bridge.latencyMin.getD 0),
      countRow "  max" r.bridge.latencyMax]

/-- The sections in the order of the page. -/
def order : List Section := [.summary, .frontend, .memory, .latency]

/-- The sections that a list of names asks for. A name that no section has asks for nothing. -/
def wanted (names : List String) : List Section :=
  order.filter fun s => names.isEmpty || names.contains s.name

/-- All lines of the page. -/
def lines (r : Report) (names : List String) : List String :=
  [doubleRule, "MEMORY BRIDGE STATISTICS", doubleRule] ++
    (wanted names).flatMap r.sectionLines ++ [doubleRule]

/-- The page as text, each line ended. -/
def text (r : Report) (names : List String := []) : String :=
  String.join ((r.lines names).map (· ++ "\n"))

theorem wanted_nil : wanted [] = order := rfl

end Report

end CycleBridge
