import CycleBridge.Word

/-!
# Counters

What a bridge and its two sides count while they run. Reads that were drained and found their open
issue are the *correlated* ones; only they have a latency. Their latencies are added up in one word,
and nothing keeps the sum from wrapping.
-/

namespace CycleBridge

/-- What the frontend side counts. -/
structure FrontendCounts where
  cycles : Nat := 0
  accepted : Nat := 0
  rejected : Nat := 0
  forwarded : Nat := 0
  abandoned : Nat := 0
  deriving DecidableEq, Repr

/-- What the engine side counts. -/
structure EngineCounts where
  cycles : Nat := 0
  readsServed : Nat := 0
  writesServed : Nat := 0
  refused : Nat := 0
  rowHits : Nat := 0
  rowMisses : Nat := 0
  rowConflicts : Nat := 0
  busyCycles : Nat := 0
  abandoned : Nat := 0
  deriving DecidableEq, Repr

namespace EngineCounts

/-- All accesses that ran their course. -/
def served (c : EngineCounts) : Nat := c.readsServed + c.writesServed

/-- All accesses with a row outcome. -/
def rowAccesses (c : EngineCounts) : Nat := c.rowHits + c.rowMisses + c.rowConflicts

end EngineCounts

/-- What a bridge counts. -/
structure BridgeCounts where
  cycles : Nat := 0
  frontendTicks : Nat := 0
  engineTicks : Nat := 0
  readsAccepted : Nat := 0
  writesAccepted : Nat := 0
  rejections : Nat := 0
  repliesDrained : Nat := 0
  repliesUnmatched : Nat := 0
  latencyTotal : Nat := 0
  latencyMin : Option Nat := none
  latencyMax : Nat := 0
  deriving DecidableEq, Repr

namespace BridgeCounts

/-- Takes one latency into the total, which wraps, and into the extremes. -/
def addLatency (c : BridgeCounts) (latency : Nat) : BridgeCounts :=
  { c with
    latencyTotal := Word.wrap (c.latencyTotal + latency)
    latencyMin := some (c.latencyMin.elim latency (min · latency))
    latencyMax := max c.latencyMax latency }

/-- All accepted accesses. -/
def accepted (c : BridgeCounts) : Nat := c.readsAccepted + c.writesAccepted

/-- The drained replies that found their open issue. -/
def correlated (c : BridgeCounts) : Nat := c.repliesDrained - c.repliesUnmatched

end BridgeCounts

end CycleBridge
