import CycleBridge.Latency.Model

/-!
# Scripted latencies

A model that follows a script: a latency for each listed address, one for all others, and row
outcomes that repeat in a fixed round. It stands in for a memory where a particular sequence of
answers is wanted.
-/

namespace CycleBridge

/-- The script and how many accesses have followed it. -/
structure ScriptedLatency where
  table : List (Word × Word) := []
  otherwise : Word := 1
  results : List (Option RowResult) := []
  accesses : Nat := 0
  deriving Repr

namespace ScriptedLatency

/-- The latency the script gives to an address. -/
def latencyAt (m : ScriptedLatency) (addr : Word) : Word :=
  (m.table.lookup addr).getD m.otherwise

/-- The outcome of the last access: the script's round starts over when it is through. -/
def result (m : ScriptedLatency) : Option RowResult :=
  if m.accesses = 0 then none
  else (m.results[(m.accesses - 1) % m.results.length]?).join

end ScriptedLatency

instance : LatencyModel ScriptedLatency where
  access m addr := (m.latencyAt addr, { m with accesses := m.accesses + 1 })
  lastResult m := m.result

end CycleBridge
