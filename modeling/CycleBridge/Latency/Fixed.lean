import CycleBridge.Latency.Model

/-!
# One latency for all accesses
-/

namespace CycleBridge

/-- A model in which every access takes equally long. -/
structure FixedLatency where
  latency : Word
  deriving DecidableEq, Repr

instance : LatencyModel FixedLatency where
  access m _ := (m.latency, m)

end CycleBridge
