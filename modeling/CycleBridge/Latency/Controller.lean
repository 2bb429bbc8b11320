import CycleBridge.Latency.Fixed
import CycleBridge.Latency.RowBuffer
import CycleBridge.Latency.Scripted

/-!
# The choice of a latency model

One type for all models, for where the model is chosen while the program runs.
-/

namespace CycleBridge

/-- A latency model of any sort. -/
inductive Controller where
  | fixed (model : FixedLatency)
  | rowBuffer (model : RowBuffer)
  | scripted (model : ScriptedLatency)

instance : LatencyModel Controller where
  access
    | .fixed m, addr => (LatencyModel.access m addr).map id .fixed
    | .rowBuffer m, addr => (LatencyModel.access m addr).map id .rowBuffer
    | .scripted m, addr => (LatencyModel.access m addr).map id .scripted
  lastResult
    | .fixed m => LatencyModel.lastResult m
    | .rowBuffer m => LatencyModel.lastResult m
    | .scripted m => LatencyModel.lastResult m

end CycleBridge
