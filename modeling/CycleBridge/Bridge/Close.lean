import CycleBridge.Bridge.Basic
import CycleBridge.Report

/-!
# Closing a bridge

Closing gives up what is still under way on either side and hands over the counters.
-/

namespace CycleBridge.Bridge

variable {σ : Type}

/-- The counters of the bridge once both sides are closed. -/
def close (b : Bridge σ) : Report :=
  { bridge := b.counts
    frontend := b.frontend.close.counts
    engine := b.engine.close.counts }

/-- What is reported while a bridge is closed: first by the frontend, then by the engine, then by
the bridge itself. -/
def closingEvents (b : Bridge σ) : List Event :=
  b.frontend.closingEvents ++ b.engine.closingEvents ++
    (if b.replies.isEmpty then [] else [.repliesLeftOver b.replies.size]) ++
    [.bridgeClosed b.counts.cycles b.counts.accepted b.counts.repliesDrained]

end CycleBridge.Bridge
