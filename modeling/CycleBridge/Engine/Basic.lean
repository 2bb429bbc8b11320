import CycleBridge.Counts
import CycleBridge.Engine.Bisect
import CycleBridge.Latency.Model
import CycleBridge.Request

/-!
# The timing engine

The engine takes requests up to its capacity, asks its latency model how long each one takes, and
lets it go on the first of its own cycles that reaches the due cycle. Requests in flight stand in
the order of their due cycles, those with one due cycle in the order of their arrival.

## Implementation notes

A request is placed by bisection behind every request that is due no later. A due cycle beyond the
largest word is held there, so such a request is never reached. The ratio of the engine's clock is
carried for the bridge that drives it and plays no part here.
-/

namespace CycleBridge

/-- A request in the engine: what the latency model said of it, when it is due, and how many
requests the engine took before it. -/
structure Flight where
  request : Request
  latency : Word
  result : Option RowResult
  due : Nat
  arrival : Nat

/-- The engine with its latency model's state, the requests in flight and its own clock. -/
structure Engine (σ : Type) where
  ratio : UInt32
  capacity : Nat
  model : σ
  inFlight : List Flight := []
  cycle : Nat := 0
  counts : EngineCounts := {}

namespace EngineCounts

/-- Counts a row outcome, if there is one. -/
def addRowResult (c : EngineCounts) : Option RowResult → EngineCounts
  | some .hit => { c with rowHits := c.rowHits + 1 }
  | some .miss => { c with rowMisses := c.rowMisses + 1 }
  | some .conflict => { c with rowConflicts := c.rowConflicts + 1 }
  | none => c

/-- Counts the time that an access keeps the memory busy; the sum is held at the largest word. -/
def addBusy (c : EngineCounts) (latency : Word) : EngineCounts :=
  { c with busyCycles := Word.clamp (c.busyCycles + latency.toNat) }

/-- Counts an access that ran its course. -/
def addServed (c : EngineCounts) : AccessKind → EngineCounts
  | .read => { c with readsServed := c.readsServed + 1 }
  | .write => { c with writesServed := c.writesServed + 1 }

end EngineCounts

namespace Engine

variable {σ : Type}

/-- The due cycle of the request that is due first. -/
def nextDue? (e : Engine σ) : Option Nat := e.inFlight.head?.map (·.due)

/-- How many requests the engine has taken: those that are through and those in flight. -/
def taken (e : Engine σ) : Nat := e.counts.served + e.inFlight.length

/-- Puts a request behind all that are due no later. -/
def place (queue : List Flight) (f : Flight) : List Flight :=
  queue.insertIdx (splitPoint (fun g => g.due ≤ f.due) queue) f

/-- Offers a request. A full engine refuses it, counts the refusal and does not ask its model;
otherwise the request is in flight afterwards. -/
def offer [LatencyModel σ] (e : Engine σ) (r : Request) : Option Flight × Engine σ :=
  if e.inFlight.length ≥ e.capacity then
    (none, { e with counts := { e.counts with refused := e.counts.refused + 1 } })
  else
    let (latency, model) := LatencyModel.access e.model r.addr
    let flight : Flight :=
      { request := r
        latency
        result := LatencyModel.lastResult model
        due := Word.clamp (e.cycle + latency.toNat)
        arrival := e.taken }
    (some flight,
      { e with
        model
        inFlight := place e.inFlight flight
        counts := (e.counts.addRowResult flight.result).addBusy latency })

/-- What the engine reports when it takes a request. -/
def scheduledEvent (e : Engine σ) (f : Flight) : Event :=
  .scheduled f.request.kind f.request.addr e.cycle f.due

/-- Steps the engine's clock and takes out the requests that are due, in their order. -/
def tick (e : Engine σ) : List Flight × Engine σ :=
  let now := e.cycle + 1
  let (served, left) := e.inFlight.span (fun f => f.due ≤ now)
  (served,
    { e with
      cycle := now
      inFlight := left
      counts := served.foldl (fun c f => c.addServed f.request.kind) e.counts })

/-- Ends the accesses of requests that are through, one after the other. -/
def completeAll (served : List Flight) (b : Books) : Books :=
  served.foldl (fun b f => f.request.complete b) b

/-- Closes the engine: what is still in flight is given up and counted. -/
def close (e : Engine σ) : Engine σ :=
  { e with
    inFlight := []
    counts := { e.counts with abandoned := e.inFlight.length, cycles := e.cycle } }

/-- What the engine reports when it is closed. -/
def closingEvents (e : Engine σ) : List Event :=
  (if e.inFlight.isEmpty then [] else [.engineLeftOver e.inFlight.length]) ++
    [.engineClosed e.cycle e.counts.served]

/-- The engine with its fields named, as diagnostics show it. -/
def describe (e : Engine σ) : String :=
  let fields := ", ".intercalate
    [s!"clock_ratio: {e.ratio}", s!"capacity: {e.capacity}", s!"in_flight: {e.inFlight.length}",
      s!"cycle: {e.cycle}", ".."]
  s!"LatencyEngine \x7b {fields} \x7d"

theorem offer_of_full [LatencyModel σ] (e : Engine σ) (r : Request)
    (h : e.capacity ≤ e.inFlight.length) :
    e.offer r = (none, { e with counts := { e.counts with refused := e.counts.refused + 1 } }) := by
  simp [offer, h]

@[simp] theorem offer_cycle [LatencyModel σ] (e : Engine σ) (r : Request) :
    (e.offer r).2.cycle = e.cycle := by
  unfold offer; split <;> rfl

@[simp] theorem tick_cycle (e : Engine σ) : e.tick.2.cycle = e.cycle + 1 := rfl

end Engine

end CycleBridge
