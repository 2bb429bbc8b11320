import CycleBridge.Frontend

/-!
# The bridge

A bridge joins a frontend queue and a timing engine on two clocks. Accesses are submitted at any
moment; each step of the bridge's own clock drives the sides whose turn it is, the frontend before
the engine; the replies of reads wait until they are drained. A write is in memory from the moment
it is accepted, a read finds what memory holds at the moment its access has run its course.

The operations are `submit`, `advance` and `drain?`. Each returns what it did as data, from which
the events it reports are read off.
-/

namespace CycleBridge

/-- A bridge: its clock, both sides, the ledger of open accesses, the replies not yet drained, the
memory and the counters. -/
structure Bridge (σ : Type) where
  clock : DualClock
  frontend : Frontend
  engine : Engine σ
  ledger : Ledger
  replies : ReplyQueue := {}
  memory : Memory := {}
  counts : BridgeCounts := {}

/-- What became of a submitted access. -/
inductive Verdict where
  | accepted
  | overlapRefused
  | frontendRefused
  deriving DecidableEq, Repr

/-- What a step of the bridge's clock did: the cycle reached, the sides driven, the requests that
entered the engine and those that left it, the events, and the bridge afterwards. -/
structure Advance (σ : Type) where
  cycle : Nat
  firing : Firing
  forwarded : List Flight
  served : List Flight
  events : List Event
  bridge : Bridge σ

/-- A drained reply, the cycle at which it was drained and, if its read was still open in the
ledger, how many cycles that read took. -/
structure Delivery where
  reply : Reply
  cycle : Nat
  latency : Option Nat
  deriving DecidableEq, Repr

/-- What is reported of a drained reply. -/
def Delivery.event (d : Delivery) : Event :=
  match d.latency with
  | some latency => .readDrained d.reply.addr d.cycle latency
  | none => .replyUnmatched d.reply.addr d.cycle

namespace Bridge

variable {σ : Type}

/-- Joins two sides under an overlap rule, or tells which side's ratio is zero. -/
def assemble (frontend : Frontend) (engine : Engine σ) (rule : OverlapRule) :
    Except Side (Bridge σ) := do
  let clock ← DualClock.start frontend.ratio engine.ratio
  return { clock, frontend, engine, ledger := { rule } }

/-- What a new bridge reports. -/
def readyEvent (b : Bridge σ) : Event :=
  .bridgeReady b.clock.frontendRatio.toNat b.clock.engineRatio.toNat b.ledger.rule

/-- How many cycles the bridge has made. -/
def cycle (b : Bridge σ) : Nat := b.clock.now

/-- How many accesses are open in the ledger. -/
def openCount (b : Bridge σ) : Nat := b.ledger.size

/-- Whether no access is open and no reply waits. -/
def isIdle (b : Bridge σ) : Bool := b.openCount = 0 ∧ b.replies.isEmpty

/-- The bridge after one more rejection. -/
def countRejection (b : Bridge σ) : Bridge σ :=
  { b with counts := { b.counts with rejections := b.counts.rejections + 1 } }

/-- The bridge after the frontend took an access: a write is in memory, the access is open. -/
def enter (b : Bridge σ) (a : Access) (data : Word) : Bridge σ :=
  let opened := { b with ledger := b.ledger.enter a.addr b.cycle a.kind }
  match a.kind with
  | .read =>
    { opened with counts := { b.counts with readsAccepted := b.counts.readsAccepted + 1 } }
  | .write =>
    { opened with
      memory := b.memory.write a.addr data
      counts := { b.counts with writesAccepted := b.counts.writesAccepted + 1 } }

/-- Submits an access; `data` is what a write stores. The ledger is asked first, then the
frontend. -/
def submit (b : Bridge σ) (a : Access) (data : Word) : Verdict × Bridge σ :=
  if b.ledger.allows a.addr then
    match b.frontend.offer { a with followup := some (Followup.standard a.kind) } with
    | (true, frontend) => (.accepted, { b with frontend }.enter a data)
    | (false, frontend) => (.frontendRefused, { b with frontend }.countRejection)
  else (.overlapRefused, b.countRejection)

/-- What is reported of a submitted access. -/
def submitEvent (b : Bridge σ) (a : Access) : Verdict → Event
  | .accepted => .accepted a b.cycle
  | .overlapRefused => .overlapRefused a.kind a.addr
  | .frontendRefused => .frontendRefused a.kind a.addr

/-- The books as the engine's tick at the present cycle finds them. -/
def books (b : Bridge σ) : Books :=
  { memory := b.memory, replies := b.replies, ledger := b.ledger, cycle := b.cycle }

/-- Drives the frontend once: what entered the engine, and the bridge afterwards. -/
def driveFrontend [LatencyModel σ] (b : Bridge σ) : List Flight × Bridge σ :=
  let t := b.frontend.tick b.engine
  (t.flights,
    { b with
      frontend := t.frontend
      engine := t.engine
      counts := { b.counts with frontendTicks := b.counts.frontendTicks + 1 } })

/-- Drives the engine once: what left it, the events of its requests' follow-ups, and the bridge
afterwards. -/
def driveEngine (b : Bridge σ) : List Flight × List Event × Bridge σ :=
  let (served, engine) := b.engine.tick
  let books := Engine.completeAll served b.books
  (served, books.log,
    { b with
      engine
      ledger := books.ledger
      replies := books.replies
      counts := { b.counts with engineTicks := b.counts.engineTicks + 1 } })

/-- Steps the bridge's clock and drives the sides whose turn it is, the frontend first. -/
def advance [LatencyModel σ] (b : Bridge σ) : Advance σ :=
  let b₀ := { b with clock := b.clock.advance }
  let firing := b₀.clock.firing
  let (forwarded, b₁) := if firing.frontend then b₀.driveFrontend else ([], b₀)
  let (served, followups, b₂) := if firing.engine then b₁.driveEngine else ([], [], b₁)
  { cycle := b₀.cycle
    firing
    forwarded
    served
    events :=
      .advanced b₀.cycle firing :: forwarded.map b.engine.scheduledEvent ++ followups
    bridge := { b₂ with counts := { b₂.counts with cycles := b₀.cycle } } }

/-- Takes the oldest reply, if one waits, and settles the oldest open read at its address. -/
def drain? (b : Bridge σ) : Option (Delivery × Bridge σ) :=
  b.replies.pop?.map fun (reply, replies) =>
    let counts := { b.counts with repliesDrained := b.counts.repliesDrained + 1 }
    match b.ledger.settle? reply.addr .read with
    | some (issue, ledger) =>
      let latency := b.cycle - issue.cycle
      (⟨reply, b.cycle, some latency⟩,
        { b with replies, ledger, counts := counts.addLatency latency })
    | none =>
      (⟨reply, b.cycle, none⟩,
        { b with
          replies
          counts := { counts with repliesUnmatched := counts.repliesUnmatched + 1 } })

/-- The bridge with its fields named, as diagnostics show it. -/
def describe (b : Bridge σ) : String :=
  let ratios := s!"({b.clock.frontendRatio}, {b.clock.engineRatio})"
  let fields := ", ".intercalate
    [s!"cycle: {b.cycle}", s!"clock_ratios: {ratios}", s!"in_flight: {b.openCount}",
      s!"pending_completions: {b.replies.size}", s!"frontend_pending: {b.frontend.pending.length}",
      s!"engine_in_flight: {b.engine.inFlight.length}", ".."]
  s!"Session \x7b {fields} \x7d"

@[simp] theorem submitEvent_accepted (b : Bridge σ) (a : Access) :
    b.submitEvent a .accepted = .accepted a b.cycle := rfl

@[simp] theorem advance_cycle [LatencyModel σ] (b : Bridge σ) :
    b.advance.cycle = b.cycle + 1 := rfl

end Bridge

end CycleBridge
