import CycleBridge.Bridge.Close
import CycleBridge.Smoke.Setup

/-!
# The smoke run

Each cycle of a run drains all replies and compares them with what their reads should find, submits
at most one access, and steps the bridge. The run ends when all accesses are through, when too many
submissions in a row were refused, or when its cycles are used up.

## Implementation notes

What a read should find is fixed when the read is accepted, from the writes accepted before it. At
most one read of an address is expected at a time; a later read of the same address takes the place
of the earlier one.
-/

namespace CycleBridge

/-- What a smoke run counts. -/
structure SmokeCounts where
  accepted : Nat := 0
  rejected : Nat := 0
  readsIssued : Nat := 0
  readsCompleted : Nat := 0
  readsVerified : Nat := 0
  unmatched : Nat := 0
  deriving DecidableEq, Repr

/-- A smoke run under way: the bridge, what was written, the values that reads are expected to find,
the number of the next access, and how many submissions in a row were refused. -/
structure SmokeRun (σ : Type) where
  bridge : Bridge σ
  written : Memory := {}
  expected : Std.TreeMap Word Word := ∅
  counts : SmokeCounts := {}
  next : Nat := 0
  stall : Nat := 0
  events : Array Event := #[]

namespace SmokeRun

variable {σ : Type}

/-- Reports one event. -/
def report (s : SmokeRun σ) (e : Event) : SmokeRun σ := { s with events := s.events.push e }

/-- Compares a reply with what its read should find. -/
def check (s : SmokeRun σ) (r : Reply) : SmokeRun σ :=
  match s.expected[r.addr]? with
  | none =>
    { s.report (.smokeUnexpected r.addr) with
      counts := { s.counts with unmatched := s.counts.unmatched + 1 } }
  | some value =>
    let completed := { s.counts with readsCompleted := s.counts.readsCompleted + 1 }
    let rest := { s with expected := s.expected.erase r.addr }
    if r.value = value then
      { rest with counts := { completed with readsVerified := completed.readsVerified + 1 } }
    else { rest.report (.smokeMismatch r.addr r.value value) with counts := completed }

/-- Drains and compares up to a number of replies. -/
def collectUpTo (s : SmokeRun σ) : Nat → SmokeRun σ
  | 0 => s
  | n + 1 =>
    match s.bridge.drain? with
    | none => s
    | some (d, bridge) =>
      collectUpTo (({ s with bridge }.report d.event).check d.reply) n

/-- Drains and compares all replies that wait. -/
def collect (s : SmokeRun σ) : SmokeRun σ := s.collectUpTo s.bridge.replies.size

/-- Whether an access is left to submit and another read may be expected. -/
def mayIssue (p : SmokeSetup) (s : SmokeRun σ) : Bool :=
  s.next < p.requests ∧ s.expected.size < p.maxInFlight

/-- The run after its next access was accepted. -/
def noteAccepted (s : SmokeRun σ) (a : Access) (data : Word) : SmokeRun σ :=
  let moved :=
    { s with
      next := s.next + 1
      stall := 0
      counts := { s.counts with accepted := s.counts.accepted + 1 } }
  match a.kind with
  | .write => { moved with written := s.written.write a.addr data }
  | .read =>
    { moved with
      expected := s.expected.insert a.addr (s.written.read a.addr)
      counts := { moved.counts with readsIssued := s.counts.readsIssued + 1 } }

/-- The run after its next access was refused. -/
def noteRefused (s : SmokeRun σ) : SmokeRun σ :=
  { s with
    stall := s.stall + 1
    counts := { s.counts with rejected := s.counts.rejected + 1 } }

/-- Submits the next access if one may be submitted, and tells what became of it. -/
def issue (p : SmokeSetup) (s : SmokeRun σ) : Option Verdict × SmokeRun σ :=
  if s.mayIssue p then
    let a := p.access s.next
    let data := SmokeSetup.data a
    let (verdict, bridge) := s.bridge.submit a data
    let s' := { s with bridge }.report (s.bridge.submitEvent a verdict)
    (some verdict, if verdict = .accepted then s'.noteAccepted a data else s'.noteRefused)
  else (none, s)

/-- Steps the bridge. -/
def advance [LatencyModel σ] (s : SmokeRun σ) : SmokeRun σ :=
  let a := s.bridge.advance
  { s with bridge := a.bridge, events := s.events.appendList a.events }

/-- One cycle of a run, and what became of its submission if it made one. -/
def cycle [LatencyModel σ] (p : SmokeSetup) (s : SmokeRun σ) : Option Verdict × SmokeRun σ :=
  let (verdict, s) := s.collect.issue p
  (verdict, s.advance)

/-- Whether all accesses are through. -/
def isFinished (p : SmokeSetup) (s : SmokeRun σ) : Bool :=
  s.next = p.requests ∧ s.expected.isEmpty

/-- Whether too many submissions in a row were refused. -/
def isStalled (p : SmokeSetup) (s : SmokeRun σ) : Bool := p.stallLimit < s.stall

/-- Up to a number of cycles: the number of the cycle after which the run was finished, if it was,
and the run at its end. Cycles are numbered from one on; `done` of them lie behind. -/
def cycles [LatencyModel σ] (p : SmokeSetup) : Nat → Nat → SmokeRun σ → Option Nat × SmokeRun σ
  | 0, _, s => (none, s)
  | left + 1, done, s =>
    let s := (s.cycle p).2
    if s.isFinished p then (some (done + 1), s)
    else if s.isStalled p then (none, s.report (.smokeStalled s.stall))
    else cycles p left (done + 1) s

/-- A run from its first cycle to its end. -/
def ofBridge [LatencyModel σ] (p : SmokeSetup) (b : Bridge σ) : Option Nat × SmokeRun σ :=
  let started : Event := .smokeStarted p.requests b.clock.frontendRatio.toNat
    b.clock.engineRatio.toNat
  cycles p p.maxCycles 0 { bridge := b, events := #[started] }

end SmokeRun

end CycleBridge
