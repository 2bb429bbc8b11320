import CycleBridge.Smoke.Run

/-!
# The result of a smoke run

What a run ends with: its events, the page of results and the verdict.
-/

namespace CycleBridge

/-- The verdict on a smoke run. -/
inductive SmokeVerdict where
  | nothingAccepted
  | wrongData (wrong completed : Nat)
  | unverified
  | passed
  deriving DecidableEq, Repr

namespace SmokeVerdict

/-- The verdict that the counters of a run lead to. -/
def ofCounts (t : SmokeCounts) : SmokeVerdict :=
  if t.accepted = 0 then .nothingAccepted
  else if t.readsVerified ≠ t.readsCompleted then
    .wrongData (t.readsCompleted - t.readsVerified) t.readsCompleted
  else if t.readsCompleted = 0 then .unverified
  else .passed

/-- Whether a run counts as a success. -/
def isSuccess : SmokeVerdict → Bool
  | unverified | passed => true
  | nothingAccepted | wrongData .. => false

/-- The wording of a verdict. -/
def message : SmokeVerdict → String
  | nothingAccepted => "FAIL: no requests were accepted"
  | wrongData wrong completed => s!"FAIL: {wrong} of {completed} reads returned wrong data"
  | unverified => "WARN: no reads completed; functional model unverified"
  | passed => "Smoke run PASSED"

end SmokeVerdict

/-- What a smoke run leaves behind. -/
structure SmokeResult where
  finishedAt : Option Nat
  counts : SmokeCounts
  next : Nat
  outstanding : Nat
  report : Report
  events : List Event

namespace SmokeResult

/-- Runs a setup on a new bridge and closes the bridge. -/
def ofBridge {σ : Type} [LatencyModel σ] (p : SmokeSetup) (b : Bridge σ) : SmokeResult :=
  let (finishedAt, s) := SmokeRun.ofBridge p b
  let ending : Event := match finishedAt with
    | some cycle => .smokeFinished cycle
    | none => .smokeStopped s.expected.size (p.requests - s.next)
  { finishedAt
    counts := s.counts
    next := s.next
    outstanding := s.expected.size
    report := s.bridge.close
    events := b.readyEvent :: s.events.toList ++ ending :: s.bridge.closingEvents }

/-- The verdict on the run. -/
def verdict (r : SmokeResult) : SmokeVerdict := .ofCounts r.counts

/-- The page of results, without the verdict. -/
def text (p : SmokeSetup) (r : SmokeResult) : String :=
  let t := r.counts
  let lines :=
    ["--- Results ---",
      s!"  Requests issued      : {r.next} / {p.requests}",
      s!"  Reads completed      : {t.readsCompleted} / {t.readsIssued}",
      s!"  Functional checks OK : {t.readsVerified} / {t.readsCompleted}",
      s!"  Unmatched completions: {t.unmatched}",
      s!"  Submit accepted      : {t.accepted}",
      s!"  Submit rejected      : {t.rejected}"]
  String.join (lines.map (· ++ "\n")) ++ r.report.text

end SmokeResult

end CycleBridge
