import CycleBridge.Clock
import CycleBridge.Ledger
import CycleBridge.Text.Hex

/-!
# Events

What a bridge, its parts and the smoke run report while they work. An event carries the facts; its
severity, the component it comes from and its wording are functions of it, so a log is a list of
events and filtering it is filtering a list.
-/

namespace CycleBridge

/-- How urgent an event is, most urgent first. -/
inductive Severity where
  | error
  | warn
  | info
  | debug
  | trace
  deriving DecidableEq, Repr

namespace Severity

/-- The place in the order of urgency, zero for the most urgent. -/
def rank : Severity → Nat
  | error => 0
  | warn => 1
  | info => 2
  | debug => 3
  | trace => 4

/-- How a severity is written in front of an event. -/
def label : Severity → String
  | error => "ERROR"
  | warn => "WARN"
  | info => "INFO"
  | debug => "DEBUG"
  | trace => "TRACE"

/-- The severity that a word in a log setting names. -/
def ofName? : String → Option Severity
  | "error" => some error
  | "warn" => some warn
  | "info" => some info
  | "debug" => some debug
  | "trace" => some trace
  | _ => none

end Severity

/-- One thing worth reporting. -/
inductive Event where
  | settingsLoaded (path : String)
  | bridgeReady (frontendRatio engineRatio : Nat) (rule : OverlapRule)
  | overlapRefused (kind : AccessKind) (addr : Word)
  | frontendRefused (kind : AccessKind) (addr : Word)
  | accepted (access : Access) (cycle : Nat)
  | advanced (cycle : Nat) (firing : Firing)
  | scheduled (kind : AccessKind) (addr : Word) (cycle due : Nat)
  | replyQueued (addr : Word) (cycle : Nat)
  | writeRetired (addr : Word) (latency : Nat)
  | readDrained (addr : Word) (cycle latency : Nat)
  | replyUnmatched (addr : Word) (cycle : Nat)
  | frontendLeftOver (count : Nat)
  | frontendClosed (cycles : Nat)
  | engineLeftOver (count : Nat)
  | engineClosed (cycles served : Nat)
  | repliesLeftOver (count : Nat)
  | bridgeClosed (cycles accepted drained : Nat)
  | smokeStarted (requests frontendRatio engineRatio : Nat)
  | smokeUnexpected (addr : Word)
  | smokeMismatch (addr got expected : Word)
  | smokeStalled (cycles : Nat)
  | smokeFinished (cycle : Nat)
  | smokeStopped (outstanding unissued : Nat)
  deriving DecidableEq, Repr

namespace Event

/-- The urgency of an event. -/
def severity : Event → Severity
  | settingsLoaded .. | bridgeReady .. | bridgeClosed .. | smokeStarted .. | smokeFinished .. =>
    .info
  | overlapRefused .. | frontendRefused .. | accepted .. | readDrained .. | frontendClosed ..
  | engineClosed .. => .debug
  | advanced .. | scheduled .. | replyQueued .. | writeRetired .. => .trace
  | replyUnmatched .. | frontendLeftOver .. | engineLeftOver .. | repliesLeftOver ..
  | smokeUnexpected .. | smokeMismatch .. | smokeStalled .. | smokeStopped .. => .warn

/-- The component that reports an event, as the log names it. -/
def component : Event → String
  | settingsLoaded .. | bridgeReady .. | overlapRefused .. | frontendRefused .. | accepted ..
  | advanced .. | writeRetired .. | readDrained .. | replyUnmatched .. | repliesLeftOver ..
  | bridgeClosed .. => "membridge_core::session"
  | scheduled .. | engineLeftOver .. | engineClosed .. => "membridge_core::engine::memory"
  | frontendLeftOver .. | frontendClosed .. => "membridge_core::engine::frontend"
  | replyQueued .. => "membridge_core::completion"
  | smokeStarted .. | smokeUnexpected .. | smokeMismatch .. | smokeStalled .. | smokeFinished ..
  | smokeStopped .. => "membridge::smoke"

/-- What an event says, without its fields. -/
def message : Event → String
  | settingsLoaded path => s!"loaded bridge configuration from {path}"
  | bridgeReady .. => "bridge session ready"
  | overlapRefused kind addr =>
    s!"{kind.word} {Text.hex addr} refused: address already in flight"
  | frontendRefused kind addr => s!"{kind.word} {Text.hex addr} rejected by frontend"
  | accepted access _ => s!"{access.kind.word} {Text.hex access.addr} accepted"
  | advanced .. => "advance"
  | scheduled kind addr .. => s!"{kind.word} {Text.hex addr} scheduled"
  | replyQueued addr _ => s!"completion queued for {Text.hex addr}"
  | writeRetired addr _ => s!"write {Text.hex addr} retired"
  | readDrained addr .. => s!"read {Text.hex addr} drained"
  | replyUnmatched addr _ =>
    s!"unmatched completion for {Text.hex addr}: no in-flight read recorded"
  | frontendLeftOver count => s!"frontend finalized with {count} request(s) never forwarded"
  | frontendClosed _ => "frontend finalized"
  | engineLeftOver count => s!"timing engine finalized with {count} request(s) still in flight"
  | engineClosed .. => "timing engine finalized"
  | repliesLeftOver count => s!"session finalized with {count} undrained completion(s)"
  | bridgeClosed .. => "bridge session finalized"
  | smokeStarted .. => "starting smoke run"
  | smokeUnexpected addr => s!"completion for {Text.hex addr} not matched to a pending read"
  | smokeMismatch addr got expected =>
    s!"functional mismatch at {Text.hex addr}: got {Text.hexFull got}, " ++
      s!"expected {Text.hexFull expected}"
  | smokeStalled cycles => s!"stalled for {cycles} cycles; possible deadlock"
  | smokeFinished cycle => s!"all requests completed at cycle {cycle}"
  | smokeStopped outstanding unissued =>
    s!"stopped with {outstanding} read(s) outstanding and {unissued} request(s) unissued"

/-- The named facts that follow the message, in their order. -/
def fields : Event → List (String × String)
  | bridgeReady front engine rule =>
    [("frontend_ratio", toString front), ("engine_ratio", toString engine), ("policy", rule.name)]
  | accepted access cycle =>
    [("cycle", toString cycle), ("source_id", toString access.source)]
  | advanced cycle firing =>
    [("cycle", toString cycle), ("frontend", toString firing.frontend),
      ("engine", toString firing.engine)]
  | scheduled _ _ cycle due => [("cycle", toString cycle), ("due", toString due)]
  | replyQueued _ cycle => [("cycle", toString cycle)]
  | writeRetired _ latency => [("latency", toString latency)]
  | readDrained _ cycle latency => [("cycle", toString cycle), ("latency", toString latency)]
  | replyUnmatched _ cycle => [("cycle", toString cycle)]
  | frontendClosed cycles => [("cycles", toString cycles)]
  | engineClosed cycles served => [("cycles", toString cycles), ("served", toString served)]
  | bridgeClosed cycles taken drained =>
    [("cycles", toString cycles), ("accepted", toString taken), ("drained", toString drained)]
  | smokeStarted requests front engine =>
    [("requests", toString requests), ("frontend_ratio", toString front),
      ("engine_ratio", toString engine)]
  | _ => []

/-- The message followed by the fields. -/
def text (e : Event) : String :=
  e.fields.foldl (fun line field => line ++ " " ++ field.1 ++ "=" ++ field.2) e.message

/-- An event on one line: severity, message and fields. -/
def line (e : Event) : String := e.severity.label ++ " " ++ e.text

/-- An event on one line that also names the component. -/
def componentLine (e : Event) : String :=
  e.severity.label ++ " " ++ e.component ++ ": " ++ e.text

/-- Whether an event is at least as urgent as a threshold. -/
def passes (threshold : Severity) (e : Event) : Bool := e.severity.rank ≤ threshold.rank

end Event

end CycleBridge
