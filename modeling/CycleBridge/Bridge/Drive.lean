import CycleBridge.Bridge.Call

/-!
# Driving a bridge for a while

Stretches of calls that drivers use often: several steps of the clock, draining all that waits, and
stepping until nothing is open.
-/

namespace CycleBridge

/-- What a stretch of calls brought: the drained replies and the events, in order, and the bridge
afterwards. -/
structure Stretch (σ : Type) where
  replies : Array Reply := #[]
  events : Array Event := #[]
  bridge : Bridge σ

namespace Stretch

variable {σ : Type}

/-- Steps the clock once. -/
def advance [LatencyModel σ] (s : Stretch σ) : Stretch σ :=
  let a := s.bridge.advance
  { s with events := s.events.appendList a.events, bridge := a.bridge }

/-- Steps the clock a number of times. -/
def advanceBy [LatencyModel σ] (s : Stretch σ) : Nat → Stretch σ
  | 0 => s
  | n + 1 => s.advance.advanceBy n

/-- Drains up to a number of replies. -/
def drainUpTo (s : Stretch σ) : Nat → Stretch σ
  | 0 => s
  | n + 1 =>
    match s.bridge.drain? with
    | none => s
    | some (d, bridge) =>
      drainUpTo { replies := s.replies.push d.reply, events := s.events.push d.event, bridge } n

/-- Drains every reply that waits. -/
def drainAll (s : Stretch σ) : Stretch σ := s.drainUpTo s.bridge.replies.size

/-- Drains all and steps the clock in turn, until nothing is open after a drain or the given number
of rounds is over. -/
def untilIdle [LatencyModel σ] (s : Stretch σ) : Nat → Stretch σ
  | 0 => s
  | n + 1 =>
    let drained := s.drainAll
    if drained.bridge.isIdle then drained else drained.advance.untilIdle n

end Stretch

end CycleBridge
