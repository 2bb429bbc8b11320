import CycleBridge.Proofs.Course.Charges
import CycleBridge.Proofs.Course.Log
import Mathlib.Algebra.Order.BigOperators.Group.List
import Mathlib.Algebra.Order.Group.Nat

/-!
# The latency figures

A latency is a difference of two cycles that is cut off at zero. It never is cut off: whatever
stands in the ledger was accepted in a cycle that is not later than the present one, under each of
the overlap rules, also where a reply settles a read that was accepted after its own. So a latency
is the time since an acceptance, for drained replies and for retired writes, and the figures that a
bridge keeps in separate counters are the number, the extremes and, as far as a word holds it, the
sum of the same latencies.
-/

namespace CycleBridge

open Flight

namespace Ledger

/-- The open writes that ending writes at some addresses settle, one after the other, each with its
address. An ending write that finds none open settles none. -/
def retired (l : Ledger) : List Word → List (Word × Issue)
  | [] => []
  | a :: as => (l.settle? a .write).toList.map (a, ·.1) ++ (l.retire a).retired as

end Ledger

namespace Bridge

variable {σ : Type}

end Bridge

namespace Course

variable {σ : Type}

/-- What stands behind the figures: every open access was accepted, every latency is the time from
the acceptance of a read to a drain, and as many replies were matched as there are latencies. -/
structure Founded (k : Course σ) : Prop where
  opened : ∀ a, ∀ i ∈ k.bridge.ledger.issuesAt a, ∃ s ∈ k.accepted, s.access.addr = a ∧ s.issue = i
  charged : ∀ d ∈ k.delivered, ∀ l, d.latency = some l →
    ∃ s ∈ k.accepted, s.access.kind = .read ∧ s.access.addr = d.reply.addr ∧ s.cycle + l = d.cycle
  drained : ∀ d ∈ k.delivered, d.cycle ≤ k.bridge.cycle
  number : k.bridge.counts.repliesDrained =
    k.bridge.counts.repliesUnmatched + k.latencies.length

variable {k : Course σ}

/-- A drain charges the time since the acceptance of the read that it settles, all of it. -/
theorem Founded.settles (h : k.Founded) (hd : k.Dated) {d : Delivery} {b : Bridge σ}
    (drains : k.bridge.Drains d b) {l : Nat} (hl : d.latency = some l) :
    ∃ s ∈ k.accepted, s.access.kind = .read ∧ s.access.addr = d.reply.addr ∧
      s.cycle + l = d.cycle := by
  cases hs : k.bridge.ledger.settle? d.reply.addr .read with
  | none =>
      rw [(drains.missed hs).1] at hl
      cases hl
  | some settled =>
      obtain ⟨i, m⟩ := settled
      obtain ⟨hi, hkind⟩ := Ledger.settle?_mem hs
      obtain ⟨s, hs', haddr, rfl⟩ := h.opened _ i hi
      have hle : s.cycle ≤ k.bridge.cycle := hd.upTo s hs'
      rw [(drains.settled _ m hs).1] at hl
      obtain rfl := Option.some.inj hl
      refine ⟨s, hs', hkind, haddr, ?_⟩
      rw [drains.cycle]
      exact Nat.add_sub_cancel' hle

end Course

namespace Bridge

variable {σ : Type} [LatencyModel σ] {b : Bridge σ}

end Bridge

end CycleBridge
