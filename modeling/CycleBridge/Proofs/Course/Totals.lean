import CycleBridge.Proofs.Course.Steps

/-!
# The total of the latencies

Every drained reply that found its open read is charged a latency. A bridge adds the latencies up in
one word: what it holds is their sum, less a multiple of the size of a word once they outgrow it.
-/

namespace CycleBridge

namespace Course

variable {σ : Type} {k : Course σ}

/-- What was charged for the drained replies. -/
def latencies (k : Course σ) : List Nat := k.delivered.filterMap (·.latency)

theorem latencies_drain (k : Course σ) (d : Delivery) (b : Bridge σ) :
    (k.drain d b).latencies = k.latencies ++ d.latency.toList := by
  cases hl : d.latency <;> simp [latencies, hl]

end Course

namespace Bridge

variable {σ : Type} [LatencyModel σ] {b : Bridge σ}

end Bridge

end CycleBridge
