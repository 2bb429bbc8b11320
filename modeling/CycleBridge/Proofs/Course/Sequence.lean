import CycleBridge.Proofs.Course.Schedule

/-!
# One latency, one order

Where every access takes equally long, no flight overtakes another: what enters the engine stands
behind all that is in flight, also where due cycles are held at the largest word. So accesses end
in the order in which they were accepted, whatever the clocks, the room and the overlap rule are.
-/

namespace CycleBridge

open Flight LatencyModel

namespace Bridge

variable {σ : Type} [LatencyModel σ]

section OneLatency

variable {latency : Word} {b : Bridge σ}
  (hdue : ∀ f ∈ b.engine.inFlight, f.due ≤ Word.clamp (b.engine.cycle + latency.toNat))
  (hnew : ∀ f ∈ b.advance.forwarded, f.latency = latency)
include hdue hnew

theorem midway_appends :
    b.midway.engine.inFlight = b.engine.inFlight ++ b.advance.forwarded := by
  rw [advance_forwarded] at hnew ⊢
  rw [midway]
  unfold passFrontend at hnew ⊢
  split
  · next hfires =>
      rw [if_pos hfires] at hnew
      exact Frontend.forward_appends b.frontend.pending hdue hnew
  · exact (List.append_nil _).symm

/-- A step of the clock serves from the head of the line and adds to its end. -/
theorem advance_appends :
    b.advance.served ++ b.advance.bridge.engine.inFlight =
      b.engine.inFlight ++ b.advance.forwarded := by
  rw [advance_served, advance_bridge, passEngine_inFlight]
  exact midway_appends hdue hnew

end OneLatency

/-- With one latency, no flight is due later than one that would enter now. -/
theorem due_le_of_always {b : Bridge σ} (hb : b.IsNew) {latency : Word}
    (h : Always b.engine.model (· = latency)) (calls : List Call) :
    ∀ f ∈ (b.after calls).engine.inFlight,
      f.due ≤ Word.clamp ((b.after calls).engine.cycle + latency.toNat) := by
  intro f hf
  obtain ⟨p, hp, rfl, -⟩ := exists_entry_of_inFlight hb calls hf
  obtain ⟨-, -, hdue⟩ := (scheduled hb calls).entered p hp
  have hlatency : p.flight.latency = latency := latency_of_entry h calls hp
  rw [hdue, hlatency]
  apply Word.clamp_mono
  exact Nat.add_le_add_right (turn_le_of_entry hb calls hp) _

end Bridge

namespace Course

variable {σ : Type}

/-- The flights that left and those under way are the flights that entered, in the order of their
entry. -/
def InSequence (k : Course σ) : Prop :=
  k.served ++ k.bridge.engine.inFlight = k.forwarded

theorem inSequence_step [LatencyModel σ] {k k' : Course σ} {news : List Occurrence} {latency : Word}
    (hdue : ∀ f ∈ k.bridge.engine.inFlight,
      f.due ≤ Word.clamp (k.bridge.engine.cycle + latency.toNat))
    (hlatency : ∀ f ∈ k'.forwarded, f.latency = latency)
    (h : k.InSequence) (hs : k.Step news k') : k'.InSequence := by
  cases hs with
  | stay => exact h
  | accept a data allowed room => simpa [InSequence] using h
  | refuseOverlap => exact h
  | refuseFull => exact h
  | advance =>
      have hnew : ∀ f ∈ k.bridge.advance.forwarded, f.latency = latency := by
        intro f hf
        exact hlatency f (List.mem_append_right _ hf)
      have hline := Bridge.advance_appends hdue hnew
      unfold InSequence at h ⊢
      rw [advance_served, advance_bridge, advance_forwarded, List.append_assoc, hline,
        ← List.append_assoc, h]
  | drain d b drains =>
      unfold InSequence at h ⊢
      rw [drain_served, drain_bridge, drain_forwarded, drains.engine, h]

end Course

namespace Bridge

theorem course_inSequence {σ : Type} [LatencyModel σ] {b : Bridge σ} (hb : b.IsNew) {latency : Word}
    (h : Always b.engine.model (· = latency)) (calls : List Call) :
    (b.course calls).InSequence := by
  have hstart : Course.InSequence { bridge := b } := by
    obtain ⟨clock, ratio, ratio', depth, capacity, model, rule, rfl⟩ := hb.exists_eq
    rfl
  apply journal_induction (I := fun _ k => k.InSequence) hstart
  intro calls c news hk hs
  have hdue := due_le_of_always hb h calls
  rw [← course_bridge] at hdue
  exact Course.inSequence_step hdue (latency_of_always h _) hk hs

/-- With a fixed latency, whatever it is, a bridge is one line from end to end. The accepted
requests are those that left the engine, then those in flight, then those that wait in the
frontend, each part in the order of acceptance: the request that leaves as number `n` is the one
accepted as number `n`. The replies, drained or waiting, are those of the reads among the accesses
that are through, in their order. -/
theorem one_latency_keeps_order :
    (∀ m : FixedLatency,
      Always m (· = m.latency) ∧ Always (Controller.fixed m) (· = m.latency)) ∧
    ∀ {σ : Type} [LatencyModel σ] {b : Bridge σ} {latency : Word}, b.IsNew →
      Always b.engine.model (· = latency) → ∀ calls,
        let k := b.course calls
        let s := b.after calls
        k.accepted.map (·.access.request) =
          k.served.map (·.request) ++ s.engine.inFlight.map (·.request) ++ s.frontend.pending ∧
        k.served.map (·.arrival) = List.range k.served.length ∧
        k.delivered.map (·.reply.addr) ++ s.replies.waiting.map (·.addr) =
          ((k.accepted.take k.served.length).filter (·.access.kind = .read)).map
            (·.access.addr) := by
  refine ⟨fun m => ⟨always_fixed m, always_fixed_controller m⟩, ?_⟩
  intro σ _ b latency hb h calls k s
  have hc : k.Conserved := course_conserved hb calls
  have hline : k.served ++ k.bridge.engine.inFlight = k.forwarded := course_inSequence hb h calls
  have hs : k.bridge = s := course_bridge b calls
  clear_value s
  subst hs
  have haccepted : k.accepted.map (·.access.request) =
      k.served.map (·.request) ++ k.bridge.engine.inFlight.map (·.request) ++
        k.bridge.frontend.pending := by
    rw [← hc.inOrder, ← hline, List.map_append]
  have hserved : k.served = k.forwarded.take k.served.length := by
    rw [← hline, List.take_left]
  have hthrough : k.served.map (·.request) =
      (k.accepted.take k.served.length).map (·.access.request) := by
    rw [List.map_take, haccepted, List.append_assoc, List.take_left' (List.length_map _)]
  refine ⟨haccepted, ?_, ?_⟩
  · have hlen := hc.length_forwarded
    rw [hserved, List.map_take, hc.arrivals, List.take_range, List.length_take]
  · calc
      k.delivered.map (·.reply.addr) ++ k.bridge.replies.waiting.map (·.addr) =
          (reads k.served).map (·.request.addr) := hc.replies
      _ = ((k.served.map (·.request)).filter (·.kind = .read)).map (·.addr) := by
        rw [List.filter_map, List.map_map]
        rfl
      _ = (((k.accepted.take k.served.length).map (·.access.request)).filter
            (·.kind = .read)).map (·.addr) := by
        rw [hthrough]
      _ = ((k.accepted.take k.served.length).filter (·.access.kind = .read)).map
            (·.access.addr) := by
        rw [List.filter_map, List.map_map]
        rfl

/-- A latency of two engine cycles: of five accepted requests two are through, two are in flight and
one waits. -/
theorem one_latency_keeps_order_small :
    let b := small (Controller.fixed ⟨2⟩) .track
    let calls := [.submit ⟨1, .write, 0⟩ 5, .submit ⟨2, .read, 0⟩ 0, .advance, .advance,
      .submit ⟨1, .read, 1⟩ 0, .submit ⟨3, .write, 1⟩ 7, .advance, .advance,
      .submit ⟨4, .read, 0⟩ 0, .drain]
    b.IsNew ∧ Always b.engine.model (· = 2) ∧
      (b.course calls).accepted.length = 5 ∧ (b.after calls).engine.inFlight.length = 2 ∧
      (b.after calls).frontend.pending.length = 1 ∧
      (b.course calls).served.map (·.request) <+:
        (b.course calls).accepted.map (·.access.request) ∧
      (b.course calls).served.map (·.arrival) = [0, 1] ∧
      (b.course calls).delivered.map (·.reply.addr) = [2] := by
  intro b calls
  have hnew : b.IsNew := small_isNew _ _
  obtain ⟨hmodels, hruns⟩ := one_latency_keeps_order
  have hmodel : Always b.engine.model (· = 2) := (hmodels ⟨2⟩).2
  obtain ⟨hline, harrivals, hreplies⟩ := hruns hnew hmodel calls
  have hthrough : (b.course calls).served.length = 2 := by decide
  have hnone : (b.after calls).replies.waiting = [] := by decide
  refine ⟨hnew, hmodel, by decide, by decide, by decide, ?_, ?_, ?_⟩
  · rw [hline, List.append_assoc]
    exact List.prefix_append _ _
  · rw [harrivals, hthrough]
    rfl
  · rw [hnone, List.map_nil, List.append_nil] at hreplies
    rw [hreplies]
    decide

end Bridge

end CycleBridge
