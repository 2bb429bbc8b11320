import CycleBridge.Proofs.Course.Correlation
import CycleBridge.Proofs.Course.Schedule
import CycleBridge.Proofs.Engine.Rows

/-!
# Row behaviour follows the order of acceptance

The latency model of a bridge is asked for the accepted addresses in the order of acceptance, each of
them once, when its request enters the engine. Clocks, room and overlap rule decide when that is and
what is accepted at all, but not what the model answers; a request that the engine refuses, however
often it is offered again, does not reach the model before it is taken.
-/

namespace CycleBridge

open LatencyModel

namespace Course

variable {σ : Type} [LatencyModel σ]

theorem reflects_move {k k' : Course σ}
    (h : k.bridge.engine.counts.Reflects (k.forwarded.map Flight.answer)) (hm : Move k k') :
    k'.bridge.engine.counts.Reflects (k'.forwarded.map Flight.answer) := by
  cases hm with
  | accept a data allowed room => simpa using h
  | transfer =>
      rw [List.map_append]
      exact Frontend.forward_reflects k.bridge.frontend.pending h
  | serve => exact Engine.tick_reflects h
  | _ => exact h

end Course

namespace Bridge

variable {σ : Type} [LatencyModel σ]

theorem course_reflects {b : Bridge σ} (hb : b.IsNew) (calls : List Call) :
    (b.after calls).engine.counts.Reflects ((b.course calls).forwarded.map Flight.answer) := by
  have hstart : b.engine.counts.Reflects [] := by
    obtain ⟨clock, ratio, ratio', depth, capacity, model, rule, rfl⟩ := hb.exists_eq
    exact .nil
  rw [← course_bridge]
  apply course_invariant
    (I := fun k => k.bridge.engine.counts.Reflects (k.forwarded.map Flight.answer)) hstart
  intro k k' h hm
  exact Course.reflects_move h hm

/-- The model is asked for the addresses of the accesses that entered, in the order of their
acceptance. -/
theorem asked_in_order {b : Bridge σ} (hb : b.IsNew) (calls : List Call) :
    let k := b.course calls
    run b.engine.model ((k.accepted.take k.forwarded.length).map (·.access.addr)) =
      (k.forwarded.map Flight.answer, (b.after calls).engine.model) := by
  intro k
  have hentered := congrArg (List.map (·.addr)) (course_conserved hb calls).entered_requests
  rw [List.map_map, List.map_map] at hentered
  have hasks := course_asks b calls
  rw [course_bridge] at hasks
  exact (congrArg (run b.engine.model) hentered).trans hasks

/-- The first `n` answers are those to the first `n` accepted addresses. -/
theorem answers_take {b : Bridge σ} (hb : b.IsNew) (calls : List Call) {n : Nat}
    (hn : n ≤ (b.course calls).forwarded.length) :
    ((b.course calls).forwarded.take n).map Flight.answer =
      (run b.engine.model (((b.course calls).accepted.take n).map (·.access.addr))).1 := by
  have hasked := congrArg (fun answered => answered.1.take n) (asked_in_order hb calls)
  simp only [← run_take, ← List.map_take, List.take_take, Nat.min_eq_left hn] at hasked
  exact hasked.symm

/-- Where the model answers as a row buffer that starts closed, every forwarded request is counted
under one outcome, and the first one alone as a miss. -/
theorem closed_row_counts {b : Bridge σ} (hb : b.IsNew) {m : RowBuffer} (hm : m.openRow = none)
    (halike : Alike b.engine.model m) (calls : List Call) :
    let s := b.after calls
    s.engine.counts.rowAccesses = s.frontend.counts.forwarded ∧
      s.engine.counts.rowMisses = if s.frontend.counts.forwarded = 0 then 0 else 1 := by
  intro s
  let addrs := ((b.course calls).accepted.take (b.course calls).forwarded.length).map
    (·.access.addr)
  have hanswers : (b.course calls).forwarded.map Flight.answer = (run m addrs).1 := by
    rw [← halike, asked_in_order hb calls]
  have hforwarded : s.frontend.counts.forwarded = addrs.length := by
    rw [← length_run m addrs, ← hanswers, List.length_map, ← (course_tallied hb calls).forwarded,
      course_bridge]
  have hc : s.engine.counts.Reflects (run m addrs).1 := hanswers ▸ course_reflects hb calls
  simp only [hforwarded, List.length_eq_zero_iff]
  exact hc.rowBuffer_counts hm

/-- Row behaviour depends on the order of acceptance alone. Take two new bridges whose latency models
answer alike, as two models in one state do, with clocks, room and overlap rules of their own, and
two runs in which the first `n` accepted addresses are the same. Once both have forwarded `n`
requests, each of these had the same latency and row outcome in both; with exactly `n` forwarded the
row counters and the busy time are the same. The model is asked once for each access that entered,
and a request that the engine refuses reaches neither the model nor these counters. With a row buffer
that starts closed every forwarded request is counted under one outcome, and the first one alone as a
miss. -/
theorem rows_follow_acceptance :
    (∀ {σ τ : Type} [LatencyModel σ] [LatencyModel τ] {b : Bridge σ} {b' : Bridge τ},
      b.IsNew → b'.IsNew → Alike b.engine.model b'.engine.model → ∀ calls calls' (n : Nat),
        let k := b.course calls
        let k' := b'.course calls'
        let c := (b.after calls).engine.counts
        let c' := (b'.after calls').engine.counts
        (k.accepted.take n).map (·.access.addr) = (k'.accepted.take n).map (·.access.addr) →
        n ≤ k.forwarded.length → n ≤ k'.forwarded.length →
          (k.forwarded.take n).map Flight.answer = (k'.forwarded.take n).map Flight.answer ∧
          (k.forwarded.length = n → k'.forwarded.length = n →
            c.rowHits = c'.rowHits ∧ c.rowMisses = c'.rowMisses ∧
            c.rowConflicts = c'.rowConflicts ∧ c.busyCycles = c'.busyCycles)) ∧
    (∀ {σ : Type} [LatencyModel σ] {b : Bridge σ}, b.IsNew → ∀ calls,
      let k := b.course calls
      run b.engine.model ((k.accepted.take k.forwarded.length).map (·.access.addr)) =
        (k.forwarded.map Flight.answer, (b.after calls).engine.model)) ∧
    (∀ {σ : Type} [LatencyModel σ] (e : Engine σ) (r : Request), (e.offer r).1 = none →
      (e.offer r).2 = { e with counts := { e.counts with refused := e.counts.refused + 1 } }) ∧
    (∀ m : RowBuffer, Alike (Controller.rowBuffer m) m) ∧
    ∀ {σ : Type} [LatencyModel σ] {b : Bridge σ}, b.IsNew → ∀ tCas tRas tPre rowBits,
      Alike b.engine.model (RowBuffer.ofTimings tCas tRas tPre rowBits) → ∀ calls,
        let s := b.after calls
        s.engine.counts.rowAccesses = s.frontend.counts.forwarded ∧
        s.engine.counts.rowMisses = if s.frontend.counts.forwarded = 0 then 0 else 1 := by
  refine ⟨?_, asked_in_order, fun e r => e.refused_eq, alike_rowBuffer_controller,
    fun hb tCas tRas tPre rowBits halike => closed_row_counts hb rfl halike⟩
  intro σ τ _ _ b b' hb hb' halike calls calls' n k k' c c' hagree hn hn'
  have hanswers : (k.forwarded.take n).map Flight.answer =
      (k'.forwarded.take n).map Flight.answer := by
    rw [answers_take hb calls hn, answers_take hb' calls' hn', halike]
    exact congrArg (fun addrs => (run b'.engine.model addrs).1) hagree
  refine ⟨hanswers, ?_⟩
  intro hall hall'
  rw [List.take_of_length_le hall.le, List.take_of_length_le hall'.le] at hanswers
  have hc : c.Reflects (k.forwarded.map Flight.answer) := course_reflects hb calls
  have hc' : c'.Reflects (k'.forwarded.map Flight.answer) := course_reflects hb' calls'
  exact hc.counts_eq (hanswers ▸ hc')

/-- Two reads of one row and an access to another, in a bridge that refuses a fourth access for want
of room, and with other clocks and another overlap rule: a miss, a hit and a conflict in both. -/
theorem rows_follow_acceptance_crossed :
    let model := Controller.rowBuffer (RowBuffer.ofTimings 1 4 2)
    let b := small model .track
    let calls := [.submit ⟨5, .read, 0⟩ 0, .submit ⟨6, .read, 0⟩ 0, .advance, .advance,
      .submit ⟨5000, .read, 0⟩ 0, .submit ⟨5, .write, 0⟩ 7, .advance, .advance]
    let b' := crossed model .overwrite
    let calls' := [.submit ⟨5, .write, 1⟩ 3, .advance, .submit ⟨6, .read, 1⟩ 0, .advance, .advance,
      .submit ⟨5000, .read, 1⟩ 0, .advance, .drain, .advance, .advance]
    b.IsNew ∧ b'.IsNew ∧ Alike b.engine.model b'.engine.model ∧
      Alike b.engine.model (RowBuffer.ofTimings 1 4 2) ∧
      ((b.course calls).accepted.take 3).map (·.access.addr) =
        ((b'.course calls').accepted.take 3).map (·.access.addr) ∧
      (b.course calls).forwarded.length = 3 ∧ (b'.course calls').forwarded.length = 3 ∧
      (b.after calls).engine.counts.refused = 1 ∧
      (b.course calls).forwarded.map Flight.answer =
        [(5, some .miss), (1, some .hit), (7, some .conflict)] ∧
      ((b.course calls).forwarded.take 3).map Flight.answer =
        ((b'.course calls').forwarded.take 3).map Flight.answer ∧
      (b.after calls).engine.counts.busyCycles = (b'.after calls').engine.counts.busyCycles ∧
      (∀ e : Engine Controller, ∀ r, (e.offer r).1 = none → (e.offer r).2.model = e.model) ∧
      (b.after calls).engine.counts.rowMisses = 1 := by
  intro model b calls b' calls'
  have hnew : b.IsNew := small_isNew _ _
  have hnew' : b'.IsNew := crossed_isNew _ _
  have halike : Alike b.engine.model b'.engine.model := Alike.refl model
  obtain ⟨hruns, -, hrefused, hmodel, hmisses⟩ := rows_follow_acceptance
  have hfresh : Alike b.engine.model (RowBuffer.ofTimings 1 4 2) := hmodel _
  have hagree : ((b.course calls).accepted.take 3).map (·.access.addr) =
      ((b'.course calls').accepted.take 3).map (·.access.addr) := by decide
  have hlen : (b.course calls).forwarded.length = 3 := by decide
  have hlen' : (b'.course calls').forwarded.length = 3 := by decide
  obtain ⟨hanswers, hcounts⟩ := hruns hnew hnew' halike calls calls' 3 hagree hlen.ge hlen'.ge
  obtain ⟨-, -, -, hbusy⟩ := hcounts hlen hlen'
  obtain ⟨-, hmiss⟩ := hmisses hnew 1 4 2 RowBuffer.usualRowBits hfresh calls
  have hforwarded : (b.after calls).frontend.counts.forwarded = 3 := by decide
  rw [hforwarded] at hmiss
  refine ⟨hnew, hnew', halike, hfresh, hagree, hlen, hlen', by decide, by decide, hanswers, hbusy, ?_,
    hmiss⟩
  intro e r h
  rw [hrefused e r h]

end Bridge

end CycleBridge
