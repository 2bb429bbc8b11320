import CycleBridge.Bridge.Close
import CycleBridge.Proofs.Course.Basic
import Mathlib.Data.List.Range

/-!
# No request is lost

Along every run the accepted requests are those that the engine took, in the order of acceptance,
followed by those that still wait in the frontend, and every request that the engine took has left
it or is still in flight. The counters of the three parts agree with this record and so with each
other.
-/

namespace CycleBridge

open Flight

/-- Two bridges with the same ratios, room and overlap rule. -/
structure Bridge.SameSettings {σ : Type} (b b' : Bridge σ) : Prop where
  frontendRatio : b'.clock.frontendRatio = b.clock.frontendRatio
  engineRatio : b'.clock.engineRatio = b.clock.engineRatio
  depth : b'.frontend.depth = b.frontend.depth
  capacity : b'.engine.capacity = b.engine.capacity
  rule : b'.ledger.rule = b.ledger.rule

theorem Submission.countP_kinds (list : List Submission) :
    list.countP (·.access.kind = .read) + list.countP (·.access.kind = .write) = list.length := by
  induction list with
  | nil => rfl
  | cons s rest ih =>
      simp only [List.countP_cons, List.length_cons]
      cases s.access.kind <;> simp <;> omega

namespace Course

variable {σ : Type}

/-- Where the accepted requests are, and which replies the served reads left. -/
structure Conserved (k : Course σ) : Prop where
  inOrder : k.forwarded.map (·.request) ++ k.bridge.frontend.pending =
    k.accepted.map (·.access.request)
  inEngine : (k.served ++ k.bridge.engine.inFlight).Perm k.forwarded
  arrivals : k.forwarded.map (·.arrival) = List.range k.forwarded.length
  taken : k.bridge.engine.taken = k.forwarded.length
  pending_le : k.bridge.frontend.pending.length ≤ k.bridge.frontend.depth
  inFlight_le : k.bridge.engine.inFlight.length ≤ k.bridge.engine.capacity
  replies : k.delivered.map (·.reply.addr) ++ k.bridge.replies.waiting.map (·.addr) =
    (reads k.served).map (·.request.addr)

/-- What each counter of the bridge and its sides has counted. -/
structure Tallied (k : Course σ) : Prop where
  readsAccepted : k.bridge.counts.readsAccepted = k.accepted.countP (·.access.kind = .read)
  writesAccepted : k.bridge.counts.writesAccepted = k.accepted.countP (·.access.kind = .write)
  accepted : k.bridge.frontend.counts.accepted = k.accepted.length
  forwarded : k.bridge.frontend.counts.forwarded = k.forwarded.length
  readsServed : k.bridge.engine.counts.readsServed = (reads k.served).length
  writesServed : k.bridge.engine.counts.writesServed = (writes k.served).length
  drained : k.bridge.counts.repliesDrained = k.delivered.length
  rejections : k.bridge.counts.rejections =
    k.bridge.frontend.counts.rejected + k.overlapRefusals
  frontendTicks : k.bridge.frontend.counts.cycles = k.bridge.counts.frontendTicks
  engineTicks : k.bridge.engine.cycle = k.bridge.counts.engineTicks

namespace Conserved

variable {k : Course σ} (h : k.Conserved)
include h

theorem standard_of_mem_inFlight : ∀ f ∈ k.bridge.engine.inFlight, f.request.Standard := by
  intro f hf
  have hfwd : f ∈ k.forwarded := h.inEngine.subset (List.mem_append_right _ hf)
  have hm : f.request ∈ k.accepted.map (·.access.request) :=
    h.inOrder ▸ List.mem_append_left _ (List.mem_map_of_mem hfwd)
  obtain ⟨s, _, hs⟩ := List.mem_map.mp hm
  exact hs ▸ s.access.request_standard

theorem standard_of_mem_served : ∀ f ∈ k.bridge.driveEngine.1, f.request.Standard := by
  intro f hf
  apply h.standard_of_mem_inFlight
  rw [← k.bridge.driveEngine_inFlight]
  exact List.mem_append_left _ hf

theorem length_accepted :
    k.accepted.length = k.forwarded.length + k.bridge.frontend.pending.length := by
  simpa using (congrArg List.length h.inOrder).symm

theorem length_forwarded :
    k.forwarded.length = k.served.length + k.bridge.engine.inFlight.length := by
  simpa using h.inEngine.length_eq.symm

theorem length_reads :
    (reads k.served).length = k.delivered.length + k.bridge.replies.waiting.length := by
  simpa using (congrArg List.length h.replies).symm

section Idle

variable (hpending : k.bridge.frontend.pending = []) (hinFlight : k.bridge.engine.inFlight = [])
include hpending hinFlight

/-- Where nothing is under way, what was accepted was served. -/
theorem served_of_idle :
    (k.served.map (·.request)).Perm (k.accepted.map (·.access.request)) := by
  have hinOrder := h.inOrder
  have hinEngine := h.inEngine
  rw [hpending, List.append_nil] at hinOrder
  rw [hinFlight, List.append_nil] at hinEngine
  rw [← hinOrder]
  exact hinEngine.map _

/-- Where nothing is under way, the replies are those of all accepted reads. -/
theorem replies_of_idle :
    (k.delivered.map (·.reply.addr) ++ k.bridge.replies.waiting.map (·.addr)).Perm
      ((k.accepted.filter (·.access.kind = .read)).map (·.access.addr)) := by
  have hreads := ((h.served_of_idle hpending hinFlight).filter (·.kind = .read)).map (·.addr)
  rw [List.filter_map, List.filter_map, List.map_map, List.map_map] at hreads
  rw [h.replies]
  exact hreads

end Idle

end Conserved

theorem conserved_of_isNew {b : Bridge σ} (hb : b.IsNew) : Conserved { bridge := b } := by
  obtain ⟨clock, ratio, ratio', depth, capacity, model, rule, rfl⟩ := hb.exists_eq
  exact ⟨rfl, .refl _, rfl, rfl, Nat.zero_le _, Nat.zero_le _, rfl⟩

theorem tallied_of_isNew {b : Bridge σ} (hb : b.IsNew) : Tallied { bridge := b } := by
  obtain ⟨clock, ratio, ratio', depth, capacity, model, rule, rfl⟩ := hb.exists_eq
  exact ⟨rfl, rfl, rfl, rfl, rfl, rfl, rfl, rfl, rfl, rfl⟩

variable [LatencyModel σ]

theorem sameSettings_move {b : Bridge σ} {k k' : Course σ} (hc : k.Conserved)
    (h : b.SameSettings k.bridge) (hm : Move k k') : b.SameSettings k'.bridge := by
  cases hm with
  | accept a data allowed room =>
      constructor
      · simpa using h.frontendRatio
      · simpa using h.engineRatio
      · simpa [Frontend.enqueue] using h.depth
      · simpa using h.capacity
      · simpa [Ledger.enter] using h.rule
  | refuseOverlap => exact { h with }
  | refuseFull => exact { h with }
  | stepClock => exact { h with }
  | transfer => exact { h with capacity := k.bridge.driveFrontend_takes.capacity.trans h.capacity }
  | serve =>
      refine { h with rule := ?_ }
      rw [k.bridge.driveEngine_ledger hc.standard_of_mem_served, Ledger.retireAll_rule]
      exact h.rule
  | settle r rest i m waiting settled =>
      exact { h with rule := (Ledger.settle?_rule settled).trans h.rule }
  | miss r rest waiting unsettled => exact { h with }

theorem conserved_move {k k' : Course σ} (h : k.Conserved) (hm : Move k k') : k'.Conserved := by
  cases hm with
  | accept a data allowed room =>
      constructor
      · simp [Frontend.enqueue, ← h.inOrder]
      · simpa using h.inEngine
      · exact h.arrivals
      · simpa using h.taken
      · simpa [Frontend.enqueue] using Nat.succ_le_of_lt room
      · simpa using h.inFlight_le
      · simpa using h.replies
  | refuseOverlap => exact { h with }
  | refuseFull => exact { h with }
  | stepClock => exact { h with }
  | transfer =>
      have htakes := k.bridge.driveFrontend_takes
      have hreq := k.bridge.driveFrontend_requests
      constructor
      · rw [List.map_append, List.append_assoc, hreq]
        exact h.inOrder
      · have hin := htakes.inFlight.append_left k.served
        rw [← List.append_assoc] at hin
        exact hin.trans (h.inEngine.append_right _)
      · rw [List.map_append, h.arrivals, htakes.arrivals, h.taken, List.length_append,
          List.range_eq_range', List.range_eq_range', ← List.range'_append_1, Nat.zero_add]
      · rw [htakes.taken, h.taken, List.length_append]
      · have hlen := congrArg List.length hreq
        rw [List.length_append] at hlen
        have hle := h.pending_le
        change k.bridge.driveFrontend.2.frontend.pending.length ≤ k.bridge.frontend.depth
        omega
      · have hroom := htakes.room h.inFlight_le
        rwa [← htakes.capacity] at hroom
      · exact h.replies
  | serve =>
      have hin := k.bridge.driveEngine_inFlight
      refine { h with inEngine := ?_, taken := ?_, inFlight_le := ?_, replies := ?_ }
      · rw [List.append_assoc, hin]
        exact h.inEngine
      · exact k.bridge.engine.tick_taken.trans h.taken
      · have hlen := congrArg List.length hin
        rw [List.length_append] at hlen
        have hle := h.inFlight_le
        change k.bridge.driveEngine.2.2.engine.inFlight.length ≤ k.bridge.engine.capacity
        omega
      · rw [k.bridge.driveEngine_replies h.standard_of_mem_served, List.map_append,
          ← List.append_assoc, h.replies, reads_append, List.map_append, List.map_map]
        rfl
  | settle r rest i m waiting settled =>
      refine { h with replies := ?_ }
      have hr := h.replies
      simp only [waiting] at hr
      simpa using hr
  | miss r rest waiting unsettled =>
      refine { h with replies := ?_ }
      have hr := h.replies
      simp only [waiting] at hr
      simpa using hr

theorem conserved_moves {k k' : Course σ} (h : k.Conserved)
    (hm : Relation.ReflTransGen Move k k') : k'.Conserved := by
  induction hm with
  | refl => exact h
  | tail _ hmove ih => exact conserved_move ih hmove

theorem tallied_move {k k' : Course σ} (h : k.Tallied) (hm : Move k k') : k'.Tallied := by
  cases hm with
  | accept a data allowed room =>
      have hc := k.bridge.accept_counts a data
      constructor
      · simp [hc, h.readsAccepted, List.countP_singleton]
      · simp [hc, h.writesAccepted, List.countP_singleton]
      · simp [Frontend.enqueue, h.accepted]
      · simpa [Frontend.enqueue] using h.forwarded
      · simpa using h.readsServed
      · simpa using h.writesServed
      · simpa [hc] using h.drained
      · simpa [hc, Frontend.enqueue] using h.rejections
      · simpa [hc, Frontend.enqueue] using h.frontendTicks
      · simpa [hc] using h.engineTicks
  | refuseOverlap =>
      have hr := h.rejections
      refine { h with rejections := ?_ }
      simp only [Bridge.countRejection]
      omega
  | refuseFull =>
      have hr := h.rejections
      refine { h with rejections := ?_ }
      simp only [Bridge.countRejection, Frontend.countRefusal]
      omega
  | stepClock => exact { h with }
  | transfer =>
      have htakes := k.bridge.driveFrontend_takes
      refine { h with
        forwarded := ?_
        readsServed := htakes.reads.trans h.readsServed
        writesServed := htakes.writes.trans h.writesServed
        frontendTicks := congrArg (· + 1) h.frontendTicks
        engineTicks := htakes.cycle.trans h.engineTicks }
      rw [List.length_append, ← h.forwarded]
      rfl
  | serve =>
      refine { h with
        readsServed := ?_
        writesServed := ?_
        engineTicks := congrArg (· + 1) h.engineTicks }
      · rw [reads_append, List.length_append, ← h.readsServed]
        exact k.bridge.engine.tick_readsServed
      · rw [writes_append, List.length_append, ← h.writesServed]
        exact k.bridge.engine.tick_writesServed
  | settle r rest i m waiting settled =>
      refine { h with drained := ?_ }
      simp [BridgeCounts.addLatency, h.drained]
  | miss r rest waiting unsettled =>
      refine { h with drained := ?_ }
      simp [h.drained]

end Course

namespace Bridge

variable {σ : Type} [LatencyModel σ] {b : Bridge σ}

theorem course_conserved (hb : b.IsNew) (calls : List Call) : (b.course calls).Conserved := by
  apply course_invariant (Course.conserved_of_isNew hb)
  intro k k' h hm
  exact Course.conserved_move h hm

theorem course_tallied (hb : b.IsNew) (calls : List Call) : (b.course calls).Tallied := by
  apply course_invariant (Course.tallied_of_isNew hb)
  intro k k' h hm
  exact Course.tallied_move h hm

/-- What holds of a new bridge holds along every run, if each move keeps it where the requests are
conserved and the settings are those of the start. -/
theorem course_induction {I : Course σ → Prop} (hb : b.IsNew) (start : I { bridge := b })
    (step : ∀ k k', k.Conserved → b.SameSettings k.bridge → I k → Course.Move k k' → I k')
    (calls : List Call) : I (b.course calls) := by
  let J (k : Course σ) : Prop := k.Conserved ∧ b.SameSettings k.bridge ∧ I k
  have hstart : J { bridge := b } :=
    ⟨Course.conserved_of_isNew hb, ⟨rfl, rfl, rfl, rfl, rfl⟩, start⟩
  have hstep : ∀ k k', J k → Course.Move k k' → J k' := by
    rintro k k' ⟨hc, hs, hi⟩ hm
    exact ⟨Course.conserved_move hc hm, Course.sameSettings_move hc hs hm, step k k' hc hs hi hm⟩
  exact (course_invariant hstart hstep calls).2.2

theorem course_sameSettings (hb : b.IsNew) (calls : List Call) :
    b.SameSettings (b.course calls).bridge := by
  apply course_induction (I := fun k => b.SameSettings k.bridge) hb ⟨rfl, rfl, rfl, rfl, rfl⟩
  intro k k' hc hs _ hm
  exact Course.sameSettings_move hc hs hm

/-- No request is lost, doubled or altered, and all counters agree. The accepted requests are, in
the order of acceptance, those the engine took and then those that wait in the frontend; what the
engine took has left it or is in flight, each request with an arrival number of its own. A closed
bridge accounts for what it gave up. -/
theorem requests_conserved (hb : b.IsNew) (calls : List Call) :
    let k := b.course calls
    let s := b.after calls
    let r := s.close
    k.accepted.map (·.access.request) = k.forwarded.map (·.request) ++ s.frontend.pending ∧
    k.forwarded.Perm (k.served ++ s.engine.inFlight) ∧
    (k.forwarded.map (·.arrival)).Nodup ∧
    s.frontend.pending.length ≤ b.frontend.depth ∧
    s.engine.inFlight.length ≤ b.engine.capacity ∧
    s.counts.readsAccepted + s.counts.writesAccepted = s.frontend.counts.accepted ∧
    s.frontend.counts.accepted = s.frontend.counts.forwarded + s.frontend.pending.length ∧
    s.frontend.counts.forwarded =
      s.engine.counts.readsServed + s.engine.counts.writesServed + s.engine.inFlight.length ∧
    s.engine.counts.readsServed = s.counts.repliesDrained + s.replies.size ∧
    s.counts.rejections = s.frontend.counts.rejected + k.overlapRefusals ∧
    s.frontend.counts.cycles = s.counts.frontendTicks ∧
    s.engine.cycle = s.counts.engineTicks ∧
    r.bridge.accepted = r.frontend.forwarded + r.frontend.abandoned ∧
    r.frontend.accepted = r.bridge.accepted ∧
    r.frontend.forwarded = r.engine.served + r.engine.abandoned ∧
    r.frontend.cycles = r.bridge.frontendTicks ∧
    r.engine.cycles = r.bridge.engineTicks := by
  intro k s r
  have hs : k.bridge = s := course_bridge b calls
  have hc : k.Conserved := course_conserved hb calls
  have ht : k.Tallied := course_tallied hb calls
  have hset : b.SameSettings k.bridge := course_sameSettings hb calls
  clear_value s
  subst hs
  have haccepted : k.bridge.counts.readsAccepted + k.bridge.counts.writesAccepted =
      k.bridge.frontend.counts.accepted := by
    rw [ht.readsAccepted, ht.writesAccepted, ht.accepted, Submission.countP_kinds]
  have hpending : k.bridge.frontend.counts.accepted =
      k.bridge.frontend.counts.forwarded + k.bridge.frontend.pending.length := by
    rw [ht.accepted, ht.forwarded, hc.length_accepted]
  have hforwarded : k.bridge.frontend.counts.forwarded =
      k.bridge.engine.counts.readsServed + k.bridge.engine.counts.writesServed +
        k.bridge.engine.inFlight.length := by
    rw [ht.forwarded, ht.readsServed, ht.writesServed, length_reads_add_writes,
      hc.length_forwarded]
  have hreplies : k.bridge.engine.counts.readsServed =
      k.bridge.counts.repliesDrained + k.bridge.replies.size := by
    rw [ht.readsServed, ht.drained, hc.length_reads, ReplyQueue.size]
  exact ⟨hc.inOrder.symm, hc.inEngine.symm, hc.arrivals ▸ List.nodup_range,
    hset.depth ▸ hc.pending_le, hset.capacity ▸ hc.inFlight_le, haccepted, hpending, hforwarded,
    hreplies, ht.rejections, ht.frontendTicks, ht.engineTicks, haccepted.trans hpending,
    haccepted.symm, hforwarded, ht.frontendTicks, ht.engineTicks⟩

/-- One served, one in flight and two that wait: four accepted requests. -/
theorem requests_conserved_crowd :
    let b := small ScriptedLatency.slowOne .track
    let s := b.after Call.crowd
    b.IsNew ∧ s.frontend.pending.length = 2 ∧ s.engine.inFlight.length = 1 ∧
      s.frontend.counts.accepted = 4 := by
  intro b s
  have hnew : b.IsNew := small_isNew _ _
  obtain ⟨-, -, -, -, -, -, hpending, hforwarded, -⟩ := requests_conserved hnew Call.crowd
  refine ⟨hnew, by decide, by decide, ?_⟩
  rw [hpending, hforwarded]
  decide

end Bridge

end CycleBridge
