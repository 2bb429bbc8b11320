import CycleBridge.Proofs.Course.Correlation
import CycleBridge.Proofs.Course.Ticks

/-!
# What a bridge reports and what it counts

Events and counters are kept by different parts of a bridge at different moments. `Course.Logged`
says how often each sort of event stands in a log, by what went through the bridge. What ends in the
engine reports one queued reply for each read and at most one retired write for each write; under the
track and the reject rule every write finds its open access, so there it is one for each.
-/

namespace CycleBridge

open Flight

/-- The latency that an event reports of a drained read. -/
def Event.latency? : Event → Option Nat
  | readDrained _ _ latency => some latency
  | _ => none

/-- What requests report while they end: a queued reply for each read, a retired write for some of
the writes, and nothing else. -/
structure Event.ReportEnds (events : List Event) (served : List Flight) : Prop where
  queued : events.countP (· matches .replyQueued ..) = (reads served).length
  retired : events.countP (· matches .writeRetired ..) ≤ (writes served).length
  only : ∀ e ∈ events, e matches .replyQueued .. | .writeRetired ..

theorem Request.complete_log {r : Request} (h : r.Standard) (b : Books) :
    (r.complete b).log = b.log ++
      match r.kind with
      | .read => [.replyQueued r.addr b.cycle]
      | .write =>
          (b.ledger.settle? r.addr .write).toList.map fun settled =>
            .writeRetired r.addr (b.cycle - settled.1.cycle) := by
  obtain ⟨⟨addr, kind, source⟩, followup⟩ := r
  obtain rfl : followup = some (Followup.standard kind) := h
  cases kind with
  | read => rfl
  | write =>
      simp only [complete, Followup.standard, Followup.retire, Books.settle]
      cases b.ledger.settle? addr .write with
      | none => simp
      | some settled => simp [Books.report]

namespace Event.ReportEnds

variable {events : List Event} {f : Flight} {served : List Flight} (h : ReportEnds events served)
include h

theorem cons_read (hf : f.request.kind = .read) (a : Word) (cycle : Nat) :
    ReportEnds (.replyQueued a cycle :: events) (f :: served) where
  queued := by simpa [reads, hf] using h.queued
  retired := by simpa [writes, hf] using h.retired
  only := by simpa using h.only

theorem cons_write (hf : f.request.kind = .write) : ReportEnds events (f :: served) where
  queued := by simpa [reads, hf] using h.queued
  retired := by simpa [writes, hf] using Nat.le_succ_of_le h.retired
  only := h.only

theorem cons_retired (hf : f.request.kind = .write) (a : Word) (latency : Nat) :
    ReportEnds (.writeRetired a latency :: events) (f :: served) where
  queued := by simpa [reads, hf] using h.queued
  retired := by simpa [writes, hf] using h.retired
  only := by simpa using h.only

/-- No event of another sort is among what ending requests report. -/
theorem countP_of_neither {p : Event → Bool}
    (hp : ∀ a n, p (.replyQueued a n) = false ∧ p (.writeRetired a n) = false) :
    events.countP p = 0 := by
  apply List.countP_eq_zero.mpr
  intro e he
  have hsort := h.only e he
  cases e <;> simp_all

end Event.ReportEnds

namespace Engine

variable {served : List Flight}

theorem completeAll_log (h : ∀ f ∈ served, f.request.Standard) (b : Books) :
    ∃ events, (completeAll served b).log = b.log ++ events ∧ Event.ReportEnds events served := by
  induction served generalizing b with
  | nil => exact ⟨[], (List.append_nil _).symm, rfl, Nat.zero_le _, by simp⟩
  | cons f rest ih =>
      have hf : f.request.Standard := h f List.mem_cons_self
      obtain ⟨later, hlog, hlater⟩ :=
        ih (fun g hg => h g (List.mem_cons_of_mem f hg)) (f.request.complete b)
      rw [Request.complete_log hf, List.append_assoc] at hlog
      refine ⟨_, hlog, ?_⟩
      cases hk : f.request.kind with
      | read => exact hlater.cons_read hk _ _
      | write =>
          cases b.ledger.settle? f.request.addr .write with
          | none => exact hlater.cons_write hk
          | some settled => exact hlater.cons_retired hk _ _

/-- Where every write that ends is open in the ledger, every one of them is reported. -/
theorem completeAll_retired (h : ∀ f ∈ served, f.request.Standard) {b : Books}
    (ht : b.ledger.Tidy) {rest : List (Word × AccessKind)}
    (hk : b.ledger.keys.Perm (((writes served).map (·.request.addr)).map (·, .write) ++ rest)) :
    (completeAll served b).log.countP (· matches .writeRetired ..) =
      b.log.countP (· matches .writeRetired ..) + (writes served).length := by
  induction served generalizing b with
  | nil => rfl
  | cons f more ih =>
      have hf : f.request.Standard := h f List.mem_cons_self
      have hmore := fun g hg => h g (List.mem_cons_of_mem f hg)
      have hlog := Request.complete_log hf b
      have hledger := Request.complete_ledger hf b
      change (completeAll more (f.request.complete b)).log.countP _ = _
      cases hkind : f.request.kind with
      | read =>
          rw [hkind] at hlog hledger
          rw [writes_cons_of_read hkind] at hk ⊢
          rw [ih hmore (hledger ▸ ht) (hledger ▸ hk), hlog]
          simp
      | write =>
          rw [hkind] at hlog hledger
          rw [writes_cons_of_write hkind] at hk ⊢
          have hopen : (f.request.addr, AccessKind.write) ∈ b.ledger.keys :=
            hk.symm.subset (by simp)
          obtain ⟨i, m, hs⟩ := Ledger.exists_settle? ht hopen
          have hclosed := ((Ledger.keys_retire ht hopen).symm.trans hk).cons_inv
          rw [ih hmore (hledger ▸ ht.retire _) (hledger ▸ hclosed), hlog, hs]
          simp only [Option.toList_some, List.map_singleton, List.countP_append,
            List.countP_singleton, if_true, List.length_cons]
          omega

end Engine

namespace Bridge

variable {σ : Type}

/-- What the engine's turn reports, if it is its turn. -/
def passEngineEvents (b : Bridge σ) : List Event :=
  if b.clock.firing.engine then b.driveEngine.2.1 else []

/-- What a new bridge and a run of it reported, as far as a threshold lets it through. -/
def log [LatencyModel σ] (b : Bridge σ) (threshold : Severity) (calls : List Call) : List Event :=
  (b.readyEvent :: (b.outcomes calls).flatMap (·.events)).filter (·.passes threshold)

theorem advance_events [LatencyModel σ] (b : Bridge σ) :
    b.advance.events =
      .advanced (b.cycle + 1) b.clock.advance.firing ::
        b.advance.forwarded.map b.engine.scheduledEvent ++ b.midway.passEngineEvents := by
  have hclock : b.stepClock.clock = b.clock.advance := rfl
  have hdriven : b.stepClock.driveFrontend.2.clock = b.clock.advance := rfl
  simp only [advance, midway, passFrontend, passEngineEvents, hclock]
  by_cases hf : b.clock.advance.firing.frontend = true
  · rw [if_pos hf, if_pos hf, hdriven]
    by_cases he : b.clock.advance.firing.engine = true
    · rw [if_pos he, if_pos he]
      rfl
    · rw [if_neg he, if_neg he]
      rfl
  · rw [if_neg hf, if_neg hf]
    by_cases he : b.clock.advance.firing.engine = true
    · rw [if_pos he, hclock, if_pos he]
      rfl
    · rw [if_neg he, hclock, if_neg he]
      rfl

/-- What ends in a step of the clock reports its end. -/
theorem passEngineEvents_reportEnds {b : Bridge σ}
    (h : ∀ f ∈ b.engine.inFlight, f.request.Standard) :
    Event.ReportEnds b.passEngineEvents b.passEngine.1 := by
  unfold passEngineEvents passEngine
  split
  · obtain ⟨events, hlog, hends⟩ :=
      Engine.completeAll_log (fun f hf => h f (b.mem_inFlight_of_driveEngine hf)) b.books
    have hall : b.driveEngine.2.1 = events := hlog
    exact hall ▸ hends
  · exact ⟨rfl, Nat.zero_le _, by simp⟩

/-- Where the ledger knows of all that is under way, every write that ends is reported. -/
theorem passEngineEvents_retired {b : Bridge σ}
    (h : ∀ f ∈ b.engine.inFlight, f.request.Standard) (ht : b.ledger.Tidy)
    (hk : b.ledger.keys.Perm b.work) :
    b.passEngineEvents.countP (· matches .writeRetired ..) = (writes b.passEngine.1).length := by
  have hwork := b.passEngine_work h
  unfold passEngineEvents passEngine at *
  split
  · next hfires =>
      rw [if_pos hfires] at hwork
      have hall := Engine.completeAll_retired (b := b.books)
        (fun f hf => h f (b.mem_inFlight_of_driveEngine hf)) ht (hk.trans hwork)
      exact hall.trans (Nat.zero_add _)
  · rfl

section Advance

variable [LatencyModel σ]

theorem advance_retired (b : Bridge σ) : b.advance.events.countP (· matches .writeRetired ..) =
    b.midway.passEngineEvents.countP (· matches .writeRetired ..) := by
  rw [advance_events, List.cons_append, List.countP_cons, List.countP_append]
  simp [List.countP_map, Function.comp_def, Engine.scheduledEvent]

variable {k : Course σ} (hc : k.Conserved)
include hc

/-- What a step of the clock reports of its own and of nothing that it drives. -/
theorem countP_advance {p : Event → Bool} (hother : ∀ kind a m n,
      p (.scheduled kind a m n) = false ∧ p (.replyQueued a m) = false ∧
        p (.writeRetired a m) = false) :
    k.bridge.advance.events.countP p =
      if p (.advanced (k.bridge.cycle + 1) k.bridge.clock.advance.firing) then 1 else 0 := by
  have hends := passEngineEvents_reportEnds (standard_of_midway hc)
  have hforwarded :
      (k.bridge.advance.forwarded.map k.bridge.engine.scheduledEvent).countP p = 0 := by
    simp [List.countP_map, Function.comp_def, Engine.scheduledEvent, hother]
  rw [advance_events, List.cons_append, List.countP_cons, List.countP_append, hforwarded,
    hends.countP_of_neither fun a n => (hother .read a n n).2, Nat.zero_add]

theorem advance_scheduled :
    k.bridge.advance.events.countP (· matches .scheduled ..) =
      k.bridge.advance.forwarded.length := by
  have hends := passEngineEvents_reportEnds (standard_of_midway hc)
  rw [advance_events, List.cons_append, List.countP_cons, List.countP_append,
    hends.countP_of_neither (by simp)]
  simp [List.countP_map, Function.comp_def, Engine.scheduledEvent]

theorem advance_queued : k.bridge.advance.events.countP (· matches .replyQueued ..) =
    (reads k.bridge.advance.served).length := by
  have hends := passEngineEvents_reportEnds (standard_of_midway hc)
  rw [advance_events, List.cons_append, List.countP_cons, List.countP_append, hends.queued,
    advance_served]
  simp [List.countP_map, Function.comp_def, Engine.scheduledEvent]

theorem advance_latencies : k.bridge.advance.events.filterMap Event.latency? = [] := by
  have hnone := countP_advance hc (p := fun e => e.latency?.isSome) (by simp [Event.latency?])
  simpa [Event.latency?, List.countP_eq_zero] using hnone

end Advance

section Counts

variable [LatencyModel σ] (b : Bridge σ)

/-- A step of the clock counts a tick of each side that it drives. -/
theorem advance_ticks : b.advance.bridge.counts.frontendTicks =
      b.counts.frontendTicks + (if b.clock.advance.firing.frontend then 1 else 0) ∧
    b.advance.bridge.counts.engineTicks =
      b.counts.engineTicks + (if b.clock.advance.firing.engine then 1 else 0) := by
  have hfrontend : b.stepClock.clock.firing = b.clock.advance.firing := rfl
  have hengine : b.midway.clock.firing = b.clock.advance.firing := by rw [midway_clock]
  rw [advance_bridge, passEngine, hengine, midway, passFrontend, hfrontend]
  split <;> split <;> exact ⟨rfl, rfl⟩

theorem advance_rejected : b.advance.bridge.frontend.counts.rejected =
    b.frontend.counts.rejected := by
  rw [advance_bridge, passEngine, midway, passFrontend]
  split <;> split <;> rfl

end Counts

end Bridge

namespace Course

variable {σ : Type}

/-- How often each sort of event stands in a log, and what latencies it reports, by what went through
a bridge. In some bridges every write is reported at its end. -/
structure Logged (k : Course σ) (log : List Event) (everyWrite : Prop) : Prop where
  accepted : log.countP (· matches .accepted ..) = k.accepted.length
  overlapRefused : log.countP (· matches .overlapRefused ..) = k.overlapRefusals
  frontendRefused : log.countP (· matches .frontendRefused ..) =
    k.bridge.frontend.counts.rejected
  advanced : log.countP (· matches .advanced ..) = k.bridge.counts.cycles
  frontendTurns : log.countP (· matches .advanced _ ⟨true, _⟩) = k.bridge.counts.frontendTicks
  engineTurns : log.countP (· matches .advanced _ ⟨_, true⟩) = k.bridge.counts.engineTicks
  scheduled : log.countP (· matches .scheduled ..) = k.forwarded.length
  queued : log.countP (· matches .replyQueued ..) = (reads k.served).length
  drained : log.countP (· matches .readDrained ..) + k.bridge.counts.repliesUnmatched =
    k.delivered.length
  latencies : log.filterMap Event.latency? = k.latencies
  unmatched : log.countP (· matches .replyUnmatched ..) = k.bridge.counts.repliesUnmatched
  retired : log.countP (· matches .writeRetired ..) ≤ (writes k.served).length
  retiredAll : everyWrite → log.countP (· matches .writeRetired ..) = (writes k.served).length

section Calls

variable {log : List Event} {everyWrite : Prop} {k : Course σ} (h : k.Logged log everyWrite)
include h

/-- An event that reports no latency adds none. -/
theorem Logged.quiet_latencies (e : Event) (he : e.latency? = none) :
    (log ++ [e]).filterMap Event.latency? = k.latencies := by
  rw [List.filterMap_append, h.latencies, List.filterMap_cons_none he]
  exact List.append_nil _

theorem Logged.accept (a : Access) (data : Word) :
    (k.accept a data).Logged (log ++ [.accepted a k.bridge.cycle]) everyWrite := by
  have hcounts := k.bridge.accept_counts a data
  have hretired := h.retiredAll
  have hlatencies := h.quiet_latencies (.accepted a k.bridge.cycle) rfl
  cases h
  constructor
  case latencies => exact hlatencies
  case retiredAll => simpa using hretired
  all_goals simp [Frontend.enqueue, *]

theorem Logged.refuseOverlap (kind : AccessKind) (a : Word) :
    Logged
      { k with
        bridge := k.bridge.countRejection
        overlapRefusals := k.overlapRefusals + 1 }
      (log ++ [.overlapRefused kind a]) everyWrite := by
  have hretired := h.retiredAll
  have hlatencies := h.quiet_latencies (.overlapRefused kind a) rfl
  cases h
  constructor
  case latencies => exact hlatencies
  case retiredAll => simpa using hretired
  all_goals simp [Bridge.countRejection, *]

theorem Logged.refuseFull (kind : AccessKind) (a : Word) :
    Logged
      { k with
        bridge :=
          { k.bridge with frontend := k.bridge.frontend.countRefusal }.countRejection }
      (log ++ [.frontendRefused kind a]) everyWrite := by
  have hretired := h.retiredAll
  have hlatencies := h.quiet_latencies (.frontendRefused kind a) rfl
  cases h
  constructor
  case latencies => exact hlatencies
  case retiredAll => simpa using hretired
  all_goals simp [Bridge.countRejection, Frontend.countRefusal, *]

theorem Logged.drain {d : Delivery} {b : Bridge σ} (drains : k.bridge.Drains d b) :
    (k.drain d b).Logged (log ++ [d.event]) everyWrite := by
  have hfrontend := drains.frontend
  have hcounts := drains.counts
  have hdrained := h.drained
  have hretired := h.retiredAll
  cases h
  cases hd : d.latency with
  | none =>
      have hevent : d.event = .replyUnmatched d.reply.addr d.cycle := by simp [Delivery.event, hd]
      simp only [hd] at hcounts
      constructor
      case drained => simp [hevent, hcounts, ← hdrained, Nat.add_assoc]
      case retiredAll => simpa [hevent] using hretired
      all_goals simp [List.filterMap_cons, Event.latency?, latencies_drain, *]
  | some latency =>
      have hevent : d.event = .readDrained d.reply.addr d.cycle latency := by
        simp [Delivery.event, hd]
      simp only [hd] at hcounts
      constructor
      case drained =>
        simp [hevent, hcounts, BridgeCounts.addLatency, ← hdrained, Nat.add_right_comm]
      case retiredAll => simpa [hevent] using hretired
      all_goals simp [Event.latency?, BridgeCounts.addLatency, latencies_drain, *]

variable [LatencyModel σ]

theorem Logged.advance (hc : k.Conserved) (ht : k.Ticked) (hm : everyWrite → k.Matched) :
    k.advance.Logged (log ++ k.bridge.advance.events) everyWrite := by
  obtain ⟨hfrontendTicks, hengineTicks⟩ := k.bridge.advance_ticks
  have hstandard := Bridge.standard_of_midway hc
  have hretired := (Bridge.passEngineEvents_reportEnds hstandard).retired
  rw [← Bridge.advance_retired, ← Bridge.advance_served] at hretired
  constructor
  · rw [List.countP_append, Bridge.countP_advance hc (by simp)]
    exact h.accepted
  · rw [List.countP_append, Bridge.countP_advance hc (by simp)]
    exact h.overlapRefused
  · rw [List.countP_append, Bridge.countP_advance hc (by simp), advance_bridge,
      Bridge.advance_rejected]
    exact h.frontendRefused
  · rw [List.countP_append, Bridge.countP_advance hc (by simp), advance_bridge,
      Bridge.advance_cycles, h.advanced, ht.cycles]
    rfl
  · rw [List.countP_append, Bridge.countP_advance hc (by simp), advance_bridge, hfrontendTicks,
      h.frontendTurns]
    rcases k.bridge.clock.advance.firing with ⟨_ | _, _⟩ <;> rfl
  · rw [List.countP_append, Bridge.countP_advance hc (by simp), advance_bridge, hengineTicks,
      h.engineTurns]
    rcases k.bridge.clock.advance.firing with ⟨_, _ | _⟩ <;> rfl
  · rw [List.countP_append, Bridge.advance_scheduled hc, h.scheduled, advance_forwarded,
      List.length_append]
  · rw [List.countP_append, Bridge.advance_queued hc, h.queued, advance_served, reads_append,
      List.length_append]
  · rw [List.countP_append, Bridge.countP_advance hc (by simp), advance_bridge,
      Bridge.advance_counts]
    exact h.drained
  · rw [List.filterMap_append, Bridge.advance_latencies hc, List.append_nil]
    exact h.latencies
  · rw [List.countP_append, Bridge.countP_advance hc (by simp), advance_bridge,
      Bridge.advance_counts]
    exact h.unmatched
  · rw [List.countP_append, advance_served, writes_append, List.length_append]
    exact Nat.add_le_add h.retired hretired
  · intro hevery
    have hledger : k.bridge.midway.ledger = k.bridge.ledger := Bridge.passFrontend_ledger _
    have hwork : k.bridge.midway.work.Perm k.bridge.work := Bridge.passFrontend_work _
    have hall := Bridge.passEngineEvents_retired hstandard (hledger ▸ (hm hevery).tidy)
      (hledger ▸ (hm hevery).keys.trans hwork.symm)
    rw [List.countP_append, Bridge.advance_retired, hall, h.retiredAll hevery, advance_served,
      Bridge.advance_served, writes_append, List.length_append]

theorem Logged.submit (a : Access) (data : Word) :
    (k.extend (.submit a data)).Logged (log ++ (k.bridge.perform (.submit a data)).events)
      everyWrite := by
  by_cases allowed : k.bridge.ledger.allows a.addr = true
  · by_cases room : k.bridge.frontend.pending.length < k.bridge.frontend.depth
    · rw [k.extend_of_room a data allowed room, Bridge.perform, Bridge.performSubmit,
        Bridge.submit_of_room _ a data allowed room]
      exact h.accept a data
    · rw [k.extend_of_full a data allowed room, Bridge.perform, Bridge.performSubmit,
        Bridge.submit_of_full _ a data allowed room]
      exact h.refuseFull a.kind a.addr
  · rw [k.extend_of_closed a data allowed, Bridge.perform, Bridge.performSubmit,
      Bridge.submit_of_closed _ a data allowed]
    exact h.refuseOverlap a.kind a.addr

/-- What a call reports goes with what it does. -/
theorem Logged.extend (hc : k.Conserved) (ht : k.Ticked) (hm : everyWrite → k.Matched) (c : Call) :
    (k.extend c).Logged (log ++ (k.bridge.perform c).events) everyWrite := by
  cases c with
  | submit a data => exact h.submit a data
  | submitCode addr code source data =>
      cases hk : AccessKind.ofCode? code with
      | none =>
          have hstay : k.extend (.submitCode addr code source data) = k := by
            simp [Course.extend, Bridge.acceptedBy, Call.submission?, Bridge.perform, hk,
              Answer.delivery?]
          simpa [Bridge.perform, hk, hstay] using h
      | some kind =>
          have hperform : k.bridge.perform (.submitCode addr code source data) =
              k.bridge.perform (.submit ⟨addr, kind, source⟩ data) := by
            simp only [Bridge.perform, hk]
          have haccepted : k.bridge.acceptedBy (.submitCode addr code source data) =
              k.bridge.acceptedBy (.submit ⟨addr, kind, source⟩ data) := by
            simp only [Bridge.acceptedBy, Call.submission?, hk, Option.map_some, hperform]
          have hsubmit := h.submit ⟨addr, kind, source⟩ data
          rw [Course.extend, ← hperform, ← haccepted] at hsubmit
          exact hsubmit
  | advance =>
      rw [k.extend_of_step]
      exact h.advance hc ht hm
  | drain =>
      cases hd : k.bridge.drain? with
      | none =>
          have hstay : k.extend .drain = k := by
            simp [Course.extend, Bridge.acceptedBy, Call.submission?, Bridge.perform, hd,
              Answer.delivery?]
          simpa [Bridge.perform, hd, hstay] using h
      | some drained =>
          obtain ⟨d, b⟩ := drained
          rw [k.extend_of_drain hd, Bridge.perform, hd]
          exact h.drain (Bridge.drains_of_drain? hd)

end Calls

end Course

namespace Bridge

variable {σ : Type} [LatencyModel σ] {b : Bridge σ}

end Bridge

end CycleBridge
