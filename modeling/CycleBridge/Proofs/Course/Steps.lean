import CycleBridge.Proofs.Course.Correspondence
import CycleBridge.Proofs.Course.Values
import CycleBridge.Proofs.Ledger.Queues

/-!
# A course call by call

The journal of a run lists the accesses that were accepted and the replies that were drained, in
the order in which this happened. `Course.Step` says what one call does to a course and which
occurrences it adds to the journal; a step of the clock is one such call, whatever it drives. What
holds at the start and is kept by every call holds along every run, of the course and its journal
together.
-/

namespace CycleBridge

open Flight

/-- What the ledger is told of an accepted access. -/
def Submission.issue (s : Submission) : Issue := ⟨s.cycle, s.access.kind⟩

/-- An access was accepted, or a reply was drained. -/
inductive Occurrence where
  | accepted (submission : Submission)
  | drained (delivery : Delivery)
  deriving DecidableEq, Repr

/-- The address that an occurrence is about. -/
def Occurrence.addr : Occurrence → Word
  | .accepted s => s.access.addr
  | .drained d => d.reply.addr

namespace Bridge

variable {σ : Type}

/-- A drain hands over the oldest reply. It settles the oldest open read at the address of the reply
and charges its latency, or counts a reply without an open read. -/
structure Drains (b : Bridge σ) (d : Delivery) (b' : Bridge σ) : Prop where
  waiting : b.replies.waiting = d.reply :: b'.replies.waiting
  cycle : d.cycle = b.cycle
  clock : b'.clock = b.clock
  frontend : b'.frontend = b.frontend
  engine : b'.engine = b.engine
  settled : ∀ i m, b.ledger.settle? d.reply.addr .read = some (i, m) →
    d.latency = some (b.cycle - i.cycle) ∧ b'.ledger = m
  missed : b.ledger.settle? d.reply.addr .read = none → d.latency = none ∧ b'.ledger = b.ledger
  counts : b'.counts =
    match d.latency with
    | some latency =>
        { b.counts with repliesDrained := b.counts.repliesDrained + 1 }.addLatency latency
    | none =>
        { b.counts with
          repliesDrained := b.counts.repliesDrained + 1
          repliesUnmatched := b.counts.repliesUnmatched + 1 }

theorem drains_of_drain? {b b' : Bridge σ} {d : Delivery} (h : b.drain? = some (d, b')) :
    b.Drains d b' := by
  cases hw : b.replies.waiting with
  | nil => simp [drain?, ReplyQueue.pop?, hw] at h
  | cons r rest =>
      cases hs : b.ledger.settle? r.addr .read with
      | none =>
          simp only [drain?, ReplyQueue.pop?, hw, hs, Option.map_some, Option.some.injEq] at h
          cases h
          constructor <;> simp [hw, hs, cycle]
      | some settled =>
          obtain ⟨i, m⟩ := settled
          simp only [drain?, ReplyQueue.pop?, hw, hs, Option.map_some, Option.some.injEq] at h
          cases h
          constructor <;> simp [hw, hs, cycle]

namespace Drains

variable {b b' : Bridge σ} {d : Delivery} (h : b.Drains d b')
include h

theorem work : b.work.Perm ((d.reply.addr, .read) :: b'.work) := by
  refine (b.work_drain h.waiting).trans (.of_eq ?_)
  simp only [Bridge.work, h.frontend, h.engine]

theorem issuesAt_sublist (a : Word) : (b'.ledger.issuesAt a).Sublist (b.ledger.issuesAt a) := by
  cases hs : b.ledger.settle? d.reply.addr .read with
  | none => rw [(h.missed hs).2]
  | some settled =>
      rw [(h.settled _ _ hs).2]
      exact Ledger.issuesAt_settle?_sublist hs a

theorem tidy (ht : b.ledger.Tidy) : b'.ledger.Tidy := by
  cases hs : b.ledger.settle? d.reply.addr .read with
  | none => rwa [(h.missed hs).2]
  | some settled =>
      rw [(h.settled _ _ hs).2]
      exact ht.settle? hs

end Drains

section Advance

variable [LatencyModel σ] (b : Bridge σ)

/-- The bridge in a step of the clock, after the frontend's turn and before the engine's. -/
def midway : Bridge σ := b.stepClock.passFrontend.2

theorem advance_forwarded : b.advance.forwarded = b.stepClock.passFrontend.1 :=
  b.advance_passes.1

theorem advance_served : b.advance.served = b.midway.passEngine.1 :=
  b.advance_passes.2.1

theorem advance_bridge : b.advance.bridge = b.midway.passEngine.2 :=
  b.advance_passes.2.2

theorem passFrontend_ledger : b.passFrontend.2.ledger = b.ledger := by
  unfold passFrontend
  split <;> rfl

theorem passFrontend_work : b.passFrontend.2.work.Perm b.work := by
  unfold passFrontend
  split
  · exact b.work_driveFrontend
  · exact .refl _

omit [LatencyModel σ] in
theorem mem_inFlight_of_driveEngine {f : Flight} (hf : f ∈ b.driveEngine.1) :
    f ∈ b.engine.inFlight := by
  rw [← b.driveEngine_inFlight]
  exact List.mem_append_left _ hf

omit [LatencyModel σ] in
theorem passEngine_ledger (h : ∀ f ∈ b.engine.inFlight, f.request.Standard) :
    b.passEngine.2.ledger =
      b.ledger.retireAll ((writes b.passEngine.1).map (·.request.addr)) := by
  unfold passEngine
  split
  · exact b.driveEngine_ledger fun f hf => h f (b.mem_inFlight_of_driveEngine hf)
  · rfl

omit [LatencyModel σ] in
theorem passEngine_work (h : ∀ f ∈ b.engine.inFlight, f.request.Standard) :
    b.work.Perm
      (((writes b.passEngine.1).map (·.request.addr)).map (·, .write) ++ b.passEngine.2.work) := by
  unfold passEngine
  split
  · exact b.work_driveEngine fun f hf => h f (b.mem_inFlight_of_driveEngine hf)
  · exact .refl _

omit [LatencyModel σ] in
theorem passEngine_inFlight :
    b.passEngine.1 ++ b.passEngine.2.engine.inFlight = b.engine.inFlight := by
  unfold passEngine
  split
  · exact b.driveEngine_inFlight
  · rfl

theorem advance_clock : b.advance.bridge.clock = b.clock.advance := by
  rw [advance_bridge, passEngine, midway, passFrontend]
  split <;> split <;> rfl

/-- A step of the clock counts cycles and ticks of the bridge and nothing else. -/
theorem advance_counts :
    b.advance.bridge.counts =
      { b.counts with
        cycles := b.advance.bridge.counts.cycles
        frontendTicks := b.advance.bridge.counts.frontendTicks
        engineTicks := b.advance.bridge.counts.engineTicks } := by
  rw [advance_bridge, passEngine, midway, passFrontend]
  split <;> split <;> rfl

end Advance

section Conserved

variable [LatencyModel σ] {k : Course σ} (hc : k.Conserved)
include hc

theorem standard_of_midway : ∀ f ∈ k.bridge.midway.engine.inFlight, f.request.Standard := by
  have hclock := Course.conserved_move hc (.stepClock k)
  have hfront := Course.conserved_moves hclock (Course.passFrontend_moves _)
  exact hfront.standard_of_mem_inFlight

/-- A step of the clock settles one open write for each write that ends in it. -/
theorem advance_ledger : k.bridge.advance.bridge.ledger =
    k.bridge.ledger.retireAll ((writes k.bridge.advance.served).map (·.request.addr)) := by
  rw [advance_bridge, advance_served, passEngine_ledger _ (standard_of_midway hc), midway,
    passFrontend_ledger]
  rfl

/-- A step of the clock ends the work of the writes that it serves and no other. -/
theorem advance_work : k.bridge.work.Perm
    (((writes k.bridge.advance.served).map (·.request.addr)).map (·, .write) ++
      k.bridge.advance.bridge.work) := by
  have hmidway : k.bridge.midway.work.Perm k.bridge.work := passFrontend_work _
  rw [advance_bridge, advance_served]
  exact hmidway.symm.trans (passEngine_work _ (standard_of_midway hc))

end Conserved

variable [LatencyModel σ]

theorem drains_of_perform {b : Bridge σ} {d : Delivery}
    (h : (b.perform .drain).answer = .drained (some d)) : b.Drains d (b.perform .drain).bridge := by
  cases hd : b.drain? with
  | none => simp [perform, hd] at h
  | some drained =>
      obtain ⟨d', b'⟩ := drained
      simp only [perform, hd, Answer.drained.injEq, Option.some.injEq] at h ⊢
      exact h ▸ drains_of_drain? hd

/-- Only a drain hands over a reply. -/
theorem perform_delivery? (b : Bridge σ) {c : Call} (h : c ≠ .drain) :
    (b.perform c).answer.delivery? = none := by
  cases c with
  | submit a data => rfl
  | submitCode addr code source data =>
      cases hk : AccessKind.ofCode? code <;> simp [perform, hk, performSubmit, Answer.delivery?]
  | advance => rfl
  | drain => exact absurd rfl h

/-- What a call brings about at the ends of a bridge. -/
def occurrences (b : Bridge σ) (c : Call) : List Occurrence :=
  (b.acceptedBy c).map .accepted ++ (b.perform c).answer.delivery?.toList.map .drained

/-- The accesses accepted and the replies drained in a run, in the order of the calls. -/
def journal (b : Bridge σ) (calls : List Call) : List Occurrence :=
  (Call.moments calls).flatMap fun m => (b.after m.1).occurrences m.2

theorem journal_snoc (b : Bridge σ) (calls : List Call) (c : Call) :
    b.journal (calls ++ [c]) = b.journal calls ++ (b.after calls).occurrences c := by
  simp [journal, Call.moments_snoc]

end Bridge

namespace Course

variable {σ : Type}

/-- Where the ledger and the outstanding work agree, a drain settles an open read. -/
theorem Matched.settles {k : Course σ} (h : k.Matched) {d : Delivery} {b : Bridge σ}
    (drains : k.bridge.Drains d b) :
    ∃ i, k.bridge.ledger.settle? d.reply.addr .read = some (i, b.ledger) ∧
      d.latency = some (k.bridge.cycle - i.cycle) := by
  obtain ⟨⟨i, m⟩, hs⟩ := Option.ne_none_iff_exists'.mp (h.settle?_ne_none drains.waiting)
  obtain ⟨hlatency, rfl⟩ := drains.settled i m hs
  exact ⟨i, hs, hlatency⟩

/-- The course after an access was accepted. -/
@[simps]
def accept (k : Course σ) (a : Access) (data : Word) : Course σ :=
  { k with
    bridge := k.bridge.accept a data
    accepted := k.accepted ++ [⟨a, data, k.bridge.cycle⟩] }

/-- The course after a step of the clock. -/
@[simps]
def advance [LatencyModel σ] (k : Course σ) : Course σ :=
  { k with
    bridge := k.bridge.advance.bridge
    forwarded := k.forwarded ++ k.bridge.advance.forwarded
    served := k.served ++ k.bridge.advance.served }

/-- The course after a reply was drained. -/
@[simps]
def drain (k : Course σ) (d : Delivery) (b : Bridge σ) : Course σ :=
  { k with
    bridge := b
    delivered := k.delivered ++ [d] }

variable [LatencyModel σ]

section Extend

variable (k : Course σ)

theorem extend_of_drain {d : Delivery} {b : Bridge σ} (h : k.bridge.drain? = some (d, b)) :
    k.extend .drain = k.drain d b := by
  simp [extend, drain, Bridge.acceptedBy, Call.submission?, Bridge.perform, h, Answer.delivery?]

theorem extend_of_room (a : Access) (data : Word) (allowed : k.bridge.ledger.allows a.addr)
    (room : k.bridge.frontend.pending.length < k.bridge.frontend.depth) :
    k.extend (.submit a data) = k.accept a data := by
  simp [extend, accept, Bridge.acceptedBy, Call.submission?, Bridge.perform, Bridge.performSubmit,
    Bridge.submit_of_room k.bridge a data allowed room, Answer.delivery?]

theorem extend_of_full (a : Access) (data : Word) (allowed : k.bridge.ledger.allows a.addr)
    (full : ¬ k.bridge.frontend.pending.length < k.bridge.frontend.depth) :
    k.extend (.submit a data) =
      { k with
        bridge :=
          { k.bridge with frontend := k.bridge.frontend.countRefusal }.countRejection } := by
  simp [extend, Bridge.acceptedBy, Call.submission?, Bridge.perform, Bridge.performSubmit,
    Bridge.submit_of_full k.bridge a data allowed full, Answer.delivery?]

theorem extend_of_closed (a : Access) (data : Word)
    (closed : ¬ k.bridge.ledger.allows a.addr) :
    k.extend (.submit a data) =
      { k with
        bridge := k.bridge.countRejection
        overlapRefusals := k.overlapRefusals + 1 } := by
  simp [extend, Bridge.acceptedBy, Call.submission?, Bridge.perform, Bridge.performSubmit,
    Bridge.submit_of_closed k.bridge a data closed, Answer.delivery?]

theorem extend_of_step : k.extend .advance = k.advance := by
  simp [extend, advance, Bridge.acceptedBy, Call.submission?, Bridge.perform, Answer.delivery?]

end Extend

/-- What one call does to a course, and what it adds to the journal. -/
inductive Step (k : Course σ) : List Occurrence → Course σ → Prop
  | stay : Step k [] k
  | accept (a : Access) (data : Word) (allowed : k.bridge.ledger.allows a.addr)
      (room : k.bridge.frontend.pending.length < k.bridge.frontend.depth) :
      Step k [.accepted ⟨a, data, k.bridge.cycle⟩] (k.accept a data)
  | refuseOverlap :
      Step k []
        { k with
          bridge := k.bridge.countRejection
          overlapRefusals := k.overlapRefusals + 1 }
  | refuseFull :
      Step k []
        { k with
          bridge :=
            { k.bridge with frontend := k.bridge.frontend.countRefusal }.countRejection }
  | advance : Step k [] k.advance
  | drain (d : Delivery) (b : Bridge σ) (drains : k.bridge.Drains d b) :
      Step k [.drained d] (k.drain d b)

theorem step_submit (k : Course σ) (c : Call) (a : Access) (data : Word)
    (hc : c.submission? = some (a, data))
    (hp : k.bridge.perform c = k.bridge.performSubmit a data) :
    Step k (k.bridge.occurrences c) (k.extend c) := by
  by_cases allowed : k.bridge.ledger.allows a.addr = true
  · by_cases room : k.bridge.frontend.pending.length < k.bridge.frontend.depth
    · have hs := Bridge.submit_of_room k.bridge a data allowed room
      convert Step.accept a data allowed room using 1 <;>
        simp [extend, accept, Bridge.occurrences, Bridge.acceptedBy, hc, hp, Bridge.performSubmit, hs,
          Answer.delivery?]
    · have hs := Bridge.submit_of_full k.bridge a data allowed room
      convert Step.refuseFull using 1 <;>
        simp [extend, Bridge.occurrences, Bridge.acceptedBy, hc, hp, Bridge.performSubmit, hs,
          Answer.delivery?]
  · have hs := Bridge.submit_of_closed k.bridge a data allowed
    convert Step.refuseOverlap using 1 <;>
      simp [extend, Bridge.occurrences, Bridge.acceptedBy, hc, hp, Bridge.performSubmit, hs,
        Answer.delivery?]

/-- Every call is a step. -/
theorem step_extend (k : Course σ) (c : Call) : Step k (k.bridge.occurrences c) (k.extend c) := by
  cases c with
  | submit a data => exact step_submit k _ a data rfl rfl
  | submitCode addr code source data =>
      cases hk : AccessKind.ofCode? code with
      | none =>
          convert Step.stay using 1 <;>
            simp [extend, Bridge.occurrences, Bridge.acceptedBy, Call.submission?, Bridge.perform,
              hk, Answer.delivery?]
      | some kind =>
          refine step_submit k _ ⟨addr, kind, source⟩ data ?_ ?_
          · simp [Call.submission?, hk]
          · simp [Bridge.perform, hk]
  | advance =>
      convert Step.advance using 1
      · rfl
      · simp [extend, advance, Bridge.acceptedBy, Call.submission?, Bridge.perform,
          Answer.delivery?]
  | drain =>
      cases hd : k.bridge.drain? with
      | none =>
          convert Step.stay using 1 <;>
            simp [extend, Bridge.occurrences, Bridge.acceptedBy, Call.submission?, Bridge.perform,
              hd, Answer.delivery?]
      | some drained =>
          obtain ⟨d, b⟩ := drained
          convert Step.drain d b (Bridge.drains_of_drain? hd) using 1 <;>
            simp [extend, drain, Bridge.occurrences, Bridge.acceptedBy, Call.submission?, Bridge.perform,
              hd, Answer.delivery?]

end Course

/-- What holds of a bridge without a record and an empty journal, and is kept by every call, holds
along every run. -/
theorem Bridge.journal_induction {σ : Type} [LatencyModel σ] {b : Bridge σ}
    {I : List Occurrence → Course σ → Prop} (start : I [] { bridge := b })
    (step : ∀ calls c news, I (b.journal calls) (b.course calls) →
      (b.course calls).Step news (b.course (calls ++ [c])) →
        I (b.journal calls ++ news) (b.course (calls ++ [c])))
    (calls : List Call) : I (b.journal calls) (b.course calls) := by
  induction calls using List.reverseRecOn with
  | nil => exact start
  | append_singleton calls c ih =>
      have hstep := (b.course calls).step_extend c
      rw [← course_snoc, course_bridge] at hstep
      rw [journal_snoc]
      exact step calls c _ ih hstep

end CycleBridge
