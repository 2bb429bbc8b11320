import CycleBridge.Bridge.Call
import CycleBridge.Latency.Scripted
import CycleBridge.Proofs.Engine.Intake
import CycleBridge.Proofs.Engine.Service
import Mathlib.Data.List.Induction
import Mathlib.Logic.Relation

/-!
# The course of a bridge

A course is a bridge with a record of what went through it: the accepted accesses, the flights that
entered its engine, those that left it, and the drained replies. The record of each call is read
off its answer. Every call is a short sequence of moves, and a property that holds of a new bridge
and is kept by every move holds along every run.
-/

namespace CycleBridge

/-- What stands in a list with one element more at its end stands in the list, or is that one. -/
theorem getElem?_snoc {α : Type} {xs : List α} {x y : α} {n : Nat}
    (h : (xs ++ [x])[n]? = some y) : xs[n]? = some y ∨ n = xs.length ∧ y = x := by
  by_cases hlt : n < xs.length
  · rw [List.getElem?_append_left hlt] at h
    exact .inl h
  · rw [List.getElem?_append_right (Nat.le_of_not_lt hlt), List.getElem?_singleton,
      Option.ite_none_right_eq_some] at h
    exact .inr ⟨by omega, (Option.some.inj h.2).symm⟩

/-- An accepted access, the data that came with it and the cycle of its acceptance. -/
structure Submission where
  access : Access
  data : Word
  cycle : Nat
  deriving DecidableEq, Repr

/-- The access that a call submits, with its data. A code that stands for no kind submits none. -/
def Call.submission? : Call → Option (Access × Word)
  | .submit a data => some (a, data)
  | .submitCode addr code source data =>
      (AccessKind.ofCode? code).map fun kind => (⟨addr, kind, source⟩, data)
  | .advance => none
  | .drain => none

/-- A short run on two addresses. Where overlaps are let in, it leaves requests in the frontend and
in the engine and a reply behind it. -/
def Call.crowd : List Call :=
  [.submit ⟨1, .write, 0⟩ 5, .submit ⟨2, .read, 0⟩ 0, .advance, .advance,
    .submit ⟨2, .write, 1⟩ 9, .submit ⟨1, .read, 1⟩ 0]

/-- The delivery that an answer hands over, if there is one. -/
def Answer.delivery? : Answer → Option Delivery
  | .drained d => d
  | _ => none

/-- Accesses to address 1 take three engine cycles, all others one. -/
def ScriptedLatency.slowOne : ScriptedLatency := { table := [(1, 3)] }

/-- The request that a bridge makes of an access. -/
def Access.request (a : Access) : Request :=
  { a with followup := some (Followup.standard a.kind) }

theorem Access.request_standard (a : Access) : a.request.Standard := rfl

/-- The frontend after it took a request. -/
def Frontend.enqueue (q : Frontend) (r : Request) : Frontend :=
  { q with
    pending := q.pending ++ [r]
    counts := { q.counts with accepted := q.counts.accepted + 1 } }

/-- The frontend after it turned a request away. -/
def Frontend.countRefusal (q : Frontend) : Frontend :=
  { q with counts := { q.counts with rejected := q.counts.rejected + 1 } }

theorem Frontend.offer_of_room (q : Frontend) (r : Request) (h : q.pending.length < q.depth) :
    q.offer r = (true, q.enqueue r) := by
  rw [offer, if_neg (by omega)]
  rfl

theorem Frontend.offer_of_full (q : Frontend) (r : Request) (h : ¬ q.pending.length < q.depth) :
    q.offer r = (false, q.countRefusal) := by
  rw [offer, if_pos (by omega)]
  rfl

namespace Bridge

variable {σ : Type}

/-- A bridge as it is assembled from an empty queue and an engine that was never driven. -/
def IsNew (b : Bridge σ) : Prop :=
  ∃ frontendRatio engineRatio depth capacity model rule,
    assemble { ratio := frontendRatio, depth } { ratio := engineRatio, capacity, model } rule =
      .ok b

theorem IsNew.exists_eq {b : Bridge σ} (h : b.IsNew) :
    ∃ clock ratio ratio' depth capacity model rule,
      b = { clock, frontend := { ratio, depth }, ledger := { rule },
            engine := { ratio := ratio', capacity, model } } := by
  obtain ⟨ratio, ratio', depth, capacity, model, rule, h⟩ := h
  unfold assemble at h
  cases hc : DualClock.start ratio ratio' with
  | error side => simp [hc, bind, Except.bind] at h
  | ok clock =>
      refine ⟨clock, ratio, ratio', depth, capacity, model, rule, ?_⟩
      simpa [hc, bind, Except.bind, pure, Except.pure] using h.symm

/-- A small new bridge. Its frontend is driven in every second cycle; both sides have room for two
requests. -/
def small (model : σ) (rule : OverlapRule) : Bridge σ where
  clock :=
    { frontendRatio := 1, engineRatio := 2, frontendRatio_pos := by decide,
      engineRatio_pos := by decide }
  frontend := { ratio := 1, depth := 2 }
  engine := { ratio := 2, capacity := 2, model }
  ledger := { rule }

theorem small_isNew (model : σ) (rule : OverlapRule) : (small model rule).IsNew :=
  ⟨1, 2, 2, 2, model, rule, rfl⟩

/-- The bridge after it accepted an access. -/
def accept (b : Bridge σ) (a : Access) (data : Word) : Bridge σ :=
  { b with frontend := b.frontend.enqueue a.request }.enter a data

section Accept

variable (b : Bridge σ) (a : Access) (data : Word)

@[simp] theorem accept_clock : (b.accept a data).clock = b.clock := by
  simp only [accept, enter]
  cases a.kind <;> rfl

@[simp] theorem accept_frontend : (b.accept a data).frontend = b.frontend.enqueue a.request := by
  simp only [accept, enter]
  cases a.kind <;> rfl

@[simp] theorem accept_engine : (b.accept a data).engine = b.engine := by
  simp only [accept, enter]
  cases a.kind <;> rfl

@[simp] theorem accept_ledger :
    (b.accept a data).ledger = b.ledger.enter a.addr b.cycle a.kind := by
  simp only [accept, enter]
  cases a.kind <;> rfl

@[simp] theorem accept_replies : (b.accept a data).replies = b.replies := by
  simp only [accept, enter]
  cases a.kind <;> rfl

theorem accept_memory : (b.accept a data).memory =
    if a.kind = .write then b.memory.write a.addr data else b.memory := by
  simp only [accept, enter]
  cases a.kind <;> rfl

/-- An accepted access changes memory at no other address. -/
theorem read_accept_of_ne {x : Word} (hx : x ≠ a.addr) :
    (b.accept a data).memory.read x = b.memory.read x := by
  rw [accept_memory]
  split
  · rw [Memory.read_write, if_neg hx]
  · rfl

theorem accept_counts : (b.accept a data).counts =
    { b.counts with
      readsAccepted := b.counts.readsAccepted + if a.kind = .read then 1 else 0
      writesAccepted := b.counts.writesAccepted + if a.kind = .write then 1 else 0 } := by
  simp only [accept, enter]
  cases a.kind <;> rfl

end Accept

theorem submit_of_room (b : Bridge σ) (a : Access) (data : Word) (allowed : b.ledger.allows a.addr)
    (room : b.frontend.pending.length < b.frontend.depth) :
    b.submit a data = (.accepted, b.accept a data) := by
  rw [submit, if_pos allowed, Frontend.offer_of_room _ _ room]
  rfl

theorem submit_of_full (b : Bridge σ) (a : Access) (data : Word) (allowed : b.ledger.allows a.addr)
    (full : ¬ b.frontend.pending.length < b.frontend.depth) :
    b.submit a data =
      (.frontendRefused, { b with frontend := b.frontend.countRefusal }.countRejection) := by
  rw [submit, if_pos allowed, Frontend.offer_of_full _ _ full]

theorem submit_of_closed (b : Bridge σ) (a : Access) (data : Word)
    (closed : ¬ b.ledger.allows a.addr) : b.submit a data = (.overlapRefused, b.countRejection) := by
  rw [submit, if_neg closed]

/-- The bridge at its next cycle, before a side is driven. -/
def stepClock (b : Bridge σ) : Bridge σ :=
  { b with clock := b.clock.advance, counts := { b.counts with cycles := b.cycle + 1 } }

/-- Drives the frontend if it is its turn. -/
def passFrontend [LatencyModel σ] (b : Bridge σ) : List Flight × Bridge σ :=
  if b.clock.firing.frontend then b.driveFrontend else ([], b)

/-- Drives the engine if it is its turn. -/
def passEngine (b : Bridge σ) : List Flight × Bridge σ :=
  if b.clock.firing.engine then (b.driveEngine.1, b.driveEngine.2.2) else ([], b)

section Drive

variable (b : Bridge σ)

theorem driveFrontend_takes [LatencyModel σ] :
    b.engine.Takes b.driveFrontend.1 b.driveFrontend.2.engine :=
  Frontend.forward_takes b.frontend.pending b.engine

theorem driveFrontend_requests [LatencyModel σ] :
    b.driveFrontend.1.map (·.request) ++ b.driveFrontend.2.frontend.pending =
      b.frontend.pending :=
  Frontend.forward_requests b.frontend.pending b.engine

theorem driveEngine_inFlight :
    b.driveEngine.1 ++ b.driveEngine.2.2.engine.inFlight = b.engine.inFlight :=
  b.engine.tick_served_append

variable (h : ∀ f ∈ b.driveEngine.1, f.request.Standard)
include h

theorem driveEngine_replies : b.driveEngine.2.2.replies.waiting =
    b.replies.waiting ++ (Flight.reads b.driveEngine.1).map fun f =>
      ⟨f.request.addr, b.memory.read f.request.addr⟩ :=
  Engine.completeAll_replies h b.books

theorem driveEngine_ledger : b.driveEngine.2.2.ledger =
    b.ledger.retireAll ((Flight.writes b.driveEngine.1).map (·.request.addr)) :=
  Engine.completeAll_ledger h b.books

end Drive

/-- A step of the clock moves the clock, drives the frontend if it is its turn, and then the
engine if it is its turn. -/
theorem advance_passes [LatencyModel σ] (b : Bridge σ) :
    let b₁ := b.stepClock.passFrontend.2
    b.advance.forwarded = b.stepClock.passFrontend.1 ∧ b.advance.served = b₁.passEngine.1 ∧
      b.advance.bridge = b₁.passEngine.2 := by
  have hclock : b.stepClock.clock = b.clock.advance := rfl
  have hdriven : b.stepClock.driveFrontend.2.clock = b.clock.advance := rfl
  simp only [advance, passFrontend, passEngine, hclock]
  by_cases hf : b.clock.advance.firing.frontend = true
  · rw [if_pos hf, if_pos hf, hdriven]
    by_cases he : b.clock.advance.firing.engine = true
    · rw [if_pos he, if_pos he]
      exact ⟨rfl, rfl, rfl⟩
    · rw [if_neg he, if_neg he]
      exact ⟨rfl, rfl, rfl⟩
  · rw [if_neg hf, if_neg hf]
    by_cases he : b.clock.advance.firing.engine = true
    · rw [if_pos he, hclock, if_pos he]
      exact ⟨rfl, rfl, rfl⟩
    · rw [if_neg he, hclock, if_neg he]
      exact ⟨rfl, rfl, rfl⟩

/-- The accesses that a call gets accepted: one or none. -/
def acceptedBy [LatencyModel σ] (b : Bridge σ) (c : Call) : List Submission :=
  match c.submission?, (b.perform c).answer with
  | some (access, data), .submitted .accepted => [{ access, data, cycle := b.cycle }]
  | _, _ => []

end Bridge

/-- A bridge with what went through it since it was new. -/
structure Course (σ : Type) where
  bridge : Bridge σ
  accepted : List Submission := []
  overlapRefusals : Nat := 0
  forwarded : List Flight := []
  served : List Flight := []
  delivered : List Delivery := []

namespace Course

variable {σ : Type}

/-- Makes one call and records what it brought. -/
def extend [LatencyModel σ] (k : Course σ) (c : Call) : Course σ :=
  let o := k.bridge.perform c
  { bridge := o.bridge
    accepted := k.accepted ++ k.bridge.acceptedBy c
    overlapRefusals :=
      k.overlapRefusals + if o.answer = .submitted .overlapRefused then 1 else 0
    forwarded := k.forwarded ++ o.forwarded
    served := k.served ++ o.served
    delivered := k.delivered ++ o.answer.delivery?.toList }

/-- What can happen to a course: an access is accepted or refused, the clock goes on, a side is
driven, or a reply is drained. -/
inductive Move [LatencyModel σ] : Course σ → Course σ → Prop
  | accept (k : Course σ) (a : Access) (data : Word) (allowed : k.bridge.ledger.allows a.addr)
      (room : k.bridge.frontend.pending.length < k.bridge.frontend.depth) :
      Move k
        { k with
          bridge := k.bridge.accept a data
          accepted := k.accepted ++ [⟨a, data, k.bridge.cycle⟩] }
  | refuseOverlap (k : Course σ) :
      Move k
        { k with
          bridge := k.bridge.countRejection
          overlapRefusals := k.overlapRefusals + 1 }
  | refuseFull (k : Course σ) :
      Move k
        { k with
          bridge :=
            { k.bridge with frontend := k.bridge.frontend.countRefusal }.countRejection }
  | stepClock (k : Course σ) : Move k { k with bridge := k.bridge.stepClock }
  | transfer (k : Course σ) :
      Move k
        { k with
          bridge := k.bridge.driveFrontend.2
          forwarded := k.forwarded ++ k.bridge.driveFrontend.1 }
  | serve (k : Course σ) :
      Move k
        { k with
          bridge := k.bridge.driveEngine.2.2
          served := k.served ++ k.bridge.driveEngine.1 }
  | settle (k : Course σ) (r : Reply) (rest : List Reply) (i : Issue) (m : Ledger)
      (waiting : k.bridge.replies.waiting = r :: rest)
      (settled : k.bridge.ledger.settle? r.addr .read = some (i, m)) :
      Move k
        { k with
          bridge :=
            { k.bridge with
              replies := ⟨rest⟩
              ledger := m
              counts :=
                { k.bridge.counts with
                  repliesDrained := k.bridge.counts.repliesDrained + 1 }.addLatency
                    (k.bridge.cycle - i.cycle) }
          delivered := k.delivered ++ [⟨r, k.bridge.cycle, some (k.bridge.cycle - i.cycle)⟩] }
  | miss (k : Course σ) (r : Reply) (rest : List Reply)
      (waiting : k.bridge.replies.waiting = r :: rest)
      (unsettled : k.bridge.ledger.settle? r.addr .read = none) :
      Move k
        { k with
          bridge :=
            { k.bridge with
              replies := ⟨rest⟩
              counts :=
                { k.bridge.counts with
                  repliesDrained := k.bridge.counts.repliesDrained + 1
                  repliesUnmatched := k.bridge.counts.repliesUnmatched + 1 } }
          delivered := k.delivered ++ [⟨r, k.bridge.cycle, none⟩] }

end Course

namespace Bridge

open Relation

variable {σ : Type} [LatencyModel σ]

/-- The course of a bridge through a sequence of calls. -/
def course (b : Bridge σ) (calls : List Call) : Course σ :=
  calls.foldl Course.extend { bridge := b }

theorem course_snoc (b : Bridge σ) (calls : List Call) (c : Call) :
    b.course (calls ++ [c]) = (b.course calls).extend c := by
  simp [course]

theorem course_bridge (b : Bridge σ) (calls : List Call) :
    (b.course calls).bridge = b.after calls := by
  induction calls using List.reverseRecOn with
  | nil => rfl
  | append_singleton calls c ih =>
      rw [course_snoc, after_append]
      simp [Course.extend, ih]

theorem outcomes_snoc (b : Bridge σ) (calls : List Call) (c : Call) :
    b.outcomes (calls ++ [c]) = b.outcomes calls ++ [(b.after calls).perform c] := by
  induction calls generalizing b with
  | nil => rfl
  | cons d rest ih => simp [outcomes, ih]

/-- The calls of a sequence, each with its answer. -/
def answered (b : Bridge σ) (calls : List Call) : List (Call × Answer) :=
  calls.zip ((b.outcomes calls).map (·.answer))

theorem answered_cons (b : Bridge σ) (c : Call) (rest : List Call) :
    b.answered (c :: rest) =
      (c, (b.perform c).answer) :: (b.perform c).bridge.answered rest := rfl

theorem answered_snoc (b : Bridge σ) (calls : List Call) (c : Call) :
    b.answered (calls ++ [c]) =
      b.answered calls ++ [(c, ((b.after calls).perform c).answer)] := by
  have hlen : calls.length = ((b.outcomes calls).map (·.answer)).length := by simp
  rw [answered, outcomes_snoc, List.map_append, List.zip_append hlen]
  rfl

/-- The record of a course is what a driver reads off the outcomes of its calls. -/
theorem course_record (b : Bridge σ) (calls : List Call) :
    let k := b.course calls
    let outcomes := b.outcomes calls
    k.forwarded = outcomes.flatMap (·.forwarded) ∧ k.served = outcomes.flatMap (·.served) ∧
      k.delivered = outcomes.filterMap (·.answer.delivery?) ∧
      k.overlapRefusals = outcomes.countP (·.answer = .submitted .overlapRefused) := by
  induction calls using List.reverseRecOn with
  | nil => exact ⟨rfl, rfl, rfl, rfl⟩
  | append_singleton calls c ih =>
      obtain ⟨hforwarded, hserved, hdelivered, hrefusals⟩ := ih
      rw [course_snoc, outcomes_snoc]
      refine ⟨?_, ?_, ?_, ?_⟩
      · simp [Course.extend, course_bridge, hforwarded]
      · simp [Course.extend, course_bridge, hserved]
      · cases hd : ((b.after calls).perform c).answer.delivery? with
        | none => simp [Course.extend, course_bridge, hdelivered, hd]
        | some d => simp [Course.extend, course_bridge, hdelivered, hd]
      · simp [Course.extend, course_bridge, hrefusals, List.countP_singleton]

end Bridge

namespace Course

open Relation

variable {σ : Type} [LatencyModel σ]

/-- A submission is one move: it is accepted, or refused by the ledger or by the frontend. -/
theorem extend_submit (k : Course σ) (c : Call) (a : Access) (data : Word)
    (hc : c.submission? = some (a, data))
    (hp : k.bridge.perform c = k.bridge.performSubmit a data) : Move k (k.extend c) := by
  by_cases allowed : k.bridge.ledger.allows a.addr = true
  · by_cases room : k.bridge.frontend.pending.length < k.bridge.frontend.depth
    · have hs := Bridge.submit_of_room k.bridge a data allowed room
      convert Move.accept k a data allowed room using 1
      simp [extend, Bridge.acceptedBy, hc, hp, Bridge.performSubmit, hs, Answer.delivery?]
    · have hs := Bridge.submit_of_full k.bridge a data allowed room
      convert Move.refuseFull k using 1
      simp [extend, Bridge.acceptedBy, hc, hp, Bridge.performSubmit, hs, Answer.delivery?]
  · have hs := Bridge.submit_of_closed k.bridge a data allowed
    convert Move.refuseOverlap k using 1
    simp [extend, Bridge.acceptedBy, hc, hp, Bridge.performSubmit, hs, Answer.delivery?]

theorem passFrontend_moves (k : Course σ) :
    ReflTransGen Move k
      { k with
        bridge := k.bridge.passFrontend.2
        forwarded := k.forwarded ++ k.bridge.passFrontend.1 } := by
  unfold Bridge.passFrontend
  split
  · exact ReflTransGen.single (Move.transfer k)
  · simpa using ReflTransGen.refl

theorem passEngine_moves (k : Course σ) :
    ReflTransGen Move k
      { k with
        bridge := k.bridge.passEngine.2
        served := k.served ++ k.bridge.passEngine.1 } := by
  unfold Bridge.passEngine
  split
  · exact ReflTransGen.single (Move.serve k)
  · simpa using ReflTransGen.refl

/-- A step of the clock is a move that is followed by those of the sides whose turn it is. -/
theorem extend_advance (k : Course σ) : ReflTransGen Move k (k.extend .advance) := by
  have hclock := ReflTransGen.single (Move.stepClock k)
  have hmoves := (hclock.trans (passFrontend_moves _)).trans (passEngine_moves _)
  obtain ⟨hforwarded, hserved, hbridge⟩ := k.bridge.advance_passes
  convert hmoves using 1
  simp [extend, Bridge.acceptedBy, Call.submission?, Bridge.perform, hforwarded, hserved, hbridge,
    Answer.delivery?]

theorem extend_drain (k : Course σ) : ReflTransGen Move k (k.extend .drain) := by
  cases hw : k.bridge.replies.waiting with
  | nil =>
      have hn : k.bridge.drain? = none := by simp [Bridge.drain?, ReplyQueue.pop?, hw]
      convert ReflTransGen.refl using 1
      simp [extend, Bridge.acceptedBy, Call.submission?, Bridge.perform, hn, Answer.delivery?]
  | cons r rest =>
      cases hs : k.bridge.ledger.settle? r.addr .read with
      | some settled =>
          obtain ⟨i, m⟩ := settled
          apply ReflTransGen.single
          convert Move.settle k r rest i m hw hs using 1
          simp [extend, Bridge.acceptedBy, Call.submission?, Bridge.perform, Bridge.drain?,
            ReplyQueue.pop?, hw, hs, Answer.delivery?]
      | none =>
          apply ReflTransGen.single
          convert Move.miss k r rest hw hs using 1
          simp [extend, Bridge.acceptedBy, Call.submission?, Bridge.perform, Bridge.drain?,
            ReplyQueue.pop?, hw, hs, Answer.delivery?]

/-- Every call is a sequence of moves. -/
theorem extend_moves (k : Course σ) (c : Call) : ReflTransGen Move k (k.extend c) := by
  cases c with
  | submit a data => exact ReflTransGen.single (extend_submit k _ a data rfl rfl)
  | submitCode addr code source data =>
      cases hk : AccessKind.ofCode? code with
      | none =>
          convert ReflTransGen.refl using 1
          simp [extend, Bridge.acceptedBy, Call.submission?, Bridge.perform, hk, Answer.delivery?]
      | some kind =>
          refine ReflTransGen.single (extend_submit k _ ⟨addr, kind, source⟩ data ?_ ?_)
          · simp [Call.submission?, hk]
          · simp [Bridge.perform, hk]
  | advance => exact extend_advance k
  | drain => exact extend_drain k

end Course

open Relation in
/-- What holds of a bridge without a record and is kept by every move holds along every run. -/
theorem Bridge.course_invariant {σ : Type} [LatencyModel σ] {I : Course σ → Prop} {b : Bridge σ}
    (start : I { bridge := b }) (step : ∀ k k', I k → Course.Move k k' → I k')
    (calls : List Call) : I (b.course calls) := by
  induction calls using List.reverseRecOn with
  | nil => exact start
  | append_singleton calls c ih =>
      have hkeep : ∀ k, ReflTransGen Course.Move (b.course calls) k → I k := by
        intro k hmoves
        induction hmoves with
        | refl => exact ih
        | tail _ hmove hk => exact step _ _ hk hmove
      rw [course_snoc]
      exact hkeep _ (Course.extend_moves _ c)

end CycleBridge
