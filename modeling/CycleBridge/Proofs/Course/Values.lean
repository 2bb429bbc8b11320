import CycleBridge.Proofs.Course.Conservation

/-!
# The values that reads find

Memory holds at each address what the last accepted write stored there. A reply carries what was
written last when the step of the clock began in which its read ended: the replies of a run, drained
or waiting, are listed by `Bridge.repliesAlong` from the served reads and the accepted writes alone.
-/

namespace CycleBridge

open Flight

/-- Each call of a sequence with the calls before it. -/
def Call.moments : List Call → List (List Call × Call)
  | [] => []
  | c :: rest => ([], c) :: (moments rest).map fun m => (c :: m.1, m.2)

theorem Call.moments_snoc (calls : List Call) (c : Call) :
    moments (calls ++ [c]) = moments calls ++ [(calls, c)] := by
  induction calls with
  | nil => rfl
  | cons d rest ih => simp [moments, ih]

namespace Submission

/-- What the last write at an address stored, or the address itself if there was none. -/
def lastWritten (list : List Submission) (a : Word) : Word :=
  ((list.filter fun s => s.access.kind = .write ∧ s.access.addr = a).getLast?.map (·.data)).getD a

theorem lastWritten_snoc (list : List Submission) (s : Submission) (a : Word) :
    lastWritten (list ++ [s]) a =
      if s.access.kind = .write ∧ s.access.addr = a then s.data else lastWritten list a := by
  unfold lastWritten
  rw [List.filter_append]
  split
  · next h => simp [h]
  · next h => simp [h]

/-- Accesses that store nothing at an address leave its last written value. -/
theorem lastWritten_append {list more : List Submission} {a : Word}
    (h : ∀ s ∈ more, s.access.kind = .write → s.access.addr ≠ a) :
    lastWritten (list ++ more) a = lastWritten list a := by
  have hnone : more.filter (fun s => s.access.kind = .write ∧ s.access.addr = a) = [] := by
    simpa using h
  rw [lastWritten, List.filter_append, hnone, List.append_nil, lastWritten]

end Submission

open Submission

namespace Bridge

variable {σ : Type} [LatencyModel σ]

theorem read_move {k k' : Course σ} (h : ∀ a, k.bridge.memory.read a = lastWritten k.accepted a)
    (hm : Course.Move k k') (a : Word) : k'.bridge.memory.read a = lastWritten k'.accepted a := by
  cases hm with
  | accept access data allowed room =>
      simp only [accept_memory, lastWritten_snoc]
      by_cases hw : access.kind = .write
      · simp [hw, Memory.read_write, h, eq_comm]
      · simp [hw, h]
  | _ => exact h a

/-- Memory holds what the last accepted write stored. -/
theorem read_eq_lastWritten {b : Bridge σ} (hb : b.IsNew) (calls : List Call) (a : Word) :
    (b.after calls).memory.read a = lastWritten (b.course calls).accepted a := by
  have hstart : ∀ a, b.memory.read a = lastWritten [] a := by
    obtain ⟨clock, ratio, ratio', depth, capacity, model, rule, rfl⟩ := hb.exists_eq
    exact Memory.read_empty
  rw [← course_bridge]
  revert a
  apply course_invariant (I := fun k => ∀ a, k.bridge.memory.read a = lastWritten k.accepted a)
    hstart
  intro k k' h hm a
  exact read_move h hm a

section Replies

omit [LatencyModel σ] in
theorem submit_replies (b : Bridge σ) (a : Access) (data : Word) :
    (b.submit a data).2.replies = b.replies := by
  by_cases allowed : b.ledger.allows a.addr = true
  · by_cases room : b.frontend.pending.length < b.frontend.depth
    · rw [submit_of_room b a data allowed room, accept_replies]
    · rw [submit_of_full b a data allowed room]
      rfl
  · rw [submit_of_closed b a data allowed]
    rfl

theorem passFrontend_replies (b : Bridge σ) : b.passFrontend.2.replies = b.replies := by
  unfold passFrontend
  split <;> rfl

theorem passFrontend_memory (b : Bridge σ) : b.passFrontend.2.memory = b.memory := by
  unfold passFrontend
  split <;> rfl

omit [LatencyModel σ] in
theorem passEngine_replies (b : Bridge σ) (h : ∀ f ∈ b.engine.inFlight, f.request.Standard) :
    b.passEngine.2.replies.waiting = b.replies.waiting ++ (reads b.passEngine.1).map fun f =>
      ⟨f.request.addr, b.memory.read f.request.addr⟩ := by
  unfold passEngine
  split
  · apply b.driveEngine_replies
    intro f hf
    apply h
    rw [← b.driveEngine_inFlight]
    exact List.mem_append_left _ hf
  · simp [reads]

/-- A step of the clock leaves a reply for each read that ends in it, with what memory held before
the step. -/
theorem advance_replies {k : Course σ} (hc : k.Conserved) :
    k.bridge.advance.bridge.replies.waiting =
      k.bridge.replies.waiting ++ (reads k.bridge.advance.served).map fun f =>
        ⟨f.request.addr, k.bridge.memory.read f.request.addr⟩ := by
  have hclock := Course.conserved_move hc (.stepClock k)
  have hfront := Course.conserved_moves hclock (Course.passFrontend_moves _)
  obtain ⟨_, hserved, hbridge⟩ := k.bridge.advance_passes
  rw [hbridge, hserved, passEngine_replies _ hfront.standard_of_mem_inFlight,
    passFrontend_replies, passFrontend_memory]
  rfl

theorem extend_replies {k : Course σ} (hc : k.Conserved) (c : Call) :
    (k.extend c).delivered.map (·.reply) ++ (k.extend c).bridge.replies.waiting =
      k.delivered.map (·.reply) ++ k.bridge.replies.waiting ++
        (reads (k.bridge.perform c).served).map fun f =>
          ⟨f.request.addr, k.bridge.memory.read f.request.addr⟩ := by
  cases c with
  | submit a data =>
      simp [Course.extend, perform, performSubmit, submit_replies, Answer.delivery?, reads]
  | submitCode addr code source data =>
      cases hk : AccessKind.ofCode? code <;>
        simp [Course.extend, perform, hk, performSubmit, submit_replies, Answer.delivery?, reads]
  | advance =>
      simp [Course.extend, perform, Answer.delivery?, advance_replies hc]
  | drain =>
      cases hw : k.bridge.replies.waiting with
      | nil =>
          simp [Course.extend, perform, drain?, ReplyQueue.pop?, hw, Answer.delivery?, reads]
      | cons r rest =>
          cases hs : k.bridge.ledger.settle? r.addr .read <;>
            simp [Course.extend, perform, drain?, ReplyQueue.pop?, hw, hs, Answer.delivery?, reads]

end Replies

/-- The replies that a run leaves: for each read that ends in a step of the clock, what the accesses
accepted before that step wrote last at its address. -/
def repliesAlong (b : Bridge σ) (calls : List Call) : List Reply :=
  (Call.moments calls).flatMap fun m =>
    (reads ((b.after m.1).perform m.2).served).map fun f =>
      ⟨f.request.addr, lastWritten (b.course m.1).accepted f.request.addr⟩

theorem delivered_append_waiting {b : Bridge σ} (hb : b.IsNew) (calls : List Call) :
    (b.course calls).delivered.map (·.reply) ++ (b.after calls).replies.waiting =
      b.repliesAlong calls := by
  induction calls using List.reverseRecOn with
  | nil =>
      obtain ⟨clock, ratio, ratio', depth, capacity, model, rule, rfl⟩ := hb.exists_eq
      rfl
  | append_singleton calls c ih =>
      rw [← course_bridge, course_snoc, extend_replies (course_conserved hb calls), course_bridge, ih]
      simp [repliesAlong, Call.moments_snoc, read_eq_lastWritten hb calls]

/-- Values follow the accepted writes. At every moment memory holds at an address what the last
accepted write there stored, or the address itself; only an accepted write at the address changes
that. Every reply, drained or waiting, carries what the accesses accepted before the step in which
its read ended wrote last, whatever was accepted or drained since. -/
theorem values_follow_writes {b : Bridge σ} (hb : b.IsNew) (calls : List Call) :
    (∀ a, (b.after calls).memory.read a = lastWritten (b.course calls).accepted a) ∧
    (∀ c a, (∀ s ∈ (b.after calls).acceptedBy c, s.access.kind = .write → s.access.addr ≠ a) →
      (b.after (calls ++ [c])).memory.read a = (b.after calls).memory.read a) ∧
    (b.course calls).delivered.map (·.reply) ++ (b.after calls).replies.waiting =
      b.repliesAlong calls := by
  refine ⟨read_eq_lastWritten hb calls, ?_, delivered_append_waiting hb calls⟩
  intro c a hnone
  rw [read_eq_lastWritten hb, read_eq_lastWritten hb, course_snoc]
  rw [← course_bridge] at hnone
  exact lastWritten_append hnone

/-- A reply that is drained after a write was accepted at its address carries what was there
before. -/
theorem values_follow_writes_crowd :
    let b := small ScriptedLatency.slowOne .track
    let calls := Call.crowd ++ [.drain]
    b.IsNew ∧ (b.after calls).memory.read 2 = 9 ∧
      (b.course calls).delivered.map (·.reply) = [⟨2, 2⟩] := by
  intro b calls
  have hnew : b.IsNew := small_isNew _ _
  obtain ⟨hmemory, -, hreplies⟩ := values_follow_writes hnew calls
  refine ⟨hnew, ?_, ?_⟩
  · rw [hmemory]
    decide
  · have hnone : (b.after calls).replies.waiting = [] := by decide
    rw [hnone, List.append_nil] at hreplies
    rw [hreplies]
    decide

end Bridge

end CycleBridge
