import CycleBridge.Latency.Fixed
import CycleBridge.Proofs.Course.Correspondence
import CycleBridge.Proofs.Course.Values

/-!
# Values and timing

Under the reject rule no access to an address is accepted between the acceptance of a read there
and the drain of its reply. So memory does not move under an outstanding read, and the values that
the reads of an address find are settled by the accesses accepted there alone, whatever the clocks,
the room and the latency model are.
-/

namespace CycleBridge

open Flight Submission

/-- A cell of memory with the values that its reads found. -/
structure Cell where
  word : Word
  found : List Word := []

/-- A cell after it was written, by `some` word, or read, by `none`. -/
def Cell.act (c : Cell) : Option Word → Cell
  | some w => { c with word := w }
  | none => { c with found := c.found ++ [c.word] }

/-- What an access stores: the data of a write, nothing for a read. -/
def Submission.stored? (s : Submission) : Option Word :=
  match s.access.kind with
  | .write => some s.data
  | .read => none

namespace Course

variable {σ : Type}

/-- The accepted accesses of an address, each by what it stores. -/
def storedAt (k : Course σ) (a : Word) : List (Option Word) :=
  (k.accepted.filter (·.access.addr = a)).map (·.stored?)

/-- The cell of an address as the accepted accesses alone make it. -/
def cellAt (k : Course σ) (a : Word) : Cell :=
  (k.storedAt a).foldl Cell.act { word := a }

/-- The values of the replies drained for an address. -/
def drainedAt (k : Course σ) (a : Word) : List Word :=
  (k.delivered.filter (·.reply.addr = a)).map (·.reply.value)

/-- The access accepted as number `n` was not served yet. -/
def Outstanding (k : Course σ) (n : Nat) : Prop :=
  k.forwarded.length ≤ n ∨ n ∈ k.bridge.engine.inFlight.map (·.arrival)

/-- No write passes an outstanding read, so each read finds what its address held when it was
accepted. -/
structure Undisturbed (k : Course σ) : Prop where
  memory : ∀ a, k.bridge.memory.read a = lastWritten k.accepted a
  waiting : ∀ r ∈ k.bridge.replies.waiting, r.value = k.bridge.memory.read r.addr
  ahead : ∀ n s, k.accepted[n]? = some s → s.access.kind = .read → k.Outstanding n →
    k.bridge.memory.read s.access.addr = lastWritten (k.accepted.take n) s.access.addr
  replies : k.delivered.map (·.reply) ++ k.bridge.replies.waiting = (reads k.served).map fun f =>
    ⟨f.request.addr, lastWritten (k.accepted.take f.arrival) f.request.addr⟩
  cell : ∀ a, k.cellAt a =
    ⟨k.bridge.memory.read a,
      k.drainedAt a ++ List.replicate (k.bridge.work.count (a, .read)) (k.bridge.memory.read a)⟩

theorem undisturbed_of_isNew {b : Bridge σ} (hb : b.IsNew) : Undisturbed { bridge := b } := by
  obtain ⟨clock, ratio, ratio', depth, capacity, model, rule, rfl⟩ := hb.exists_eq
  constructor
  · exact Memory.read_empty
  · simp
  · simp
  · rfl
  · intro a
    simp [cellAt, storedAt, drainedAt, Bridge.work]

theorem Conserved.forwarded_at {k : Course σ} (h : k.Conserved) {f : Flight}
    (hf : f ∈ k.forwarded) : k.forwarded[f.arrival]? = some f := by
  obtain ⟨n, hn, rfl⟩ := List.mem_iff_getElem.mp hf
  have harrival := congrArg (·[n]?) h.arrivals
  simp only [List.getElem?_map, List.getElem?_eq_getElem hn, List.getElem?_range hn,
    Option.map_some, Option.some.injEq] at harrival
  rw [harrival, List.getElem?_eq_getElem hn]

/-- The arrival number of a flight is the place of its access in the order of acceptance. -/
theorem Conserved.accepted_at {k : Course σ} (h : k.Conserved) {f : Flight}
    (hf : f ∈ k.forwarded) :
    (k.accepted[f.arrival]?).map (·.access.request) = some f.request := by
  have hfwd := h.forwarded_at hf
  have hlt : f.arrival < (k.forwarded.map (·.request)).length := by
    simpa using (List.getElem?_eq_some_iff.mp hfwd).1
  rw [← List.getElem?_map, ← h.inOrder, List.getElem?_append_left hlt, List.getElem?_map, hfwd]
  rfl

theorem Conserved.exists_work {k : Course σ} (h : k.Conserved) {n : Nat} {s : Submission}
    (hs : k.accepted[n]? = some s) (hn : k.Outstanding n) :
    ∃ w ∈ k.bridge.work, w.1 = s.access.addr := by
  rw [Bridge.exists_work_iff]
  have hreq : (k.accepted[n]?).map (·.access.request) = some s.access.request := by rw [hs]; rfl
  rcases hn with hn | hn
  · rw [← List.getElem?_map, ← h.inOrder, List.getElem?_append_right (by simpa using hn)] at hreq
    exact .inl ⟨_, List.mem_of_getElem? hreq, rfl⟩
  · obtain ⟨f, hf, rfl⟩ := List.mem_map.mp hn
    have hfwd : f ∈ k.forwarded := h.inEngine.subset (List.mem_append_right _ hf)
    rw [h.accepted_at hfwd] at hreq
    exact .inr (.inl ⟨f, hf, congrArg (·.addr) (Option.some.inj hreq)⟩)

theorem cellAt_accept (k : Course σ) (a : Access) (data x : Word) :
    cellAt { k with
      bridge := k.bridge.accept a data
      accepted := k.accepted ++ [⟨a, data, k.bridge.cycle⟩] } x =
    if a.addr = x then (k.cellAt x).act (Submission.stored? ⟨a, data, k.bridge.cycle⟩)
    else k.cellAt x := by
  by_cases hx : a.addr = x
  · simp [cellAt, storedAt, hx]
  · simp [cellAt, storedAt, hx]

theorem replies_move [LatencyModel σ] {k k' : Course σ} (hc : k.Conserved) (h : k.Undisturbed)
    (hmove : Move k k') :
    k'.delivered.map (·.reply) ++ k'.bridge.replies.waiting = (reads k'.served).map fun f =>
      ⟨f.request.addr, lastWritten (k'.accepted.take f.arrival) f.request.addr⟩ := by
  cases hmove with
  | accept a data allowed room =>
      rw [Bridge.accept_replies, h.replies]
      apply List.map_congr_left
      intro f hf
      have hfwd : f ∈ k.forwarded :=
        hc.inEngine.subset (List.mem_append_left _ (List.mem_of_mem_filter hf))
      have hlt := (List.getElem?_eq_some_iff.mp (hc.forwarded_at hfwd)).1
      rw [List.take_append_of_le_length]
      have hlen := hc.length_accepted
      omega
  | serve =>
      rw [k.bridge.driveEngine_replies hc.standard_of_mem_served, ← List.append_assoc, h.replies,
        reads_append, List.map_append]
      congr 1
      apply List.map_congr_left
      intro f hf
      obtain ⟨hserved, hkind⟩ := List.mem_filter.mp hf
      have hin : f ∈ k.bridge.engine.inFlight :=
        k.bridge.driveEngine_inFlight ▸ List.mem_append_left _ hserved
      have hat := hc.accepted_at (hc.inEngine.subset (List.mem_append_right _ hin))
      obtain ⟨s, hs, hreq⟩ := Option.map_eq_some_iff.mp hat
      rw [← hreq] at hkind ⊢
      have hread : s.access.kind = .read := of_decide_eq_true hkind
      have hvalue := h.ahead f.arrival s hs hread (.inr (List.mem_map_of_mem hin))
      exact congrArg (Reply.mk s.access.addr) hvalue
  | settle r rest i m waiting settled =>
      have hrep := h.replies
      simp only [waiting] at hrep
      simpa using hrep
  | miss r rest waiting unsettled =>
      have hrep := h.replies
      simp only [waiting] at hrep
      simpa using hrep
  | _ => exact h.replies

variable [LatencyModel σ]

section Move

variable {k k' : Course σ} (hc : k.Conserved) (hm : k.Matched)
  (hr : k.bridge.ledger.rule = .reject) (h : k.Undisturbed)
include hm hr

omit [LatencyModel σ] in
/-- An access is let in only where no work is outstanding. -/
theorem addr_ne_of_allows {a : Word} (allowed : k.bridge.ledger.allows a) :
    ∀ w ∈ k.bridge.work, w.1 ≠ a := by
  intro w hw ha
  have hclosed := (hm.allows_eq_false_iff hr a).mpr ⟨w, hw, ha⟩
  simp [allowed] at hclosed

omit [LatencyModel σ] in
/-- The acceptance of an access leaves what memory holds where work is outstanding. -/
theorem read_accept {a : Access} (data : Word) (allowed : k.bridge.ledger.allows a.addr) {x : Word}
    (hx : ∃ w ∈ k.bridge.work, w.1 = x) :
    (k.bridge.accept a data).memory.read x = k.bridge.memory.read x := by
  obtain ⟨w, hw, rfl⟩ := hx
  exact k.bridge.read_accept_of_ne a data (addr_ne_of_allows hm hr allowed w hw)

include hc h

theorem waiting_move (hmove : Move k k') :
    ∀ r ∈ k'.bridge.replies.waiting, r.value = k'.bridge.memory.read r.addr := by
  cases hmove with
  | accept a data allowed room =>
      intro r hw
      rw [Bridge.accept_replies] at hw
      have hwork : ∃ w ∈ k.bridge.work, w.1 = r.addr :=
        (Bridge.exists_work_iff _ _).mpr (.inr (.inr ⟨r, hw, rfl⟩))
      exact (h.waiting r hw).trans (read_accept hm hr data allowed hwork).symm
  | serve =>
      intro r hw
      rw [k.bridge.driveEngine_replies hc.standard_of_mem_served] at hw
      rcases List.mem_append.mp hw with hw | hw
      · exact h.waiting r hw
      · obtain ⟨f, _, rfl⟩ := List.mem_map.mp hw
        rfl
  | settle r rest i m waiting settled =>
      intro r' hw
      apply h.waiting
      rw [waiting]
      exact List.mem_cons_of_mem r hw
  | miss r rest waiting unsettled =>
      exact absurd unsettled (hm.settle?_ne_none waiting)
  | _ => exact h.waiting

theorem ahead_move (hmove : Move k k') :
    ∀ n s, k'.accepted[n]? = some s → s.access.kind = .read → k'.Outstanding n →
      k'.bridge.memory.read s.access.addr =
        lastWritten (k'.accepted.take n) s.access.addr := by
  cases hmove with
  | accept a data allowed room =>
      intro n s hs hread hn
      by_cases hlt : n < k.accepted.length
      · rw [List.getElem?_append_left hlt] at hs
        have hout : k.Outstanding n := by simpa [Outstanding] using hn
        rw [read_accept hm hr data allowed (hc.exists_work hs hout),
          List.take_append_of_le_length hlt.le]
        exact h.ahead n s hs hread hout
      · obtain rfl : n = k.accepted.length := by
          have hbound := (List.getElem?_eq_some_iff.mp hs).1
          simp at hbound
          omega
        obtain rfl : ⟨a, data, k.bridge.cycle⟩ = s := by simpa using hs
        have hkind : a.kind = .read := hread
        rw [Bridge.accept_memory, hkind, if_neg (by decide), List.take_left]
        exact h.memory _
  | transfer =>
      intro n s hs hread hn
      apply h.ahead n s hs hread
      have htakes := k.bridge.driveFrontend_takes
      rcases hn with hn | hn
      · left
        rw [List.length_append] at hn
        omega
      · have hin := (htakes.inFlight.map (·.arrival)).subset hn
        rw [List.map_append, htakes.arrivals, hc.taken] at hin
        rcases List.mem_append.mp hin with hin | hin
        · exact .inr hin
        · exact .inl (List.mem_range'_1.mp hin).1
  | serve =>
      intro n s hs hread hn
      apply h.ahead n s hs hread
      rcases hn with hn | hn
      · exact .inl hn
      · right
        rw [← k.bridge.driveEngine_inFlight, List.map_append]
        exact List.mem_append_right _ hn
  | _ => exact h.ahead

theorem cell_move (hmove : Move k k') (x : Word) :
    k'.cellAt x =
      ⟨k'.bridge.memory.read x,
        k'.drainedAt x ++
          List.replicate (k'.bridge.work.count (x, .read)) (k'.bridge.memory.read x)⟩ := by
  have hcell := h.cell x
  cases hmove with
  | accept a data allowed room =>
      have hcount := (k.bridge.work_accept a data).count_eq (x, .read)
      simp only [cellAt_accept, hcount, hcell]
      by_cases hx : a.addr = x
      · cases hk : a.kind with
        | read =>
            simp [hx, hk, Bridge.accept_memory, stored?, Cell.act, Access.key,
              List.replicate_succ', drainedAt]
        | write =>
            have hnone : k.bridge.work.count (x, .read) = 0 := by
              apply List.count_eq_zero.mpr
              intro hwork
              exact addr_ne_of_allows hm hr allowed _ hwork hx.symm
            simp [hx, hk, Bridge.accept_memory, stored?, Cell.act, Access.key, hnone,
              Memory.read_write, drainedAt]
      · have hread := k.bridge.read_accept_of_ne a data (Ne.symm hx)
        simp [hx, hread, Access.key, drainedAt]
  | transfer =>
      have hcount := k.bridge.work_driveFrontend.count_eq (x, .read)
      rw [hcount]
      exact hcell
  | serve =>
      have hcount := (k.bridge.work_driveEngine hc.standard_of_mem_served).count_eq (x, .read)
      have hwrites : (((writes k.bridge.driveEngine.1).map (·.request.addr)).map
          (·, AccessKind.write)).count (x, .read) = 0 := by
        simp [List.count_eq_zero]
      rw [List.count_append, hwrites, Nat.zero_add] at hcount
      rw [← hcount]
      exact hcell
  | settle r rest i m waiting settled =>
      have hvalue := h.waiting r (waiting ▸ List.mem_cons_self)
      have hcount := (k.bridge.work_drain waiting).count_eq (x, .read)
      refine hcell.trans ?_
      rw [hcount]
      by_cases hx : r.addr = x
      · subst hx
        simp [drainedAt, hvalue, List.replicate_succ, Bridge.work]
      · simp [drainedAt, hx, Bridge.work]
  | miss r rest waiting unsettled =>
      exact absurd unsettled (hm.settle?_ne_none waiting)
  | _ => exact hcell

theorem undisturbed_move (hmove : Move k k') : k'.Undisturbed where
  memory := Bridge.read_move h.memory hmove
  waiting := waiting_move hc hm hr h hmove
  ahead := ahead_move hc hm hr h hmove
  replies := replies_move hc h hmove
  cell := cell_move hc hm hr h hmove

end Move

end Course

namespace Bridge

variable {σ : Type} [LatencyModel σ] {b : Bridge σ}

theorem mem_waiting_of_drained (b : Bridge σ) {d : Delivery}
    (h : (b.perform .drain).answer = .drained (some d)) : d.reply ∈ b.replies.waiting := by
  cases hw : b.replies.waiting with
  | nil => simp [perform, drain?, ReplyQueue.pop?, hw] at h
  | cons r rest =>
      have hreply : d.reply = r := by
        cases hs : b.ledger.settle? r.addr .read with
        | none =>
            simp only [perform, drain?, ReplyQueue.pop?, hw, hs, Option.map_some] at h
            cases h
            rfl
        | some settled =>
            simp only [perform, drain?, ReplyQueue.pop?, hw, hs, Option.map_some] at h
            cases h
            rfl
      rw [hreply]
      exact List.mem_cons_self

theorem course_undisturbed (hb : b.IsNew) (hr : b.ledger.rule = .reject) (calls : List Call) :
    (b.course calls).Undisturbed := by
  have hstart : Course.Matched { bridge := b } ∧ Course.Undisturbed { bridge := b } :=
    ⟨Course.matched_of_isNew hb, Course.undisturbed_of_isNew hb⟩
  refine (course_induction (I := fun k => k.Matched ∧ k.Undisturbed) hb hstart ?_ calls).2
  rintro k k' hc hs ⟨hm, h⟩ hmove
  have hrule : k.bridge.ledger.rule = .reject := hs.rule.trans hr
  exact ⟨Course.matched_move hc (by simp [hrule]) hm hmove,
    Course.undisturbed_move hc hm hrule h hmove⟩

/-- What was drained for an address is settled, but for its length, by the accesses accepted
there. -/
theorem drainedAt_prefix (hb : b.IsNew) (hr : b.ledger.rule = .reject) (calls : List Call)
    (a : Word) : (b.course calls).drainedAt a <+: ((b.course calls).cellAt a).found := by
  rw [(course_undisturbed hb hr calls).cell a]
  exact List.prefix_append _ _

/-- Under the reject rule values do not depend on timing. The reply of each served read carries
what was written last before the read itself was accepted, and memory still holds that when the
reply is drained. So in two runs, with clocks, room and latency models of their own, in which the
accesses accepted at an address store the same, the values drained for it are the same as far as
both go. -/
theorem values_independent_of_timing (hb : b.IsNew) (hr : b.ledger.rule = .reject)
    (calls : List Call) :
    let k := b.course calls
    let s := b.after calls
    (k.served.map (·.arrival)).Nodup ∧
    (∀ f ∈ k.served, (k.accepted[f.arrival]?).map (·.access.request) = some f.request) ∧
    k.delivered.map (·.reply) ++ s.replies.waiting = (reads k.served).map (fun f =>
      ⟨f.request.addr, lastWritten (k.accepted.take f.arrival) f.request.addr⟩) ∧
    (∀ d, (s.perform .drain).answer = .drained (some d) →
      d.reply.value = s.memory.read d.reply.addr) ∧
    (∀ {τ : Type} [LatencyModel τ] {b' : Bridge τ}, b'.IsNew → b'.ledger.rule = .reject →
      ∀ calls' a, (b'.course calls').storedAt a = k.storedAt a →
        k.drainedAt a <+: (b'.course calls').drainedAt a ∨
          (b'.course calls').drainedAt a <+: k.drainedAt a) := by
  intro k s
  have hc : k.Conserved := course_conserved hb calls
  have hu : k.Undisturbed := course_undisturbed hb hr calls
  have hs : k.bridge = s := course_bridge b calls
  clear_value s
  subst hs
  refine ⟨?_, ?_, hu.replies, ?_, ?_⟩
  · have hnodup : ((k.served ++ k.bridge.engine.inFlight).map (·.arrival)).Nodup := by
      rw [(hc.inEngine.map _).nodup_iff, hc.arrivals]
      exact List.nodup_range
    exact hnodup.sublist ((List.sublist_append_left _ _).map _)
  · intro f hf
    exact hc.accepted_at (hc.inEngine.subset (List.mem_append_left _ hf))
  · intro d hd
    exact hu.waiting d.reply (mem_waiting_of_drained k.bridge hd)
  · intro τ _ b' hb' hr' calls' a hstored
    have hprefix := drainedAt_prefix hb hr calls a
    have hprefix' := drainedAt_prefix hb' hr' calls' a
    have hcell : (b'.course calls').cellAt a = k.cellAt a := by
      rw [Course.cellAt, hstored, Course.cellAt]
    rw [hcell] at hprefix'
    exact List.prefix_or_prefix_of_prefix hprefix hprefix'

/-- A slow and a quick bridge that accept a write and a read at one address: the read finds the
same in both, though only the quick one has drained it. -/
theorem values_independent_of_timing_crowd :
    let b := small ScriptedLatency.slowOne .reject
    let calls := Call.crowd ++ [.drain, .advance, .advance, .submit ⟨1, .read, 1⟩ 0]
    let b' := small (FixedLatency.mk 1) .reject
    let calls' := Call.crowd ++ [.submit ⟨1, .read, 0⟩ 0, .advance, .advance, .drain, .drain]
    b.IsNew ∧ b.ledger.rule = .reject ∧ b'.IsNew ∧ b'.ledger.rule = .reject ∧
      (b.course calls).drainedAt 1 = [] ∧ (b'.course calls').drainedAt 1 = [5] ∧
      (b'.course calls').storedAt 1 = (b.course calls).storedAt 1 ∧
      ((b.course calls).drainedAt 1 <+: (b'.course calls').drainedAt 1 ∨
        (b'.course calls').drainedAt 1 <+: (b.course calls).drainedAt 1) := by
  intro b calls b' calls'
  have hnew : b.IsNew := small_isNew _ _
  have hnew' : b'.IsNew := small_isNew _ _
  obtain ⟨-, -, -, -, hruns⟩ := values_independent_of_timing hnew rfl calls
  have hstored : (b'.course calls').storedAt 1 = (b.course calls).storedAt 1 := by decide
  exact ⟨hnew, rfl, hnew', rfl, by decide, by decide, hstored,
    hruns hnew' rfl calls' 1 hstored⟩

end Bridge

end CycleBridge
