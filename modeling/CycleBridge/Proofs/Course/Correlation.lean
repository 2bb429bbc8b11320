import CycleBridge.Latency.RowBuffer
import CycleBridge.Proofs.Course.Dates
import CycleBridge.Proofs.Course.LateDrains
import CycleBridge.Proofs.Course.Totals

/-!
# Correlation where accesses stand side by side

Where an accepted access displaces nothing, the open reads of an address are those accepted there
after as many as were drained for it. So the drained replies of an address settle its reads in the
order of their acceptance, however the engine reordered them, and what the latencies add up to is
settled by the cycles of acceptance and of draining. The total that a bridge keeps is that sum until
it outgrows a word.
-/

namespace CycleBridge

open Flight

namespace Course

variable {σ : Type}

/-- The reads accepted at an address. -/
def readsAt (k : Course σ) (a : Word) : List Submission :=
  k.accepted.filter fun s => s.access.kind = .read ∧ s.access.addr = a

/-- The replies drained for an address. -/
def deliveredAt (k : Course σ) (a : Word) : List Delivery :=
  k.delivered.filter (·.reply.addr = a)

/-- The sum of the cycles at which the accepted reads were accepted. -/
def readCycles (k : Course σ) : Nat :=
  ((k.accepted.filter (·.access.kind = .read)).map (·.cycle)).sum

/-- The sum of the cycles at which the drained replies were drained. -/
def drainCycles (k : Course σ) : Nat := (k.delivered.map (·.cycle)).sum

namespace Conserved

variable {k : Course σ} (h : k.Conserved)
include h

theorem entered_requests :
    (k.accepted.take k.forwarded.length).map (·.access.request) = k.forwarded.map (·.request) := by
  rw [List.map_take, ← h.inOrder, List.take_left' (List.length_map _)]

/-- Each reply at an address stems from a read there that entered the engine. -/
theorem replies_le (a : Word) :
    (k.deliveredAt a).length + k.bridge.replies.waiting.countP (·.addr = a) ≤
      (k.accepted.take k.forwarded.length).countP
        fun s => s.access.kind = .read ∧ s.access.addr = a := by
  have hreplies : (k.deliveredAt a).length + k.bridge.replies.waiting.countP (·.addr = a) =
      k.served.countP fun f => f.request.kind = .read ∧ f.request.addr = a := by
    have hcount := congrArg (List.count a) h.replies
    simpa [List.count_eq_countP, List.countP_map, Function.comp_def, reads, List.countP_filter,
      deliveredAt, ← List.countP_eq_length_filter, and_comm, beq_eq_decide] using hcount
  have hserved : k.served.countP (fun f => f.request.kind = .read ∧ f.request.addr = a) ≤
      k.forwarded.countP fun f => f.request.kind = .read ∧ f.request.addr = a := by
    rw [← h.inEngine.countP_eq, List.countP_append]
    exact Nat.le_add_right _ _
  have hentered := congrArg (List.countP fun r => r.kind = .read ∧ r.addr = a) h.entered_requests
  simp only [List.countP_map, Function.comp_def] at hentered
  calc
    _ = k.served.countP fun f => f.request.kind = .read ∧ f.request.addr = a := hreplies
    _ ≤ k.forwarded.countP fun f => f.request.kind = .read ∧ f.request.addr = a := hserved
    _ = _ := hentered.symm

theorem length_deliveredAt_le (a : Word) :
    (k.deliveredAt a).length ≤ (k.readsAt a).length := by
  have hle := h.replies_le a
  have htake := (List.take_sublist k.forwarded.length k.accepted).countP_le
    (p := fun s => s.access.kind = .read ∧ s.access.addr = a)
  rw [readsAt, ← List.countP_eq_length_filter]
  omega

/-- An open read that a reply can settle has entered the engine. -/
theorem entered_of_waiting {a : Word} {r : Submission}
    (hr : (k.readsAt a)[(k.deliveredAt a).length]? = some r)
    (hwaiting : ∃ q ∈ k.bridge.replies.waiting, q.addr = a) :
    r ∈ k.accepted.take k.forwarded.length := by
  have hle := h.replies_le a
  have hpos : 0 < k.bridge.replies.waiting.countP (·.addr = a) := by
    simpa [List.countP_pos_iff] using hwaiting
  rw [readsAt, ← List.take_append_drop k.forwarded.length k.accepted, List.filter_append,
    List.getElem?_append_left] at hr
  · exact List.mem_of_mem_filter (List.mem_of_getElem? hr)
  · rw [← List.countP_eq_length_filter]
    omega

end Conserved

/-- How the open reads of a ledger and the latencies of the drained replies belong to the accepted
reads. -/
structure Correlated (k : Course σ) : Prop where
  queued : ∀ a, k.bridge.ledger.queueAt a .read =
    ((k.readsAt a).drop (k.deliveredAt a).length).map (·.issue)
  charged : ∀ a (n : Nat) (d : Delivery), (k.deliveredAt a)[n]? = some d →
    ∃ r, (k.readsAt a)[n]? = some r ∧ r.cycle < d.cycle ∧ d.latency = some (d.cycle - r.cycle)
  total : k.readCycles + k.latencies.sum = k.drainCycles + k.bridge.ledger.readCycles
  total_le : k.latencies.sum ≤ k.drainCycles

theorem correlated_of_isNew {b : Bridge σ} (hb : b.IsNew) : Correlated { bridge := b } := by
  obtain ⟨clock, ratio, ratio', depth, capacity, model, rule, rfl⟩ := hb.exists_eq
  exact ⟨fun a => rfl, by simp [deliveredAt], rfl, Nat.le_refl _⟩

section Step

variable {k : Course σ}

theorem readsAt_accept (k : Course σ) (a : Access) (data x : Word) :
    (k.accept a data).readsAt x = k.readsAt x ++
      if x = a.addr ∧ a.kind = .read then [⟨a, data, k.bridge.cycle⟩] else [] := by
  by_cases hx : a.addr = x
  · by_cases hk : a.kind = .read <;> simp [readsAt, hx, hk]
  · simp [readsAt, hx, Ne.symm hx]

theorem readCycles_accept (k : Course σ) (a : Access) (data : Word) :
    (k.accept a data).readCycles =
      k.readCycles + if a.kind = .read then k.bridge.cycle else 0 := by
  by_cases hk : a.kind = .read <;> simp [readCycles, hk]

theorem correlated_accept (hc : k.Conserved) (hr : k.bridge.ledger.rule ≠ .overwrite)
    (ht : k.bridge.ledger.Tidy) (h : k.Correlated) (a : Access) (data : Word) :
    (k.accept a data).Correlated := by
  constructor
  · intro x
    have hle := hc.length_deliveredAt_le x
    rw [readsAt_accept, accept_bridge, Bridge.accept_ledger, Ledger.queueAt_enter hr, h.queued]
    change _ = List.map _ (List.drop (k.deliveredAt x).length _)
    rw [List.drop_append_of_le_length hle, List.map_append]
    congr 1
    by_cases hx : x = a.addr ∧ a.kind = .read
    · rw [if_pos hx, if_pos hx]
      rfl
    · rw [if_neg hx, if_neg hx]
      rfl
  · intro x n d hd
    obtain ⟨r, hread, hlt, hlatency⟩ := h.charged x n d hd
    refine ⟨r, ?_, hlt, hlatency⟩
    rw [readsAt_accept, List.getElem?_append_left (List.getElem?_eq_some_iff.mp hread).1]
    exact hread
  · have htotal := h.total
    rw [readCycles_accept, accept_bridge, Bridge.accept_ledger, Ledger.readCycles_enter ht hr]
    change _ + k.latencies.sum = k.drainCycles + _
    omega
  · exact h.total_le

theorem correlated_advance [LatencyModel σ] (hc : k.Conserved) (ht : k.bridge.ledger.Tidy)
    (h : k.Correlated) : k.advance.Correlated := by
  have hledger := Bridge.advance_ledger hc
  constructor
  · intro a
    rw [advance_bridge, hledger, Ledger.readsAt_retireAll]
    exact h.queued a
  · exact h.charged
  · rw [advance_bridge, hledger, Ledger.readCycles_retireAll ht]
    exact h.total
  · exact h.total_le

/-- A drain takes the oldest of the reads at its address that were not settled before. -/
theorem Correlated.settles (h : k.Correlated) {a : Word} {i : Issue} {m : Ledger}
    (hs : k.bridge.ledger.settle? a .read = some (i, m)) :
    ∃ r, (k.readsAt a)[(k.deliveredAt a).length]? = some r ∧ i = r.issue ∧
      m.queueAt a .read = ((k.readsAt a).drop ((k.deliveredAt a).length + 1)).map (·.issue) := by
  have hqueued := h.queued a
  rw [Ledger.queueAt_settle? hs] at hqueued
  obtain ⟨r, rest, hdrop, hissue, hrest⟩ := List.map_eq_cons_iff.mp hqueued.symm
  refine ⟨r, ?_, hissue.symm, ?_⟩
  · rw [← List.head?_drop, hdrop, List.head?_cons]
  · rw [← hrest, ← List.tail_drop, hdrop, List.tail_cons]

theorem correlated_drain (hc : k.Conserved) (hm : k.Matched) (hd : k.Dated) (h : k.Correlated)
    {d : Delivery} {b : Bridge σ} (drains : k.bridge.Drains d b) : (k.drain d b).Correlated := by
  obtain ⟨i, hs, hlatency⟩ := hm.settles drains
  obtain ⟨r, hread, rfl, hleft⟩ := h.settles hs
  have hwaiting : ∃ q ∈ k.bridge.replies.waiting, q.addr = d.reply.addr :=
    ⟨d.reply, by simp [drains.waiting], rfl⟩
  have hlt := hd.entered r (hc.entered_of_waiting hread hwaiting)
  have hcharged : (k.drain d b).latencies.sum = k.latencies.sum + (k.bridge.cycle - r.cycle) := by
    rw [latencies_drain, hlatency, List.sum_append, Option.toList_some, List.sum_singleton]
    rfl
  have hdrained : (k.drain d b).drainCycles = k.drainCycles + k.bridge.cycle := by
    simp [drainCycles, drains.cycle]
  have hdelivered : ∀ a, (k.drain d b).deliveredAt a =
      k.deliveredAt a ++ if d.reply.addr = a then [d] else [] := by
    intro a
    by_cases ha : d.reply.addr = a <;> simp [deliveredAt, ha]
  constructor
  · intro a
    rw [drain_bridge, hdelivered]
    by_cases ha : d.reply.addr = a
    · subst ha
      rw [if_pos rfl, List.length_append]
      exact hleft
    · rw [if_neg ha, List.append_nil, Ledger.queueAt_settle?_of_ne hs fun he => ha he.1.symm]
      exact h.queued a
  · intro a n d' hn
    rw [hdelivered] at hn
    by_cases ha : d.reply.addr = a
    · subst ha
      rw [if_pos rfl] at hn
      rcases getElem?_snoc hn with hold | ⟨rfl, rfl⟩
      · exact h.charged _ n d' hold
      · refine ⟨r, hread, ?_, ?_⟩
        · rwa [drains.cycle]
        · rw [hlatency, drains.cycle]
          rfl
    · rw [if_neg ha, List.append_nil] at hn
      exact h.charged a n d' hn
  · have htotal := h.total
    rw [Ledger.readCycles_settle? hm.tidy hs] at htotal
    rw [drain_bridge, hcharged, hdrained]
    simp only [readCycles, drain_accepted, Submission.issue] at htotal ⊢
    omega
  · have hle := h.total_le
    rw [hcharged, hdrained]
    omega

theorem correlated_step [LatencyModel σ] {k' : Course σ} {news : List Occurrence}
    (hc : k.Conserved) (hr : k.bridge.ledger.rule ≠ .overwrite) (hm : k.Matched) (hd : k.Dated)
    (h : k.Correlated) (hs : k.Step news k') : k'.Correlated := by
  cases hs with
  | stay => exact h
  | accept a data allowed room => exact correlated_accept hc hr hm.tidy h a data
  | refuseOverlap => exact { h with }
  | refuseFull => exact { h with }
  | advance => exact correlated_advance hc hm.tidy h
  | drain d b drains => exact correlated_drain hc hm hd h drains

end Step

end Course

namespace Bridge

variable {σ : Type} [LatencyModel σ] {b : Bridge σ}

theorem course_correlated (hb : b.IsNew) (hr : b.ledger.rule ≠ .overwrite) (calls : List Call) :
    (b.course calls).Correlated := by
  apply journal_induction (I := fun _ k => k.Correlated) (Course.correlated_of_isNew hb)
  intro calls c news h hs
  have hrule : (b.course calls).bridge.ledger.rule ≠ .overwrite := by
    rwa [(course_sameSettings hb calls).rule]
  exact Course.correlated_step (course_conserved hb calls) hrule (course_matched hb hr calls)
    (course_dated hb calls) h hs

section Paced

variable {n t : Nat} (h : 2 * n + 1 ≤ t)
include h

end Paced

end Bridge

end CycleBridge
