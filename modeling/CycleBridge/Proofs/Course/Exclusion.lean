import CycleBridge.Proofs.Course.Dates
import CycleBridge.Proofs.Course.Timing

/-!
# Correlation where accesses exclude each other

Under the reject rule an address is closed from the acceptance of an access until that access is
settled. So one access at most is under way at an address, its open access is the one in the
ledger, and a drained reply is charged the time of the read that left it.
-/

namespace CycleBridge

open Flight

namespace Course

variable {σ : Type}

/-- The access accepted as number `n` was not served yet, or its reply still waits. -/
def UnderWay (k : Course σ) (n : Nat) : Prop :=
  k.Outstanding n ∨ n ∈ ((reads k.served).drop k.delivered.length).map (·.arrival)

namespace Conserved

variable {k : Course σ} (h : k.Conserved)
include h

/-- The replies that wait are those of the served reads that follow the drained ones. -/
theorem waiting_eq : k.bridge.replies.waiting.map (·.addr) =
    ((reads k.served).drop k.delivered.length).map (·.request.addr) := by
  rw [List.map_drop, ← h.replies, List.drop_left' (List.length_map _)]

theorem forwarded_of_reads {f : Flight} (hf : f ∈ reads k.served) : f ∈ k.forwarded :=
  h.inEngine.subset (List.mem_append_left _ (List.mem_of_mem_filter hf))

/-- The access of a flight entered the engine. -/
theorem entered_at {f : Flight} (hf : f ∈ k.forwarded) {t : Submission}
    (ht : k.accepted[f.arrival]? = some t) : t ∈ k.accepted.take k.forwarded.length := by
  have hlt := (List.getElem?_eq_some_iff.mp (h.forwarded_at hf)).1
  apply List.mem_of_getElem? (i := f.arrival)
  rw [List.getElem?_take_of_lt hlt, ht]

theorem exists_accepted {f : Flight} (hf : f ∈ k.forwarded) :
    ∃ t, k.accepted[f.arrival]? = some t ∧ t.access.request = f.request :=
  Option.map_eq_some_iff.mp (h.accepted_at hf)

theorem exists_work_of_underWay {n : Nat} {t : Submission} (ht : k.accepted[n]? = some t)
    (hn : k.UnderWay n) : ∃ w ∈ k.bridge.work, w.1 = t.access.addr := by
  rcases hn with hn | hn
  · exact h.exists_work ht hn
  · obtain ⟨f, hf, rfl⟩ := List.mem_map.mp hn
    obtain ⟨t', ht', hrequest⟩ := h.exists_accepted (h.forwarded_of_reads (List.mem_of_mem_drop hf))
    obtain rfl : t' = t := Option.some.inj (ht'.symm.trans ht)
    have haddr : f.request.addr ∈ k.bridge.replies.waiting.map (·.addr) := by
      rw [h.waiting_eq]
      exact List.mem_map_of_mem hf
    obtain ⟨r, hr, he⟩ := List.mem_map.mp haddr
    refine (Bridge.exists_work_iff _ _).mpr (.inr (.inr ⟨r, hr, he.trans ?_⟩))
    exact congrArg (·.addr) hrequest.symm

/-- A step of the clock brings nothing under way. -/
theorem underWay_advance [LatencyModel σ] {n : Nat} (hn : k.advance.UnderWay n) :
    k.UnderWay n := by
  have hengine : ∀ f ∈ k.bridge.advance.served ++ k.bridge.advance.bridge.engine.inFlight,
      k.Outstanding f.arrival := by
    intro f hf
    rcases List.mem_append.mp (k.bridge.advance_inFlight.subset hf) with hold | hnew
    · exact .inr (List.mem_map_of_mem hold)
    · exact .inl (h.le_arrival hnew)
  rcases hn with (hn | hn) | hn
  · left
    left
    rw [advance_forwarded, List.length_append] at hn
    omega
  · obtain ⟨f, hf, rfl⟩ := List.mem_map.mp hn
    exact .inl (hengine f (List.mem_append_right _ hf))
  · have hle : k.delivered.length ≤ (reads k.served).length := by
      have hlen := h.length_reads
      omega
    rw [advance_served, advance_delivered, reads_append, List.drop_append_of_le_length hle,
      List.map_append] at hn
    rcases List.mem_append.mp hn with hn | hn
    · exact .inr hn
    · obtain ⟨f, hf, rfl⟩ := List.mem_map.mp hn
      exact .inl (hengine f (List.mem_append_left _ (List.mem_of_mem_filter hf)))

end Conserved

theorem Matched.issuesAt_ne_nil {k : Course σ} (h : k.Matched) {a : Word}
    (hw : ∃ w ∈ k.bridge.work, w.1 = a) : k.bridge.ledger.issuesAt a ≠ [] := by
  intro hnone
  obtain ⟨w, hw, ha⟩ := hw
  have hopen : k.bridge.ledger.openCount a = 0 := by rw [Ledger.openCount, hnone, List.length_nil]
  exact (Ledger.openCount_eq_zero_iff h.tidy a).mp hopen w (h.keys.symm.subset hw) ha

/-- At each address one access at most is under way, its open access is the one in the ledger, and
the drained replies were charged the time of the reads that left them. -/
structure Exclusive (k : Course σ) : Prop where
  alone : (k.bridge.work.map Prod.fst).Nodup
  record : ∀ n t, k.accepted[n]? = some t → k.UnderWay n →
    k.bridge.ledger.issuesAt t.access.addr = [t.issue]
  charged : ∀ (n : Nat) (d : Delivery), k.delivered[n]? = some d → ∃ f t,
    (reads k.served)[n]? = some f ∧ k.accepted[f.arrival]? = some t ∧
      d.reply.addr = t.access.addr ∧ t.cycle < d.cycle ∧ d.latency = some (d.cycle - t.cycle)

theorem exclusive_of_isNew {b : Bridge σ} (hb : b.IsNew) : Exclusive { bridge := b } := by
  obtain ⟨clock, ratio, ratio', depth, capacity, model, rule, rfl⟩ := hb.exists_eq
  exact ⟨List.nodup_nil, by simp, by simp⟩

namespace Exclusive

variable {k : Course σ} (hc : k.Conserved) (h : k.Exclusive)
include hc h

theorem record_of_pending {n : Nat} {q : Request} (hq : k.bridge.frontend.pending[n]? = some q) :
    ∃ t, k.accepted[k.forwarded.length + n]? = some t ∧ t.access.request = q ∧
      k.bridge.ledger.issuesAt q.addr = [t.issue] := by
  have hat : (k.accepted[k.forwarded.length + n]?).map (·.access.request) = some q := by
    rw [← List.getElem?_map, ← hc.inOrder, List.getElem?_append_right (by simp),
      List.length_map, Nat.add_sub_cancel_left, hq]
  obtain ⟨t, ht, rfl⟩ := Option.map_eq_some_iff.mp hat
  exact ⟨t, ht, rfl, h.record _ t ht (.inl (.inl (Nat.le_add_right _ _)))⟩

theorem record_of_inFlight {f : Flight} (hf : f ∈ k.bridge.engine.inFlight) :
    ∃ t, k.accepted[f.arrival]? = some t ∧ t.access.request = f.request ∧
      k.bridge.ledger.issuesAt f.request.addr = [t.issue] := by
  obtain ⟨t, ht, hrequest⟩ := hc.exists_accepted (hc.inEngine.subset (List.mem_append_right _ hf))
  refine ⟨t, ht, hrequest, ?_⟩
  rw [← hrequest]
  exact h.record f.arrival t ht (.inl (.inr (List.mem_map_of_mem hf)))

theorem record_of_waiting {n : Nat} {q : Reply} (hq : k.bridge.replies.waiting[n]? = some q) :
    ∃ f t, (reads k.served)[k.delivered.length + n]? = some f ∧ k.accepted[f.arrival]? = some t ∧
      t.access.request = f.request ∧ q.addr = t.access.addr ∧
        k.bridge.ledger.issuesAt q.addr = [t.issue] := by
  have hat := congrArg (·[n]?) hc.waiting_eq
  simp only [List.getElem?_map, hq, Option.map_some] at hat
  obtain ⟨f, hf, hfq⟩ := Option.map_eq_some_iff.mp hat.symm
  have hmem := List.mem_of_getElem? hf
  obtain ⟨t, ht, hrequest⟩ := hc.exists_accepted (hc.forwarded_of_reads (List.mem_of_mem_drop hmem))
  have ha : q.addr = t.access.addr := hfq.symm.trans (congrArg (·.addr) hrequest.symm)
  refine ⟨f, t, ?_, ht, hrequest, ha, ?_⟩
  · rw [← List.getElem?_drop, hf]
  · rw [ha]
    exact h.record f.arrival t ht (.inr (List.mem_map_of_mem hmem))

end Exclusive

section Step

variable {k : Course σ}

theorem exclusive_accept (hc : k.Conserved) (hr : k.bridge.ledger.rule = .reject) (hm : k.Matched)
    (h : k.Exclusive) {a : Access} (data : Word) (allowed : k.bridge.ledger.allows a.addr) :
    (k.accept a data).Exclusive := by
  have hfree := addr_ne_of_allows hm hr allowed
  have hissues : ∀ x, (k.bridge.accept a data).ledger.issuesAt x =
      if x = a.addr then [⟨k.bridge.cycle, a.kind⟩] else k.bridge.ledger.issuesAt x := by
    intro x
    have hnone : k.bridge.ledger.issuesAt a.addr = [] := by
      simpa [Ledger.allows, Ledger.openCount, hr] using allowed
    rw [Bridge.accept_ledger, Ledger.issuesAt_enter, hnone, ite_self, List.nil_append]
  constructor
  · have hwork := (k.bridge.work_accept a data).map Prod.fst
    rw [accept_bridge, hwork.nodup_iff, List.map_cons, List.nodup_cons]
    refine ⟨?_, h.alone⟩
    intro hmem
    obtain ⟨w, hw, ha⟩ := List.mem_map.mp hmem
    exact hfree w hw ha
  · intro n t ht hn
    have hway : k.UnderWay n := by simpa [UnderWay, Outstanding] using hn
    rw [accept_accepted] at ht
    rw [accept_bridge, hissues]
    rcases getElem?_snoc ht with hold | ⟨rfl, rfl⟩
    · obtain ⟨w, hw, ha⟩ := hc.exists_work_of_underWay hold hway
      rw [if_neg (ha ▸ hfree w hw)]
      exact h.record n t hold hway
    · rw [if_pos rfl]
      rfl
  · intro n d hd
    obtain ⟨f, t, hf, ht, hcharged⟩ := h.charged n d hd
    refine ⟨f, t, hf, ?_, hcharged⟩
    rw [accept_accepted, List.getElem?_append_left (List.getElem?_eq_some_iff.mp ht).1]
    exact ht

theorem exclusive_advance [LatencyModel σ] (hc : k.Conserved) (h : k.Exclusive)
    (hc' : k.advance.Conserved) (hm' : k.advance.Matched) : k.advance.Exclusive := by
  constructor
  · have hwork := ((Bridge.advance_work hc).map Prod.fst).nodup_iff.mp h.alone
    rw [List.map_append] at hwork
    exact hwork.of_append_right
  · intro n t ht hn
    have hne := hm'.issuesAt_ne_nil (hc'.exists_work_of_underWay ht hn)
    have hsub := k.bridge.ledger.issuesAt_retireAll_sublist
      ((writes k.bridge.advance.served).map (·.request.addr)) t.access.addr
    rw [← Bridge.advance_ledger hc, h.record n t ht (hc.underWay_advance hn)] at hsub
    exact (List.sublist_singleton.mp hsub).resolve_left hne
  · intro n d hd
    obtain ⟨f, t, hf, hcharged⟩ := h.charged n d hd
    refine ⟨f, t, ?_, hcharged⟩
    rw [advance_served, reads_append, List.getElem?_append_left (List.getElem?_eq_some_iff.mp hf).1]
    exact hf

/-- A drained reply settles the read that left it, for no other access is open at its address. -/
theorem Exclusive.charges (hc : k.Conserved) (hm : k.Matched) (hd : k.Dated) (h : k.Exclusive)
    {d : Delivery} {b : Bridge σ} (drains : k.bridge.Drains d b) : ∃ f t,
      (reads k.served)[k.delivered.length]? = some f ∧ k.accepted[f.arrival]? = some t ∧
        d.reply.addr = t.access.addr ∧ t.cycle < d.cycle ∧
          d.latency = some (d.cycle - t.cycle) := by
  have hwaiting := hc.waiting_eq
  rw [drains.waiting, List.map_cons] at hwaiting
  obtain ⟨f, rest, hdrop, haddr, -⟩ := List.map_eq_cons_iff.mp hwaiting.symm
  have hf : f ∈ (reads k.served).drop k.delivered.length := hdrop ▸ List.mem_cons_self
  have hfwd := hc.forwarded_of_reads (List.mem_of_mem_drop hf)
  obtain ⟨t, ht, hrequest⟩ := hc.exists_accepted hfwd
  have ha : d.reply.addr = t.access.addr := haddr.symm.trans (congrArg (·.addr) hrequest.symm)
  have hrecord := h.record f.arrival t ht (.inr (List.mem_map_of_mem hf))
  obtain ⟨i, hs, hlatency⟩ := hm.settles drains
  have hi : i ∈ k.bridge.ledger.queueAt d.reply.addr .read :=
    Ledger.queueAt_settle? hs ▸ List.mem_cons_self
  have hissue := (Ledger.mem_queueAt.mp hi).1
  rw [ha, hrecord, List.mem_singleton] at hissue
  refine ⟨f, t, ?_, ht, ha, ?_, ?_⟩
  · rw [← List.head?_drop, hdrop, List.head?_cons]
  · rw [drains.cycle]
    exact hd.entered t (hc.entered_at hfwd ht)
  · rw [hlatency, drains.cycle, hissue]
    rfl

theorem exclusive_drain (hc : k.Conserved) (hm : k.Matched) (hd : k.Dated) (h : k.Exclusive)
    {d : Delivery} {b : Bridge σ} (drains : k.bridge.Drains d b)
    (hc' : (k.drain d b).Conserved) : (k.drain d b).Exclusive := by
  obtain ⟨i, hs, -⟩ := hm.settles drains
  have hwork := (drains.work.map Prod.fst).nodup_iff.mp h.alone
  rw [List.map_cons, List.nodup_cons] at hwork
  constructor
  · exact hwork.2
  · intro n t ht hn
    have hne : t.access.addr ≠ d.reply.addr := by
      intro ha
      obtain ⟨w, hw, hwa⟩ := hc'.exists_work_of_underWay ht hn
      apply hwork.1
      exact List.mem_map.mpr ⟨w, hw, hwa.trans ha⟩
    have hway : k.UnderWay n := by
      rcases hn with hn | hn
      · rw [Outstanding, drain_bridge, drains.engine] at hn
        exact .inl hn
      · have hsub := List.drop_sublist_drop_left (reads k.served)
          (Nat.le_add_right k.delivered.length [d].length)
        rw [drain_delivered, List.length_append] at hn
        exact .inr ((hsub.map _).subset hn)
    rw [drain_bridge, Ledger.issuesAt_settle? hs, if_neg hne]
    exact h.record n t ht hway
  · intro n d' hn
    rw [drain_delivered] at hn
    rcases getElem?_snoc hn with hold | ⟨rfl, rfl⟩
    · exact h.charged n d' hold
    · exact h.charges hc hm hd drains

theorem exclusive_step [LatencyModel σ] {k' : Course σ} {news : List Occurrence}
    (hc : k.Conserved) (hr : k.bridge.ledger.rule = .reject) (hm : k.Matched) (hd : k.Dated)
    (h : k.Exclusive) (hs : k.Step news k') (hc' : k'.Conserved) (hm' : k'.Matched) :
    k'.Exclusive := by
  cases hs with
  | stay => exact h
  | accept a data allowed room => exact exclusive_accept hc hr hm h data allowed
  | refuseOverlap => exact { h with }
  | refuseFull => exact { h with }
  | advance => exact exclusive_advance hc h hc' hm'
  | drain d b drains => exact exclusive_drain hc hm hd h drains hc'

end Step

end Course

namespace Bridge

variable {σ : Type} [LatencyModel σ] {b : Bridge σ}

/-- How many accesses are under way at an address: those that wait in the frontend, those in
flight, and the reads whose replies were not drained. -/
def itemsAt (b : Bridge σ) (a : Word) : Nat :=
  b.frontend.pending.countP (·.addr = a) + b.engine.inFlight.countP (·.request.addr = a) +
    b.replies.waiting.countP (·.addr = a)

omit [LatencyModel σ] in
theorem itemsAt_eq (b : Bridge σ) (a : Word) : b.itemsAt a = (b.work.map Prod.fst).count a := by
  simp [itemsAt, work, Access.key, List.count_eq_countP, List.countP_map, Function.comp_def,
    beq_eq_decide, Nat.add_assoc]

theorem course_exclusive (hb : b.IsNew) (hr : b.ledger.rule = .reject) (calls : List Call) :
    (b.course calls).Exclusive := by
  have hrule : b.ledger.rule ≠ .overwrite := by simp [hr]
  apply journal_induction (I := fun _ k => k.Exclusive) (Course.exclusive_of_isNew hb)
  intro calls c news h hs
  exact Course.exclusive_step (course_conserved hb calls)
    ((course_sameSettings hb calls).rule.trans hr) (course_matched hb hrule calls)
    (course_dated hb calls) h hs (course_conserved hb _) (course_matched hb hrule _)

/-- How reads are correlated where accesses exclude each other. An address has one access under way
at most, and as many open accesses in the ledger; the open access is that of the request which
waits, or is in flight, or left the reply that waits. So each drained reply is charged the cycles
from the acceptance of the very read that left it to its drain, one at least. -/
theorem own_read_correlates (hb : b.IsNew) (hr : b.ledger.rule = .reject) (calls : List Call) :
    let k := b.course calls
    let s := b.after calls
    (∀ a, s.itemsAt a ≤ 1 ∧ (s.ledger.issuesAt a).length = s.itemsAt a) ∧
    (∀ (n : Nat) q, s.frontend.pending[n]? = some q →
      ∃ t, k.accepted[k.forwarded.length + n]? = some t ∧ t.access.request = q ∧
        s.ledger.issuesAt q.addr = [t.issue]) ∧
    (∀ f ∈ s.engine.inFlight,
      ∃ t, k.accepted[f.arrival]? = some t ∧ t.access.request = f.request ∧
        s.ledger.issuesAt f.request.addr = [t.issue]) ∧
    (∀ (n : Nat) q, s.replies.waiting[n]? = some q →
      ∃ f t, (reads k.served)[k.delivered.length + n]? = some f ∧
        k.accepted[f.arrival]? = some t ∧ t.access.request = f.request ∧
          q.addr = t.access.addr ∧ s.ledger.issuesAt q.addr = [t.issue]) ∧
    (∀ (n : Nat) d, k.delivered[n]? = some d →
      ∃ f t, (reads k.served)[n]? = some f ∧ k.accepted[f.arrival]? = some t ∧
        t.access.request = f.request ∧ d.reply.addr = t.access.addr ∧
          ∃ l, d.latency = some l ∧ t.cycle + l = d.cycle ∧ 1 ≤ l) := by
  intro k s
  have hc : k.Conserved := course_conserved hb calls
  have hm : k.Matched := course_matched hb (by simp [hr]) calls
  have h : k.Exclusive := course_exclusive hb hr calls
  have hs : k.bridge = s := course_bridge b calls
  clear_value s
  subst hs
  refine ⟨?_, ?_, ?_, ?_, ?_⟩
  · intro a
    rw [Ledger.length_issuesAt hm.tidy, (hm.keys.map Prod.fst).count_eq, itemsAt_eq]
    exact ⟨List.nodup_iff_count_le_one.mp h.alone a, rfl⟩
  · intro n q hq
    exact h.record_of_pending hc hq
  · intro f hf
    exact h.record_of_inFlight hc hf
  · intro n q hq
    exact h.record_of_waiting hc hq
  · intro n d hd
    obtain ⟨f, t, hf, ht, ha, hlt, hlatency⟩ := h.charged n d hd
    obtain ⟨t', ht', hrequest⟩ :=
      hc.exists_accepted (hc.forwarded_of_reads (List.mem_of_getElem? hf))
    obtain rfl : t' = t := Option.some.inj (ht'.symm.trans ht)
    exact ⟨f, t', hf, ht, hrequest, ha, _, hlatency, by omega, by omega⟩

/-- A write in flight closes address 1 and a waiting reply closes address 2, so two submissions are
refused. The drain of that reply, in cycle 2, is charged to the read accepted in cycle 0. -/
theorem own_read_correlates_crowd :
    let b := small ScriptedLatency.slowOne .reject
    let last := Call.crowd ++ [.drain]
    b.IsNew ∧ b.ledger.rule = .reject ∧ (b.course Call.crowd).overlapRefusals = 2 ∧
      (b.after Call.crowd).itemsAt 2 = 1 ∧
      ((b.after Call.crowd).ledger.issuesAt 2).length = 1 ∧
      (∃ t : Submission, (b.after Call.crowd).ledger.issuesAt 2 = [t.issue]) ∧
      (b.course last).delivered[0]? = some ⟨⟨2, 2⟩, 2, some 2⟩ ∧
      ∃ f t, (reads (b.course last).served)[0]? = some f ∧
        (b.course last).accepted[f.arrival]? = some t ∧ t.access.request = f.request ∧
          t.cycle + 2 = 2 := by
  intro b last
  have hnew : b.IsNew := small_isNew _ _
  have hitems : (b.after Call.crowd).itemsAt 2 = 1 := by decide
  have hq : (b.after Call.crowd).replies.waiting[0]? = some ⟨2, 2⟩ := by decide
  have hd : (b.course last).delivered[0]? = some ⟨⟨2, 2⟩, 2, some 2⟩ := by decide
  obtain ⟨hcount, -, -, hwaiting, -⟩ := own_read_correlates hnew rfl Call.crowd
  obtain ⟨-, -, -, -, hcharged⟩ := own_read_correlates hnew rfl last
  obtain ⟨-, t, -, -, -, -, hrecord⟩ := hwaiting 0 ⟨2, 2⟩ hq
  obtain ⟨f, t', hf, ht, hrequest, -, l, hl, hcycle, -⟩ := hcharged 0 _ hd
  obtain rfl : 2 = l := Option.some.inj hl
  exact ⟨hnew, rfl, by decide, hitems, (hcount 2).2.trans hitems, ⟨t, hrecord⟩, hd, f, t', hf, ht,
    hrequest, hcycle⟩

end Bridge

end CycleBridge
