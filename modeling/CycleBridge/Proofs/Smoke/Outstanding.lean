import CycleBridge.Proofs.Course.Pairing
import CycleBridge.Proofs.Smoke.Agreement

/-!
# The outstanding reads of a smoke run

A smoke run keeps one expected value for each address. As long as no access is accepted where a read
is outstanding, that is one for each outstanding read: each reply finds its expected value, each
drain finds its open read, and a run that reports to be finished has got all its replies. Where two
reads of one address are outstanding at once, the run knows of one of them only.
-/

namespace CycleBridge.SmokeRun

theorem size_pos_of_mem {t : Std.TreeMap Word Word} {a : Word} (h : a ∈ t) : 0 < t.size := by
  have hsome := Std.TreeMap.isEmpty_eq_false_iff_exists_mem.mpr ⟨a, h⟩
  rw [Std.TreeMap.isEmpty_eq_size_eq_zero, beq_eq_false_iff_ne] at hsome
  exact Nat.pos_of_ne_zero hsome

variable {σ : Type} {p : SmokeSetup} {k : Course σ} {s : SmokeRun σ}

/-- The run expects a value at an address exactly if a read is outstanding there, no two are
outstanding at one address, and no reply missed its read. -/
structure Tracks (p : SmokeSetup) (k : Course σ) (s : SmokeRun σ) : Prop where
  paired : ∀ a, k.PairedAt a .read
  outstanding : ∀ a, k.bridge.work.count (a, .read) = if a ∈ s.expected then 1 else 0
  balance : s.expected.size + k.delivered.length = k.accepted.countP (·.access.kind = .read)
  unmatched : s.counts.unmatched = 0
  correlated : k.bridge.counts.repliesUnmatched = 0
  size_le : s.expected.size ≤ p.maxInFlight
  issued : ∀ a ∈ s.expected, ∃ i < s.next, (p.access i).kind = .read ∧ (p.access i).addr = a

theorem tracks_start {b : Bridge σ} (hb : b.IsNew) : Tracks p { bridge := b } (start p b) := by
  obtain ⟨clock, ratio, ratio', depth, capacity, model, rule, rfl⟩ := hb.exists_eq
  refine ⟨fun a => rfl, ?_, rfl, rfl, rfl, Nat.zero_le _, ?_⟩
  · intro a
    simp [start, Bridge.work]
  · intro a ha
    simp [start] at ha

theorem tracks_receive (h : Tracks p k s) {d : Delivery} {b : Bridge σ}
    (drains : k.bridge.Drains d b) : Tracks p (k.drain d b) (s.receive d b) := by
  have hwork : ∀ a, k.bridge.work.count (a, .read) =
      b.work.count (a, .read) + if d.reply.addr = a then 1 else 0 := by
    intro a
    rw [drains.work.count_eq, List.count_cons]
    simp
  have hmem : d.reply.addr ∈ s.expected := by
    have hcount := h.outstanding d.reply.addr
    rw [hwork, if_pos rfl] at hcount
    by_contra hnone
    rw [if_neg hnone] at hcount
    omega
  obtain ⟨value, hvalue⟩ := Option.isSome_iff_exists.mp
    (Std.TreeMap.mem_iff_isSome_getElem?.mp hmem)
  obtain ⟨hexpected, hcounts⟩ := s.receive_of_expected d b hvalue
  obtain ⟨i, -, hlatency⟩ := (h.paired d.reply.addr).settles drains
  have hsize_erase : (s.expected.erase d.reply.addr).size + 1 = s.expected.size := by
    rw [Std.TreeMap.size_erase, if_pos (Std.TreeMap.contains_iff_mem.mpr hmem)]
    exact Nat.sub_add_cancel (size_pos_of_mem hmem)
  constructor
  · intro a
    exact Course.pairedAt_drain (h.paired a) drains
  · intro a
    have hcount := h.outstanding a
    rw [hwork] at hcount
    rw [Course.drain_bridge, hexpected]
    simp only [Std.TreeMap.mem_erase, Std.compare_eq_iff_eq, ne_eq]
    by_cases ha : d.reply.addr = a
    · rw [← ha, if_pos rfl, if_pos hmem] at hcount
      rw [if_neg (fun he => he.1 ha), ← ha]
      omega
    · simpa [ha] using hcount
  · have hbalance := h.balance
    rw [hexpected, Course.drain_delivered, Course.drain_accepted, List.length_append,
      List.length_singleton]
    omega
  · rw [hcounts]
    exact h.unmatched
  · rw [Course.drain_bridge, drains.counts, hlatency]
    exact h.correlated
  · have hsize := h.size_le
    rw [hexpected]
    omega
  · intro a ha
    rw [hexpected, Std.TreeMap.mem_erase] at ha
    rw [receive_next]
    exact h.issued a ha.2

theorem mem_acceptNext_iff (a : Word) : a ∈ (s.acceptNext p).expected ↔
    a ∈ s.expected ∨ (p.access s.next).addr = a ∧ (p.access s.next).kind = .read := by
  rw [acceptNext_expected]
  split
  · next hk =>
      rw [Std.TreeMap.mem_insert, Std.compare_eq_iff_eq, or_comm]
      simp [hk]
  · next hk => simp [hk]

theorem size_acceptNext (fresh : (p.access s.next).addr ∉ s.expected) :
    (s.acceptNext p).expected.size =
      s.expected.size + if (p.access s.next).kind = .read then 1 else 0 := by
  rw [acceptNext_expected]
  split
  · rw [Std.TreeMap.size_insert, if_neg (mt Std.TreeMap.contains_iff_mem.mp fresh)]
  · rfl

theorem tracks_accept (h : Tracks p k s) (may : s.mayIssue p = true)
    (fresh : (p.access s.next).addr ∉ s.expected) :
    Tracks p (k.accept (p.access s.next) (SmokeSetup.data (p.access s.next))) (s.acceptNext p) := by
  have hsize := size_acceptNext fresh
  constructor
  · intro a
    apply Course.pairedAt_accept (h.paired a)
    rintro - rfl
    rw [(h.paired _).queueAt_eq_nil_iff, h.outstanding, if_neg fresh]
  · intro a
    rw [Course.accept_bridge, (k.bridge.work_accept _ _).count_eq, List.count_cons, h.outstanding]
    simp only [mem_acceptNext_iff, Access.key, beq_iff_eq, Prod.mk.injEq]
    by_cases ha : (p.access s.next).addr = a
    · subst ha
      simp [fresh]
    · simp [ha]
  · rw [hsize, Course.accept_delivered, Course.accept_accepted, List.countP_append,
      List.countP_singleton, ← h.balance]
    simp only [decide_eq_true_eq]
    omega
  · rw [acceptNext_counts]
    exact h.unmatched
  · rw [Course.accept_bridge, Bridge.accept_counts]
    exact h.correlated
  · have hlt := size_lt_of_mayIssue may
    rw [hsize]
    split <;> omega
  · intro a ha
    rw [acceptNext_next]
    rcases (mem_acceptNext_iff a).mp ha with ha | ⟨haddr, hkind⟩
    · obtain ⟨i, hi, hissued⟩ := h.issued a ha
      exact ⟨i, Nat.lt_succ_of_lt hi, hissued⟩
    · exact ⟨s.next, Nat.lt_succ_self _, hkind, haddr⟩

/-- Where nothing is expected, no read is under way. -/
theorem Tracks.no_reads_under_way (h : Tracks p k s) (hnone : s.expected.isEmpty = true) :
    (∀ r ∈ k.bridge.frontend.pending, r.kind ≠ .read) ∧
      (∀ f ∈ k.bridge.engine.inFlight, f.request.kind ≠ .read) ∧
        k.bridge.replies.waiting = [] := by
  have hwork : ∀ a, (a, .read) ∉ k.bridge.work := by
    intro a
    rw [← List.count_eq_zero, h.outstanding, if_neg (Std.TreeMap.not_mem_of_isEmpty hnone)]
  have hplaces := fun a => mt (k.bridge.mem_work_iff a .read).mpr (hwork a)
  refine ⟨?_, ?_, ?_⟩
  · exact fun r hr hk => hplaces r.addr (.inl ⟨r, hr, rfl, hk⟩)
  · exact fun f hf hk => hplaces f.request.addr (.inr (.inl ⟨f, hf, rfl, hk⟩))
  · apply List.eq_nil_iff_forall_not_mem.mpr
    exact fun r hr => hplaces r.addr (.inr (.inr ⟨rfl, r, hr, rfl⟩))

variable [LatencyModel σ]

theorem tracks_advance (h : Tracks p k s) (hc : k.Conserved) : Tracks p k.advance s.advance := by
  refine ⟨?_, ?_, h.balance, h.unmatched, ?_, h.size_le, h.issued⟩
  · exact fun a => Course.pairedAt_advance hc (h.paired a)
  · intro a
    have hwork := (Bridge.advance_work hc).count_eq (a, .read)
    rw [List.count_append, count_writes, if_neg (by decide), Nat.zero_add] at hwork
    rw [Course.advance_bridge, ← hwork]
    exact h.outstanding a
  · rw [Course.advance_bridge, Bridge.advance_counts]
    exact h.correlated

/-- The setup and the rule see to it that no access is accepted where a read is outstanding: the
pattern does not go where a read went before, one read at most may be outstanding, or the ledger
turns overlaps away. -/
def KeepsApart (p : SmokeSetup) (rule : OverlapRule) : Prop :=
  p.LeavesReads ∨ p.maxInFlight ≤ 1 ∨ rule = .reject

theorem Tracks.fresh {b : Bridge σ} (hb : b.IsNew) (ha : KeepsApart p b.ledger.rule)
    (hpoint : Along p b k s) (h : Tracks p k s) (may : s.mayIssue p = true)
    (allowed : k.bridge.ledger.allows (p.access s.next).addr) :
    (p.access s.next).addr ∉ s.expected := by
  intro hmem
  rcases ha with hleaves | hone | hr
  · obtain ⟨i, hi, hkind, haddr⟩ := h.issued _ hmem
    exact hleaves i s.next hi (next_lt_of_mayIssue may) hkind haddr.symm
  · have hpos := size_pos_of_mem hmem
    have hlt := size_lt_of_mayIssue may
    omega
  · obtain ⟨calls, rfl⟩ := hpoint.exists_calls
    have hclosed : (b.course calls).bridge.ledger.allows (p.access s.next).addr = false := by
      rw [Bridge.course_bridge, Bridge.allows_eq_false_iff hb hr, ← Bridge.course_bridge]
      refine ⟨((p.access s.next).addr, .read), ?_, rfl⟩
      rw [← List.count_pos_iff, h.outstanding, if_pos hmem]
      exact Nat.one_pos
    rw [hclosed] at allowed
    exact absurd allowed (by decide)

theorem Along.tracks {b : Bridge σ} (hb : b.IsNew) (ha : KeepsApart p b.ledger.rule)
    (h : Along p b k s) : Tracks p k s := by
  induction h with
  | start => exact tracks_start hb
  | step h next ih =>
      cases next with
      | receive d b drained => exact tracks_receive ih (Bridge.drains_of_drain? drained)
      | accept may allowed room => exact tracks_accept ih may (ih.fresh hb ha h may allowed)
      | refuse verdict overlaps full one turnsAway =>
          exact ⟨ih.paired, ih.outstanding, ih.balance, ih.unmatched, ih.correlated, ih.size_le,
            ih.issued⟩
      | advance => exact tracks_advance ih (h.conserved hb)
      | stalled =>
          exact ⟨ih.paired, ih.outstanding, ih.balance, ih.unmatched, ih.correlated, ih.size_le,
            ih.issued⟩

/-- No more reads are outstanding than the setup allows. -/
theorem Along.outstanding_le {b : Bridge σ} (hb : b.IsNew) (ha : KeepsApart p b.ledger.rule)
    (h : Along p b k s) :
    s.bridge.counts.repliesDrained ≤ s.bridge.counts.readsAccepted ∧
      s.bridge.counts.readsAccepted ≤ s.bridge.counts.repliesDrained + p.maxInFlight := by
  have htallied := h.tallied hb
  have hbalance := (h.tracks hb ha).balance
  have hsize := (h.tracks hb ha).size_le
  rw [h.bridge_eq, htallied.readsAccepted, htallied.drained]
  omega

/-- A run that reports to be finished got all its accesses accepted. Where reads of one address are
kept apart, it also got the right reply for each of its reads, and nothing of them is left in the
bridge: none waits in the frontend, none is in flight, and no reply was left behind. -/
theorem finished_run_is_complete {c : Settings} {b : Bridge Controller} (h : c.build = .ok b)
    {p : SmokeSetup} (hp : p.Fits) {n : Nat}
    (hfinished : (SmokeResult.ofBridge p b).finishedAt = some n) :
    let r := SmokeResult.ofBridge p b
    let last := (ofBridge p b).2.bridge
    r.counts.accepted = p.requests ∧
    (p.stride ≠ 0 ∨ p.requests ≤ 2 ∨ p.maxInFlight ≤ 1 ∨ c.bridge.overlapRule = .reject →
      r.counts.readsCompleted = r.counts.readsIssued ∧ r.counts.unmatched = 0 ∧
        (∀ q ∈ last.frontend.pending, q.kind ≠ .read) ∧
        (∀ f ∈ last.engine.inFlight, f.request.kind ≠ .read) ∧ last.replies.waiting = []) := by
  obtain ⟨hb, -, hrule⟩ := c.isNew_of_build h
  obtain ⟨k, hend⟩ := passes_ofBridge p b
  have hagrees := hend.agrees hb
  obtain ⟨hnext, hnone⟩ := of_decide_eq_true (isFinished_of_ofBridge hfinished)
  refine ⟨hagrees.accepted.trans hnext, ?_⟩
  intro happart
  have hkeeps : KeepsApart p b.ledger.rule := by
    rcases happart with hs | hshort | hone | hr
    · exact .inl (SmokeSetup.leavesReads_of_stride hp hs)
    · exact .inl (SmokeSetup.leavesReads_of_short hshort)
    · exact .inr (.inl hone)
    · exact .inr (.inr (hrule.trans hr))
  have htracks := hend.tracks hb hkeeps
  have hcompleted : (ofBridge p b).2.counts.readsCompleted = (ofBridge p b).2.counts.readsIssued := by
    have hbalance := htracks.balance
    have hsum := hagrees.completed
    have hissued := hagrees.issued
    have hunmatched := htracks.unmatched
    rw [Std.TreeMap.isEmpty_eq_size_eq_zero, beq_iff_eq] at hnone
    omega
  refine ⟨hcompleted, htracks.unmatched, ?_⟩
  rw [hend.bridge_eq]
  exact htracks.no_reads_under_way hnone

/-- Settings that drive both sides in every cycle. An access takes three of them. -/
def brisk (rule : OverlapRule) : Settings :=
  { frontend := { clockRatio := 1 }
    memory := { clockRatio := 1, latency := 3 }
    bridge := { overlapRule := rule } }

/-- Two lines of the pattern, under the overwrite rule. -/
theorem finished_run_is_complete_lines :
    let c := brisk .overwrite
    let p : SmokeSetup := { requests := 3 }
    p.Fits ∧ p.stride ≠ 0 ∧ ∃ b, c.build = .ok b ∧
      (SmokeResult.ofBridge p b).finishedAt = some 6 ∧
      (SmokeResult.ofBridge p b).counts.accepted = 3 ∧
      (SmokeResult.ofBridge p b).counts.readsCompleted =
        (SmokeResult.ofBridge p b).counts.readsIssued ∧
      (ofBridge p b).2.bridge.replies.waiting = [] := by
  intro c p
  have hp : p.Fits := by decide
  have hs : p.stride ≠ 0 := by decide
  obtain ⟨b, hb, hfinished⟩ :
      ∃ b, c.build = .ok b ∧ (SmokeResult.ofBridge p b).finishedAt = some 6 := by
    refine ⟨_, rfl, ?_⟩
    decide
  obtain ⟨haccepted, hreads⟩ := finished_run_is_complete hb hp hfinished
  obtain ⟨hcompleted, -, -, -, hnone⟩ := hreads (.inl hs)
  exact ⟨hp, hs, b, hb, hfinished, haccepted, hcompleted, hnone⟩

/-- With a stride of zero, two reads of one address are outstanding at once. The reply of the first
is taken for that of the second, and the run reports to be finished with a reply left behind. -/
theorem finished_with_read_outstanding :
    let c := brisk .track
    let p : SmokeSetup := { requests := 3, stride := 0 }
    p.Fits ∧ ∃ b, c.build = .ok b ∧
      (SmokeResult.ofBridge p b).finishedAt = some 5 ∧
      (SmokeResult.ofBridge p b).counts.readsIssued = 2 ∧
      (SmokeResult.ofBridge p b).counts.readsCompleted = 1 ∧
      (ofBridge p b).2.bridge.replies.waiting = [⟨0, SmokeSetup.dataFor 0⟩] := by
  refine ⟨by decide, _, rfl, ?_, ?_, ?_, ?_⟩
  · decide
  · decide
  · decide
  · decide

/-- The counters of a run and those in the report of its bridge say the same, and the run counts on
with each accepted access. With a positive stride, no reply misses its read in the bridge, and after
each cycle the reads that were accepted and not drained are as many as may be outstanding at most. -/
theorem run_counts_as_bridge {c : Settings} {b : Bridge Controller} (h : c.build = .ok b)
    (p : SmokeSetup) :
    let r := SmokeResult.ofBridge p b
    r.counts.accepted = r.report.bridge.accepted ∧
    r.counts.rejected = r.report.bridge.rejections ∧
    r.counts.readsIssued = r.report.bridge.readsAccepted ∧
    r.counts.readsCompleted + r.counts.unmatched = r.report.bridge.repliesDrained ∧
    r.next = r.counts.accepted ∧ r.next ≤ p.requests ∧
    (p.Fits → p.stride ≠ 0 →
      r.report.bridge.repliesUnmatched = 0 ∧
        ∀ o ∈ made p p.maxCycles (start p b),
          let counts := o.2.bridge.counts
          counts.repliesDrained ≤ counts.readsAccepted ∧
            counts.readsAccepted ≤ counts.repliesDrained + p.maxInFlight) := by
  obtain ⟨hb, -, -⟩ := c.isNew_of_build h
  obtain ⟨k, hend⟩ := passes_ofBridge p b
  obtain ⟨haccepted, hrejected, hissued, hdrained⟩ := hend.counts_eq hb
  have hagrees := hend.agrees hb
  refine ⟨haccepted, hrejected, hissued, hdrained, hagrees.accepted.symm, hagrees.next_le, ?_⟩
  intro hp hs
  have hkeeps : KeepsApart p b.ledger.rule := .inl (SmokeSetup.leavesReads_of_stride hp hs)
  constructor
  · change (ofBridge p b).2.bridge.counts.repliesUnmatched = 0
    rw [hend.bridge_eq]
    exact (hend.tracks hb hkeeps).correlated
  · intro o ho
    obtain ⟨k, hpoint⟩ := passes_of_made passes_start ho
    exact hpoint.outstanding_le hb hkeeps

/-- A run with the default settings and a few accesses, under the overwrite rule. -/
theorem run_counts_as_bridge_default :
    let c : Settings := {}
    let p : SmokeSetup := { requests := 9 }
    p.Fits ∧ p.stride ≠ 0 ∧ ∃ b, c.build = .ok b ∧ b.ledger.rule = .overwrite ∧
      (SmokeResult.ofBridge p b).counts.accepted =
        (SmokeResult.ofBridge p b).report.bridge.accepted ∧
      (SmokeResult.ofBridge p b).report.bridge.repliesUnmatched = 0 := by
  intro c p
  have hp : p.Fits := by decide
  have hs : p.stride ≠ 0 := by decide
  obtain ⟨b, hb, hr⟩ : ∃ b, c.build = .ok b ∧ b.ledger.rule = .overwrite := ⟨_, rfl, rfl⟩
  obtain ⟨haccepted, -, -, -, -, -, hmatched⟩ := run_counts_as_bridge hb p
  exact ⟨hp, hs, b, hb, hr, haccepted, (hmatched hp hs).1⟩

end CycleBridge.SmokeRun
