import CycleBridge.Proofs.Smoke.Course
import CycleBridge.Settings.Build
import CycleBridge.Smoke.Result

/-!
# The books of a smoke run

A smoke run keeps counters of its own and a memory of what it wrote. Its counters say what those of
its bridge say, the accesses that the bridge accepted are the first ones of the pattern, in order,
and the run's own memory holds what they wrote.
-/

namespace CycleBridge

theorem Bridge.parts_of_assemble {σ : Type} {frontend : Frontend} {engine : Engine σ}
    {rule : OverlapRule} {b : Bridge σ} (h : assemble frontend engine rule = .ok b) :
    b.frontend = frontend ∧ b.ledger.rule = rule := by
  unfold assemble at h
  cases hc : DualClock.start frontend.ratio engine.ratio with
  | error side => simp [hc, bind, Except.bind] at h
  | ok clock =>
      simp only [hc, bind, Except.bind, pure, Except.pure, Except.ok.injEq] at h
      rw [← h]
      exact ⟨rfl, rfl⟩

/-- The bridge that settings ask for is new, its frontend has room, and its rule is the one asked
for. -/
theorem Settings.isNew_of_build {c : Settings} {b : Bridge Controller} (h : c.build = .ok b) :
    b.IsNew ∧ 0 < b.frontend.depth ∧ b.ledger.rule = c.bridge.overlapRule := by
  rw [build] at h
  split at h
  · exact absurd h (by simp)
  · next hdepth =>
      split at h
      · exact absurd h (by simp)
      · cases ha : Bridge.assemble c.newFrontend c.newEngine c.bridge.overlapRule with
        | error side => simp [Bridge.ofSides, ha, Except.mapError] at h
        | ok b' =>
            simp only [Bridge.ofSides, ha, Except.mapError, Except.ok.injEq] at h
            subst h
            obtain ⟨hfrontend, hrule⟩ := Bridge.parts_of_assemble ha
            refine ⟨⟨_, _, _, _, _, _, ha⟩, ?_, hrule⟩
            rw [hfrontend]
            apply Nat.pos_of_ne_zero
            intro hzero
            exact hdepth (UInt64.toNat_inj.mp hzero)

namespace SmokeRun

variable {σ : Type} {p : SmokeSetup} {k : Course σ} {s : SmokeRun σ}

/-- The books of a run agree with the record of its bridge. -/
structure Agrees (p : SmokeSetup) (k : Course σ) (s : SmokeRun σ) : Prop where
  pattern : k.accepted.map (fun t => (t.access, t.data)) =
    (List.range s.next).map fun i => (p.access i, SmokeSetup.data (p.access i))
  next_le : s.next ≤ p.requests
  accepted : s.counts.accepted = s.next
  rejected : s.counts.rejected = k.bridge.counts.rejections
  issued : s.counts.readsIssued = k.accepted.countP (·.access.kind = .read)
  completed : s.counts.readsCompleted + s.counts.unmatched = k.delivered.length
  written : ∀ a, s.written.read a = Submission.lastWritten k.accepted a

theorem agrees_start {b : Bridge σ} (hb : b.IsNew) : Agrees p { bridge := b } (start p b) := by
  obtain ⟨clock, ratio, ratio', depth, capacity, model, rule, rfl⟩ := hb.exists_eq
  exact ⟨rfl, Nat.zero_le _, rfl, rfl, rfl, rfl, Memory.read_empty⟩

theorem next_lt_of_mayIssue (h : s.mayIssue p = true) : s.next < p.requests :=
  (of_decide_eq_true h).1

theorem size_lt_of_mayIssue (h : s.mayIssue p = true) : s.expected.size < p.maxInFlight :=
  (of_decide_eq_true h).2

theorem agrees_receive (h : Agrees p k s) {d : Delivery} {b : Bridge σ}
    (drains : k.bridge.Drains d b) : Agrees p (k.drain d b) (s.receive d b) := by
  have hrejections : b.counts.rejections = k.bridge.counts.rejections := by
    rw [drains.counts]
    cases d.latency <;> rfl
  obtain ⟨haccepted, hrejected, hissued, hcompleted⟩ := s.receive_counts d b
  constructor
  · rw [receive_next]
    exact h.pattern
  · rw [receive_next]
    exact h.next_le
  · rw [haccepted, receive_next, h.accepted]
  · rw [hrejected, h.rejected, Course.drain_bridge, hrejections]
  · rw [hissued]
    exact h.issued
  · rw [hcompleted, h.completed, Course.drain_delivered, List.length_append, List.length_singleton]
  · rw [receive_written]
    exact h.written

theorem agrees_accept (h : Agrees p k s) (may : s.mayIssue p = true) :
    Agrees p (k.accept (p.access s.next) (SmokeSetup.data (p.access s.next))) (s.acceptNext p) := by
  have hcounts := s.acceptNext_counts p
  constructor
  · rw [Course.accept_accepted, List.map_append, h.pattern, acceptNext_next, List.range_succ,
      List.map_append]
    rfl
  · rw [acceptNext_next]
    exact next_lt_of_mayIssue may
  · rw [hcounts, acceptNext_next, h.accepted]
  · rw [hcounts, Course.accept_bridge, Bridge.accept_counts]
    exact h.rejected
  · rw [hcounts, Course.accept_accepted, List.countP_append, List.countP_singleton, h.issued]
    simp only [decide_eq_true_eq]
  · rw [hcounts]
    exact h.completed
  · intro a
    rw [Course.accept_accepted, Submission.lastWritten_snoc, acceptNext_written, ← h.written]
    by_cases hk : (p.access s.next).kind = .write
    · simp [hk, Memory.read_write, eq_comm]
    · simp [hk]

theorem agrees_refuse (h : Agrees p k s) {overlaps full : Nat} (one : overlaps + full = 1)
    (verdict : Verdict) :
    Agrees p (k.addRefusals overlaps full)
      (s.refuseNext p (k.bridge.addRefusals overlaps full) verdict) := by
  have hrejected : s.counts.rejected + 1 = k.bridge.counts.rejections + (overlaps + full) := by
    rw [h.rejected, one]
  exact ⟨h.pattern, h.next_le, h.accepted, hrejected, h.issued, h.completed, h.written⟩

variable [LatencyModel σ]

theorem agrees_advance (h : Agrees p k s) : Agrees p k.advance s.advance := by
  have hrejected : s.counts.rejected = k.bridge.advance.bridge.counts.rejections := by
    rw [h.rejected, Bridge.advance_counts]
  exact ⟨h.pattern, h.next_le, h.accepted, hrejected, h.issued, h.completed, h.written⟩

theorem agrees_step {k' : Course σ} {s' : SmokeRun σ} (h : Agrees p k s)
    (hs : Step p k s k' s') : Agrees p k' s' := by
  cases hs with
  | receive d b drained => exact agrees_receive h (Bridge.drains_of_drain? drained)
  | accept may allowed room => exact agrees_accept h may
  | refuse verdict overlaps full one turnsAway => exact agrees_refuse h one verdict
  | advance => exact agrees_advance h
  | stalled =>
      exact ⟨h.pattern, h.next_le, h.accepted, h.rejected, h.issued, h.completed, h.written⟩

theorem Along.agrees {b : Bridge σ} (hb : b.IsNew) (h : Along p b k s) : Agrees p k s := by
  induction h with
  | start => exact agrees_start hb
  | step h next ih => exact agrees_step ih next

/-- The counters of a run are those of its bridge. -/
theorem Along.counts_eq {b : Bridge σ} (hb : b.IsNew) (h : Along p b k s) :
    s.counts.accepted = s.bridge.counts.accepted ∧
      s.counts.rejected = s.bridge.counts.rejections ∧
      s.counts.readsIssued = s.bridge.counts.readsAccepted ∧
      s.counts.readsCompleted + s.counts.unmatched = s.bridge.counts.repliesDrained := by
  have hagrees := h.agrees hb
  have htallied := h.tallied hb
  have hlength := congrArg List.length hagrees.pattern
  rw [List.length_map, List.length_map, List.length_range] at hlength
  rw [h.bridge_eq]
  refine ⟨?_, hagrees.rejected, ?_, ?_⟩
  · rw [BridgeCounts.accepted, htallied.readsAccepted, htallied.writesAccepted,
      Submission.countP_kinds, hlength, hagrees.accepted]
  · rw [hagrees.issued, htallied.readsAccepted]
  · rw [hagrees.completed, htallied.drained]

section Progress

theorem Step.next_le {k' : Course σ} {s' : SmokeRun σ} (h : Step p k s k' s') :
    s.next ≤ s'.next := by
  cases h with
  | receive d b drained => rw [receive_next]
  | accept may allowed room => simp
  | refuse verdict overlaps full one turnsAway => exact Nat.le_refl _
  | advance => exact Nat.le_refl _
  | stalled => exact Nat.le_refl _

theorem next_le_issue (p : SmokeSetup) (s : SmokeRun σ) : s.next ≤ (s.issue p).2.next := by
  by_cases may : s.mayIssue p = true
  · obtain ⟨k', hstep⟩ := issue_step (k := { bridge := s.bridge }) rfl may
    exact hstep.next_le
  · rw [issue, if_neg may]

theorem next_le_cycle (p : SmokeSetup) (s : SmokeRun σ) : s.next ≤ (s.cycle p).2.next := by
  have hissue := next_le_issue p s.collect
  rwa [collect, collectUpTo_next] at hissue

theorem next_le_cycles (p : SmokeSetup) (left done : Nat) (s : SmokeRun σ) :
    s.next ≤ (cycles p left done s).2.next := by
  induction left generalizing done s with
  | zero => exact Nat.le_refl _
  | succ left ih =>
      have hcycle := next_le_cycle p s
      rw [cycles]
      split
      · exact hcycle
      · split
        · exact hcycle
        · exact hcycle.trans (ih ..)

/-- The first cycle of a run gets an access accepted, if there is one and it may be submitted. -/
theorem next_cycle_start {b : Bridge σ} (hb : b.IsNew) (room : 0 < b.frontend.depth)
    (hrequests : 0 < p.requests) (hmax : 0 < p.maxInFlight) :
    ((start p b).cycle p).2.next = 1 := by
  have hempty : b.replies.size = 0 ∧ (∀ a, b.ledger.allows a = true) ∧
      b.frontend.pending.length = 0 := by
    obtain ⟨clock, ratio, ratio', depth, capacity, model, rule, rfl⟩ := hb.exists_eq
    exact ⟨rfl, fun a => decide_eq_true (.inr rfl), rfl⟩
  obtain ⟨hreplies, hallows, hpending⟩ := hempty
  have hcollect : (start p b).collect = start p b := by
    change (start p b).collectUpTo b.replies.size = start p b
    rw [hreplies]
    rfl
  have may : (start p b).mayIssue p = true := decide_eq_true ⟨hrequests, hmax⟩
  have hissue := issue_of_room may (hallows _) (hpending.trans_lt room)
  change ((start p b).collect.issue p).2.next = 1
  rw [hcollect, hissue, acceptNext_next]
  rfl

theorem Along.next_eq_zero {b : Bridge σ} (hmax : p.maxInFlight = 0) (h : Along p b k s) :
    s.next = 0 := by
  induction h with
  | start => rfl
  | step h next ih =>
      cases next with
      | receive d b drained => rw [receive_next, ih]
      | accept may allowed room =>
          have hlt := size_lt_of_mayIssue may
          omega
      | refuse verdict overlaps full one turnsAway => exact ih
      | advance => exact ih
      | stalled => exact ih

/-- A run on a bridge with room gets an access accepted exactly if it has one to submit, a cycle to
submit it in, and may have a read outstanding. -/
theorem next_ofBridge_pos_iff {b : Bridge σ} (hb : b.IsNew) (room : 0 < b.frontend.depth) :
    0 < (ofBridge p b).2.next ↔ 0 < p.requests ∧ 0 < p.maxCycles ∧ 0 < p.maxInFlight := by
  obtain ⟨k, h⟩ := passes_ofBridge p b
  constructor
  · intro hpos
    refine ⟨Nat.lt_of_lt_of_le hpos (h.agrees hb).next_le, ?_, ?_⟩
    · apply Nat.pos_of_ne_zero
      intro hzero
      rw [ofBridge, hzero] at hpos
      exact absurd hpos (Nat.lt_irrefl 0)
    · apply Nat.pos_of_ne_zero
      intro hzero
      rw [h.next_eq_zero hzero] at hpos
      exact absurd hpos (Nat.lt_irrefl 0)
  · rintro ⟨hrequests, hcycles, hmax⟩
    have hfirst := next_cycle_start hb room hrequests hmax
    obtain ⟨left, hleft⟩ := Nat.exists_eq_succ_of_ne_zero hcycles.ne'
    rw [ofBridge_eq, hleft, cycles]
    split
    · rw [hfirst]
      exact Nat.one_pos
    · split
      · exact hfirst.ge
      · exact Nat.lt_of_lt_of_le hfirst.ge (next_le_cycles ..)

end Progress

end SmokeRun

end CycleBridge
