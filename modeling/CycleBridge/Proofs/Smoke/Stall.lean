import CycleBridge.Proofs.Course.Log
import CycleBridge.Proofs.Smoke.Outstanding
import Mathlib.Data.List.DropRight
import Mathlib.Order.Bounds.Basic

/-!
# Stalled smoke runs

A smoke run stops when it has counted too many refused submissions. A cycle that submits nothing
leaves the count as it is, so the count might hold refusals that do not follow on one another. It
never does: what a refusal leaves behind, `Retries`, is a run that may submit again, and nothing
takes that back before the next submission, since draining only takes values off the expected ones.
So the count is the number of cycles in a row, up to the last one, that each had their submission
refused.
-/

namespace CycleBridge.SmokeRun

variable {σ : Type}

/-- A submission was made and turned away. -/
def Refused (verdict : Option Verdict) : Prop := ∃ v ∈ verdict, v ≠ .accepted

instance (verdict : Option Verdict) : Decidable (Refused verdict) :=
  inferInstanceAs (Decidable (∃ v ∈ verdict, v ≠ .accepted))

/-- There are `m` cycles at least, and the last `m` of them all had their submission refused. -/
def EndsRefused (m : Nat) (cycles : List (Option Verdict × SmokeRun σ)) : Prop :=
  m ≤ cycles.length ∧ ∀ o ∈ cycles.rtake m, Refused o.1

instance (m : Nat) (cycles : List (Option Verdict × SmokeRun σ)) :
    Decidable (EndsRefused m cycles) :=
  inferInstanceAs (Decidable (m ≤ cycles.length ∧ ∀ o ∈ cycles.rtake m, Refused o.1))

theorem endsRefused_zero (cycles : List (Option Verdict × SmokeRun σ)) : EndsRefused 0 cycles := by
  refine ⟨Nat.zero_le _, ?_⟩
  rw [List.rtake_zero]
  exact List.forall_mem_nil _

theorem not_endsRefused_nil (m : Nat) :
    ¬ EndsRefused (m + 1) ([] : List (Option Verdict × SmokeRun σ)) :=
  fun h => absurd h.1 (Nat.not_succ_le_zero m)

theorem endsRefused_snoc {m : Nat} {cycles : List (Option Verdict × SmokeRun σ)}
    {o : Option Verdict × SmokeRun σ} :
    EndsRefused (m + 1) (cycles ++ [o]) ↔ EndsRefused m cycles ∧ Refused o.1 := by
  simp only [EndsRefused, List.rtake_concat_succ, List.length_append, List.length_singleton,
    Nat.add_le_add_iff_right, List.forall_mem_append, List.forall_mem_singleton, and_assoc]

variable {p : SmokeSetup} {s : SmokeRun σ}

/-- After a refusal the run may submit again. -/
def Retries (p : SmokeSetup) (s : SmokeRun σ) : Prop := 0 < s.stall → s.mayIssue p = true

section Retries

theorem retries_start (p : SmokeSetup) (b : Bridge σ) : Retries p (start p b) :=
  fun hpos => absurd hpos (Nat.lt_irrefl 0)

theorem size_receive_le (s : SmokeRun σ) (d : Delivery) (b : Bridge σ) :
    (s.receive d b).expected.size ≤ s.expected.size := by
  by_cases hd : d.reply.addr ∈ s.expected
  · rw [(s.receive_of_expected d b (Std.TreeMap.getElem?_eq_some_getElem hd)).1]
    exact Std.TreeMap.size_erase_le
  · rw [(s.receive_of_unexpected d b hd).1]

theorem retries_receive (h : Retries p s) (d : Delivery) (b : Bridge σ) :
    Retries p (s.receive d b) := by
  intro hpos
  rw [receive_stall] at hpos
  have may := h hpos
  apply decide_eq_true
  constructor
  · rw [receive_next]
    exact next_lt_of_mayIssue may
  · exact (size_receive_le s d b).trans_lt (size_lt_of_mayIssue may)

theorem retries_collectUpTo (h : Retries p s) (n : Nat) : Retries p (s.collectUpTo n) :=
  collectUpTo_induction (P := Retries p) (fun _ d b _ h => retries_receive h d b) h n

theorem retries_issue (h : Retries p s) : Retries p (s.issue p).2 := by
  obtain ⟨-, hissue⟩ | ⟨-, hissue⟩ | ⟨verdict, b, may, -, hissue⟩ := issue_cases p s
  · rw [hissue]
    exact h
  · rw [hissue]
    intro hpos
    rw [acceptNext_stall] at hpos
    exact absurd hpos (Nat.lt_irrefl 0)
  · -- a refusal leaves the next access and the expected values as they were
    rw [hissue]
    exact fun _ => may

theorem retries_cycle [LatencyModel σ] (h : Retries p s) : Retries p (s.cycle p).2 :=
  retries_issue (retries_collectUpTo h s.bridge.replies.size)

theorem Retries.isFinished_eq_false (h : Retries p s) (stalled : s.isStalled p = true) :
    s.isFinished p = false := by
  have hlimit : p.stallLimit < s.stall := of_decide_eq_true stalled
  have hnext := next_lt_of_mayIssue (h (Nat.zero_lt_of_lt hlimit))
  exact decide_eq_false (fun hfinished => absurd hfinished.1 hnext.ne)

end Retries

section Counting

/-- A refusal is counted, and all else starts the count over: where nothing is submitted, the count
stands at zero already. -/
theorem issue_stall (h : Retries p s) :
    (s.issue p).2.stall = if Refused (s.issue p).1 then s.stall + 1 else 0 := by
  obtain ⟨may, hissue⟩ | ⟨-, hissue⟩ | ⟨verdict, b, -, refused, hissue⟩ := issue_cases p s
  · have hzero : s.stall = 0 := by
      by_contra hne
      rw [h (Nat.pos_of_ne_zero hne)] at may
      exact absurd may (by decide)
    simp [hissue, Refused, hzero]
  · simp [hissue, Refused]
  · simp [hissue, Refused, refused, refuseNext, noteRefused, report]

/-- A cycle counts on if its submission was refused, and starts over if not. -/
theorem cycle_stall [LatencyModel σ] (h : Retries p s) :
    (s.cycle p).2.stall = if Refused (s.cycle p).1 then s.stall + 1 else 0 :=
  calc
    (s.cycle p).2.stall = (s.collect.issue p).2.stall := rfl
    _ = if Refused (s.collect.issue p).1 then s.collect.stall + 1 else 0 :=
      issue_stall (retries_collectUpTo h s.bridge.replies.size)
    _ = if Refused (s.cycle p).1 then s.stall + 1 else 0 := by
      rw [collect, collectUpTo_stall]
      rfl

/-- The refusals that a run counts are the refused cycles in a row behind it. -/
structure CountsRefusals (p : SmokeSetup) (past : List (Option Verdict × SmokeRun σ))
    (s : SmokeRun σ) : Prop where
  retries : Retries p s
  counted : ∀ m, EndsRefused m past ↔ m ≤ s.stall

theorem countsRefusals_start (p : SmokeSetup) (b : Bridge σ) :
    CountsRefusals p [] (start p b) where
  retries := retries_start p b
  counted m := by
    cases m with
    | zero => exact iff_of_true (endsRefused_zero _) (Nat.zero_le _)
    | succ m => exact iff_of_false (not_endsRefused_nil m) (Nat.not_succ_le_zero m)

variable {past : List (Option Verdict × SmokeRun σ)} {o : Option Verdict × SmokeRun σ}

theorem CountsRefusals.isGreatest (h : CountsRefusals p past s) :
    IsGreatest {m | EndsRefused m past} s.stall :=
  ⟨(h.counted _).mpr (Nat.le_refl _), fun m hm => (h.counted m).mp hm⟩

theorem CountsRefusals.isStalled_iff (h : CountsRefusals p past s) :
    s.isStalled p = true ↔ EndsRefused (p.stallLimit + 1) past := by
  rw [h.counted, isStalled, decide_eq_true_iff]
  rfl

variable [LatencyModel σ] {b : Bridge σ}

theorem CountsRefusals.cycle (h : CountsRefusals p past s) :
    CountsRefusals p (past ++ [s.cycle p]) (s.cycle p).2 := by
  refine ⟨retries_cycle h.retries, ?_⟩
  intro m
  cases m with
  | zero => exact iff_of_true (endsRefused_zero _) (Nat.zero_le _)
  | succ m =>
      rw [endsRefused_snoc, h.counted, cycle_stall h.retries]
      split
      · next refused => simp [refused]
      · next passed => simp [passed]

theorem countsRefusals_of_made (ho : past ++ [o] <+: made p p.maxCycles (start p b)) :
    CountsRefusals p (past ++ [o]) o.2 :=
  made_induction (fun _ _ h => h.cycle) [] (countsRefusals_start p b) ho

/-- A run goes no further than one refusal beyond its limit. -/
theorem stall_le_of_made (ho : past ++ [o] <+: made p p.maxCycles (start p b)) :
    o.2.stall ≤ p.stallLimit + 1 := by
  by_contra hgt
  have hmany : EndsRefused (p.stallLimit + 1 + 1) (past ++ [o]) :=
    ((countsRefusals_of_made ho).counted _).mpr (Nat.lt_of_not_le hgt)
  have hbefore := (endsRefused_snoc.mp hmany).1
  rcases List.eq_nil_or_concat' past with rfl | ⟨older, last, rfl⟩
  · exact not_endsRefused_nil _ hbefore
  · -- the cycle before left the run stalled, so no other followed it
    have hlast := (List.prefix_append (older ++ [last]) [o]).trans ho
    have hstalled := (countsRefusals_of_made hlast).isStalled_iff.mpr hbefore
    rw [made_eq_of_ended hlast (.inr hstalled)] at ho
    have hlength := ho.length_le
    simp at hlength

theorem stall_eq_of_stalled (ho : past ++ [o] <+: made p p.maxCycles (start p b))
    (stalled : o.2.isStalled p = true) : o.2.stall = p.stallLimit + 1 :=
  Nat.le_antisymm (stall_le_of_made ho) (of_decide_eq_true stalled)

end Counting

/-- The run has not reported that it stalled. -/
def Quiet (s : SmokeRun σ) : Prop := ∀ n, .smokeStalled n ∉ s.events

section Reports

theorem quiet_start (p : SmokeSetup) (b : Bridge σ) : Quiet (start p b) := by
  intro n hn
  simp [start] at hn

theorem quiet_report (h : Quiet s) {e : Event} (he : ∀ n, e ≠ .smokeStalled n) :
    Quiet (s.report e) := by
  intro n hn
  rcases Array.mem_push.mp hn with hn | hn
  · exact h n hn
  · exact he n hn.symm

theorem quiet_receive (h : Quiet s) (d : Delivery) (b : Bridge σ) : Quiet (s.receive d b) := by
  have hdrained : Quiet ({ s with bridge := b }.report d.event) := by
    apply quiet_report h
    intro n
    rw [Delivery.event]
    split <;> exact Event.noConfusion
  rw [receive, check]
  split
  · exact quiet_report hdrained (fun _ => Event.noConfusion)
  · split
    · exact hdrained
    · exact quiet_report hdrained (fun _ => Event.noConfusion)

theorem quiet_collectUpTo (h : Quiet s) (n : Nat) : Quiet (s.collectUpTo n) :=
  collectUpTo_induction (P := Quiet) (fun _ d b _ h => quiet_receive h d b) h n

theorem quiet_issue (h : Quiet s) (p : SmokeSetup) : Quiet (s.issue p).2 := by
  obtain ⟨-, hissue⟩ | ⟨-, hissue⟩ | ⟨verdict, b, -, -, hissue⟩ := issue_cases p s
  · rw [hissue]
    exact h
  · have hevents : (s.acceptNext p).events =
        (s.report (.accepted (p.access s.next) s.bridge.cycle)).events := by
      simp only [acceptNext, noteAccepted, report]
      split <;> rfl
    rw [hissue, Quiet, hevents]
    exact quiet_report h (fun _ => Event.noConfusion)
  · rw [hissue]
    apply quiet_report h
    intro n
    cases verdict <;> exact Event.noConfusion

/-- A run reports that it stalled if its last cycle leaves it stalled and not finished. -/
theorem mem_ending_iff (h : Quiet s) (done n : Nat) :
    .smokeStalled n ∈ (s.ending p done).2.events ↔
      s.isFinished p = false ∧ s.isStalled p = true ∧ n = s.stall := by
  have hnone := h n
  rw [ending]
  cases s.isFinished p with
  | true => simpa using hnone
  | false =>
      cases s.isStalled p with
      | false => simpa using hnone
      | true => simp [report, hnone]

variable [LatencyModel σ] {b : Bridge σ}

theorem quiet_advance {k : Course σ} (hc : k.Conserved) (hs : s.bridge = k.bridge) (h : Quiet s) :
    Quiet s.advance := by
  intro n hn
  have hnone := Bridge.countP_advance hc (p := (· = .smokeStalled n)) (by simp)
  rw [if_neg (by simp), List.countP_eq_zero] at hnone
  rw [advance, hs, ← Array.mem_toList_iff, Array.appendList_eq_append, Array.toList_appendList,
    List.mem_append] at hn
  rcases hn with hn | hn
  · exact h n (Array.mem_toList_iff.mp hn)
  · exact hnone _ hn (by simp)

theorem quiet_cycle (hb : b.IsNew) (passed : Passes p b s) (h : Quiet s) : Quiet (s.cycle p).2 := by
  obtain ⟨k, hissued⟩ := passes_issue (p := p) (passes_collectUpTo passed s.bridge.replies.size)
  exact quiet_advance (hissued.conserved hb) hissued.bridge_eq
    (quiet_issue (quiet_collectUpTo h s.bridge.replies.size) p)

theorem quiet_of_made (hb : b.IsNew) {past : List (Option Verdict × SmokeRun σ)}
    {o : Option Verdict × SmokeRun σ} (ho : past ++ [o] <+: made p p.maxCycles (start p b)) :
    Quiet o.2 := by
  have hall := made_induction (P := fun _ s => Passes p b s ∧ Quiet s)
    (fun _ s h => ⟨passes_cycle h.1, quiet_cycle hb h.1 h.2⟩) [] ⟨passes_start, quiet_start p b⟩ ho
  exact hall.2

theorem mem_events_iff (p : SmokeSetup) (b : Bridge σ) (n : Nat) :
    .smokeStalled n ∈ (SmokeResult.ofBridge p b).events ↔
      .smokeStalled n ∈ (ofBridge p b).2.events := by
  have hclosing : .smokeStalled n ∉ (ofBridge p b).2.bridge.closingEvents := by
    simp only [Bridge.closingEvents, Frontend.closingEvents, Engine.closingEvents]
    split <;> split <;> split <;> simp
  simp only [SmokeResult.ofBridge, List.cons_append, List.mem_cons, List.mem_append,
    Array.mem_toList_iff, hclosing, or_false, Bridge.readyEvent, reduceCtorEq, false_or]
  split <;> simp

/-- What is reported of a stall tells how the last cycle left the run. -/
theorem reported_iff (hb : b.IsNew) {past : List (Option Verdict × SmokeRun σ)}
    {o : Option Verdict × SmokeRun σ}
    (hrun : made p p.maxCycles (start p b) = past ++ [o]) (n : Nat) :
    .smokeStalled n ∈ (SmokeResult.ofBridge p b).events ↔
      o.2.isStalled p = true ∧ n = o.2.stall := by
  have ho : past ++ [o] <+: made p p.maxCycles (start p b) := hrun ▸ List.prefix_rfl
  rw [mem_events_iff, ofBridge_of_made hrun, mem_ending_iff (quiet_of_made hb ho)]
  constructor
  · exact fun h => h.2
  · exact fun h => ⟨(countsRefusals_of_made ho).retries.isFinished_eq_false h.1, h⟩

theorem exists_last_of_reported {n : Nat}
    (reported : .smokeStalled n ∈ (SmokeResult.ofBridge p b).events) :
    ∃ past o, made p p.maxCycles (start p b) = past ++ [o] := by
  rcases List.eq_nil_or_concat' (made p p.maxCycles (start p b)) with hnone | hsome
  · have hstart : (ofBridge p b).2 = start p b := by
      rw [ofBridge_eq, cycles_eq_ending, hnone]
      rfl
    rw [mem_events_iff, hstart] at reported
    exact absurd reported (quiet_start p b n)
  · exact hsome

end Reports

/-- A smoke run counts the refused cycles in a row. After each cycle, the count is the length of the
longest sequence of cycles, this one the last, that each made a submission and had it refused. After
a cycle the run stops and reports that it stalled exactly if its last cycles, one more than the
limit, were all refused; such a cycle never leaves the run finished. The report names that number of
cycles, and a run that reports it does not report to be finished. -/
theorem stall_counts_refused_cycles {c : Settings} {b : Bridge Controller} (h : c.build = .ok b)
    (p : SmokeSetup) :
    let run := made p p.maxCycles (start p b)
    let r := SmokeResult.ofBridge p b
    (∀ past o, past ++ [o] <+: run →
      IsGreatest {m | EndsRefused m (past ++ [o])} o.2.stall ∧
      (EndsRefused (p.stallLimit + 1) (past ++ [o]) ↔
        run = past ++ [o] ∧ ∃ n, .smokeStalled n ∈ r.events) ∧
      (EndsRefused (p.stallLimit + 1) (past ++ [o]) → o.2.isFinished p = false)) ∧
    ∀ n, .smokeStalled n ∈ r.events → n = p.stallLimit + 1 ∧ r.finishedAt = none := by
  obtain ⟨hb, -, -⟩ := c.isNew_of_build h
  intro run r
  constructor
  · intro past o ho
    have hcounts := countsRefusals_of_made ho
    refine ⟨hcounts.isGreatest, ⟨?_, ?_⟩, ?_⟩
    · intro refused
      have stalled := hcounts.isStalled_iff.mpr refused
      have hrun : run = past ++ [o] := made_eq_of_ended ho (.inr stalled)
      exact ⟨hrun, _, (reported_iff hb hrun _).mpr ⟨stalled, rfl⟩⟩
    · rintro ⟨hrun, n, reported⟩
      exact hcounts.isStalled_iff.mp ((reported_iff hb hrun n).mp reported).1
    · exact fun refused =>
        hcounts.retries.isFinished_eq_false (hcounts.isStalled_iff.mpr refused)
  · intro n reported
    obtain ⟨past, o, hrun⟩ := exists_last_of_reported reported
    obtain ⟨stalled, rfl⟩ := (reported_iff hb hrun n).mp reported
    have ho : past ++ [o] <+: run := hrun ▸ List.prefix_rfl
    refine ⟨stall_eq_of_stalled ho stalled, ?_⟩
    have running := (countsRefusals_of_made ho).retries.isFinished_eq_false stalled
    change (ofBridge p b).1 = none
    rw [ofBridge_of_made hrun, ending, running]
    rfl

/-- Under the reject rule, the read of an address just written is refused twice before the write has
ended. With a limit of one, the run stops there; with a limit of two, it goes on to its end. -/
theorem stall_counts_refused_cycles_reject :
    let c := brisk .reject
    let p : SmokeSetup := { requests := 2, stallLimit := 1 }
    let q : SmokeSetup := { requests := 2, stallLimit := 2 }
    ∃ b, c.build = .ok b ∧
      .smokeStalled 2 ∈ (SmokeResult.ofBridge p b).events ∧
      EndsRefused 2 (made p p.maxCycles (start p b)) ∧
      EndsRefused 2 ((made q q.maxCycles (start q b)).take 3) ∧
      (SmokeResult.ofBridge q b).finishedAt = some 7 ∧
      ∀ n, .smokeStalled n ∉ (SmokeResult.ofBridge q b).events := by
  intro c p q
  obtain ⟨b, hb, reported, refused, hfinished⟩ : ∃ b, c.build = .ok b ∧
      .smokeStalled 2 ∈ (SmokeResult.ofBridge p b).events ∧
      EndsRefused 2 ((made q q.maxCycles (start q b)).take 3) ∧
      (SmokeResult.ofBridge q b).finishedAt = some 7 := by
    refine ⟨_, rfl, ?_, ?_, ?_⟩
    · decide
    · decide
    · decide
  refine ⟨b, hb, reported, ?_, refused, hfinished, ?_⟩
  · obtain ⟨past, o, hrun⟩ := exists_last_of_reported reported
    have hstopped := (stall_counts_refused_cycles hb p).1 past o (hrun ▸ List.prefix_rfl)
    rw [hrun]
    exact hstopped.2.1.mpr ⟨hrun, 2, reported⟩
  · intro n stalled
    have hopen := ((stall_counts_refused_cycles hb q).2 n stalled).2
    rw [hfinished] at hopen
    exact absurd hopen (by simp)

end CycleBridge.SmokeRun
