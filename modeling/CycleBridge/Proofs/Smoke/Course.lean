import CycleBridge.Proofs.Course.Refusals
import CycleBridge.Proofs.Course.Steps
import CycleBridge.Proofs.Smoke.Pattern
import CycleBridge.Smoke.Result

/-!
# The course of a smoke run

A smoke run is a sequence of steps, each of which makes one call to the bridge: it drains a reply
and compares it, submits the next access, or steps the clock. `SmokeRun.Step` says what a step does
to the run and to the course of its bridge. A property of both that holds at the start and is kept
by every step holds at every point of the run, within its cycles as well as between them.
-/

namespace CycleBridge

namespace Course

variable {σ : Type} [LatencyModel σ] (k : Course σ)

/-- The course after its bridge turned accesses away. -/
@[simps]
def addRefusals {σ : Type} (k : Course σ) (overlaps full : Nat) : Course σ :=
  { k with
    bridge := k.bridge.addRefusals overlaps full
    overlapRefusals := k.overlapRefusals + overlaps }

theorem extend_of_refused {a : Access} {data : Word} {verdict : Verdict} {b : Bridge σ}
    (submitted : k.bridge.submit a data = (verdict, b)) (refused : verdict ≠ .accepted) :
    ∃ overlaps full, overlaps + full = 1 ∧ b = k.bridge.addRefusals overlaps full ∧
      k.extend (.submit a data) = k.addRefusals overlaps full := by
  have hverdict : (k.bridge.submit a data).1 ≠ .accepted := by rwa [submitted]
  have hb := Bridge.submit_refused hverdict
  rw [submitted] at hb
  refine ⟨_, _, ?_, hb, ?_⟩
  · cases verdict with
    | accepted => exact absurd rfl refused
    | overlapRefused => rfl
    | frontendRefused => rfl
  · simp [extend, addRefusals, Bridge.acceptedBy, Call.submission?, Bridge.perform,
      Bridge.performSubmit, submitted, ← hb, refused, Answer.delivery?]

end Course

namespace SmokeRun

variable {σ : Type} {p : SmokeSetup} {s : SmokeRun σ}

/-- A run that has not made a cycle yet. -/
def start (p : SmokeSetup) (b : Bridge σ) : SmokeRun σ :=
  { bridge := b
    events := #[.smokeStarted p.requests b.clock.frontendRatio.toNat b.clock.engineRatio.toNat] }

/-- The run after it drained and compared a reply. -/
def receive (s : SmokeRun σ) (d : Delivery) (b : Bridge σ) : SmokeRun σ :=
  ({ s with bridge := b }.report d.event).check d.reply

/-- The run after its next access was accepted. -/
def acceptNext (p : SmokeSetup) (s : SmokeRun σ) : SmokeRun σ :=
  let a := p.access s.next
  ({ s with bridge := s.bridge.accept a (SmokeSetup.data a) }.report
    (.accepted a s.bridge.cycle)).noteAccepted a (SmokeSetup.data a)

/-- The run after its next access was turned away. -/
def refuseNext (p : SmokeSetup) (s : SmokeRun σ) (b : Bridge σ) (verdict : Verdict) : SmokeRun σ :=
  ({ s with bridge := b }.report (s.bridge.submitEvent (p.access s.next) verdict)).noteRefused

section Fields

variable (s : SmokeRun σ) (d : Delivery) (b : Bridge σ)

/-- Comparing a reply changes nothing but the expected values, the counters and the events. -/
theorem check_keeps (r : Reply) : (s.check r).bridge = s.bridge ∧ (s.check r).next = s.next ∧
    (s.check r).written = s.written ∧ (s.check r).stall = s.stall := by
  unfold check
  split
  · exact ⟨rfl, rfl, rfl, rfl⟩
  · split <;> exact ⟨rfl, rfl, rfl, rfl⟩

@[simp] theorem receive_bridge : (s.receive d b).bridge = b := (check_keeps ..).1

@[simp] theorem receive_next : (s.receive d b).next = s.next := (check_keeps ..).2.1

@[simp] theorem receive_written : (s.receive d b).written = s.written := (check_keeps ..).2.2.1

@[simp] theorem receive_stall : (s.receive d b).stall = s.stall := (check_keeps ..).2.2.2

theorem receive_of_unexpected (h : d.reply.addr ∉ s.expected) :
    (s.receive d b).expected = s.expected ∧
      (s.receive d b).counts = { s.counts with unmatched := s.counts.unmatched + 1 } := by
  have hnone : s.expected[d.reply.addr]? = none := Std.TreeMap.getElem?_eq_none h
  simp only [receive, check, report, hnone, and_self]

theorem receive_of_expected {value : Word} (h : s.expected[d.reply.addr]? = some value) :
    (s.receive d b).expected = s.expected.erase d.reply.addr ∧
      (s.receive d b).counts =
        { s.counts with
          readsCompleted := s.counts.readsCompleted + 1
          readsVerified := s.counts.readsVerified + if d.reply.value = value then 1 else 0 } := by
  simp only [receive, check, report, h]
  by_cases hv : d.reply.value = value
  · simp only [if_pos hv, and_self]
  · simp only [if_neg hv, and_self, Nat.add_zero]

/-- A reply counts as completed or as unmatched, whatever was expected. -/
theorem receive_counts : (s.receive d b).counts.accepted = s.counts.accepted ∧
    (s.receive d b).counts.rejected = s.counts.rejected ∧
      (s.receive d b).counts.readsIssued = s.counts.readsIssued ∧
        (s.receive d b).counts.readsCompleted + (s.receive d b).counts.unmatched =
          s.counts.readsCompleted + s.counts.unmatched + 1 := by
  by_cases hd : d.reply.addr ∈ s.expected
  · obtain ⟨value, hvalue⟩ := Option.isSome_iff_exists.mp
      (Std.TreeMap.mem_iff_isSome_getElem?.mp hd)
    rw [(s.receive_of_expected d b hvalue).2]
    exact ⟨rfl, rfl, rfl, Nat.add_right_comm _ _ _⟩
  · rw [(s.receive_of_unexpected d b hd).2]
    exact ⟨rfl, rfl, rfl, rfl⟩

variable (p : SmokeSetup)

@[simp] theorem acceptNext_bridge : (s.acceptNext p).bridge =
    s.bridge.accept (p.access s.next) (SmokeSetup.data (p.access s.next)) := by
  simp only [acceptNext, noteAccepted, report]
  split <;> rfl

@[simp] theorem acceptNext_next : (s.acceptNext p).next = s.next + 1 := by
  simp only [acceptNext, noteAccepted, report]
  split <;> rfl

@[simp] theorem acceptNext_stall : (s.acceptNext p).stall = 0 := by
  simp only [acceptNext, noteAccepted, report]
  split <;> rfl

theorem acceptNext_written : (s.acceptNext p).written =
    if (p.access s.next).kind = .write then
      s.written.write (p.access s.next).addr (SmokeSetup.data (p.access s.next))
    else s.written := by
  simp only [acceptNext, noteAccepted, report]
  split <;> next hk => rw [hk]; rfl

theorem acceptNext_expected : (s.acceptNext p).expected =
    if (p.access s.next).kind = .read then
      s.expected.insert (p.access s.next).addr (s.written.read (p.access s.next).addr)
    else s.expected := by
  simp only [acceptNext, noteAccepted, report]
  split <;> next hk => rw [hk]; rfl

theorem acceptNext_counts : (s.acceptNext p).counts =
    { s.counts with
      accepted := s.counts.accepted + 1
      readsIssued := s.counts.readsIssued + if (p.access s.next).kind = .read then 1 else 0 } := by
  simp only [acceptNext, noteAccepted, report]
  split <;> next hk => rw [hk]; rfl

end Fields

variable [LatencyModel σ] {b : Bridge σ} {k k' : Course σ} {s' : SmokeRun σ}

/-- What a step of a run does to the run and to the course of its bridge. -/
inductive Step (p : SmokeSetup) (k : Course σ) (s : SmokeRun σ) : Course σ → SmokeRun σ → Prop
  | receive (d : Delivery) (b : Bridge σ) (drained : k.bridge.drain? = some (d, b)) :
      Step p k s (k.drain d b) (s.receive d b)
  | accept (may : s.mayIssue p = true) (allowed : k.bridge.ledger.allows (p.access s.next).addr)
      (room : k.bridge.frontend.pending.length < k.bridge.frontend.depth) :
      Step p k s (k.accept (p.access s.next) (SmokeSetup.data (p.access s.next))) (s.acceptNext p)
  | refuse (verdict : Verdict) (overlaps full : Nat) (one : overlaps + full = 1)
      (turnsAway : k.extend (.submit (p.access s.next) (SmokeSetup.data (p.access s.next))) =
        k.addRefusals overlaps full) :
      Step p k s (k.addRefusals overlaps full)
        (s.refuseNext p (k.bridge.addRefusals overlaps full) verdict)
  | advance : Step p k s k.advance s.advance
  | stalled : Step p k s k (s.report (.smokeStalled s.stall))

/-- The points of a run that starts on a bridge, each with the course of the bridge so far. -/
inductive Along (p : SmokeSetup) (b : Bridge σ) : Course σ → SmokeRun σ → Prop
  | start : Along p b { bridge := b } (start p b)
  | step {k k' : Course σ} {s s' : SmokeRun σ} (h : Along p b k s) (next : Step p k s k' s') :
      Along p b k' s'

/-- A step makes one call at most. -/
theorem Step.exists_calls (h : Step p k s k' s') :
    ∃ calls : List Call, k' = calls.foldl Course.extend k := by
  cases h with
  | receive d b drained => exact ⟨[.drain], (k.extend_of_drain drained).symm⟩
  | accept may allowed room => exact ⟨[.submit _ _], (k.extend_of_room _ _ allowed room).symm⟩
  | refuse verdict overlaps full one turnsAway => exact ⟨[.submit _ _], turnsAway.symm⟩
  | advance => exact ⟨[.advance], k.extend_of_step.symm⟩
  | stalled => exact ⟨[], rfl⟩

theorem Step.bridge_eq (h : Step p k s k' s') (hs : s.bridge = k.bridge) : s'.bridge = k'.bridge := by
  cases h with
  | receive d b drained => exact receive_bridge s d b
  | accept may allowed room => rw [acceptNext_bridge, hs]; rfl
  | refuse verdict overlaps full one turnsAway => rfl
  | advance => rw [SmokeRun.advance, hs]; rfl
  | stalled => exact hs

namespace Along

theorem exists_calls (h : Along p b k s) : ∃ calls, k = b.course calls := by
  induction h with
  | start => exact ⟨[], rfl⟩
  | step h next ih =>
      obtain ⟨calls, rfl⟩ := ih
      obtain ⟨more, hmore⟩ := next.exists_calls
      exact ⟨calls ++ more, by rw [hmore, Bridge.course, Bridge.course, List.foldl_append]⟩

theorem bridge_eq (h : Along p b k s) : s.bridge = k.bridge := by
  induction h with
  | start => rfl
  | step h next ih => exact next.bridge_eq ih

theorem conserved (hb : b.IsNew) (h : Along p b k s) : k.Conserved := by
  obtain ⟨calls, rfl⟩ := h.exists_calls
  exact Bridge.course_conserved hb calls

theorem tallied (hb : b.IsNew) (h : Along p b k s) : k.Tallied := by
  obtain ⟨calls, rfl⟩ := h.exists_calls
  exact Bridge.course_tallied hb calls

theorem read_eq (hb : b.IsNew) (h : Along p b k s) (a : Word) :
    k.bridge.memory.read a = Submission.lastWritten k.accepted a := by
  obtain ⟨calls, rfl⟩ := h.exists_calls
  rw [Bridge.course_bridge, Bridge.read_eq_lastWritten hb]

end Along

/-- The points that a run on a bridge passes. -/
def Passes (p : SmokeSetup) (b : Bridge σ) (s : SmokeRun σ) : Prop := ∃ k, Along p b k s

theorem passes_start : Passes p b (start p b) := ⟨_, .start⟩

omit [LatencyModel σ] in
/-- What every drained reply keeps of a run holds after a number of them. -/
theorem collectUpTo_induction {P : SmokeRun σ → Prop}
    (hreceive : ∀ s d b, s.bridge.drain? = some (d, b) → P s → P (s.receive d b)) (h : P s)
    (n : Nat) : P (s.collectUpTo n) := by
  induction n generalizing s with
  | zero => exact h
  | succ n ih =>
      rw [collectUpTo]
      split
      · exact h
      · next d b drained => exact ih (hreceive s d b drained h)

omit [LatencyModel σ] in
@[simp] theorem collectUpTo_next (s : SmokeRun σ) (n : Nat) : (s.collectUpTo n).next = s.next :=
  collectUpTo_induction (P := (·.next = s.next))
    (fun t d b _ h => (t.receive_next d b).trans h) rfl n

omit [LatencyModel σ] in
@[simp] theorem collectUpTo_stall (s : SmokeRun σ) (n : Nat) :
    (s.collectUpTo n).stall = s.stall :=
  collectUpTo_induction (P := (·.stall = s.stall))
    (fun t d b _ h => (t.receive_stall d b).trans h) rfl n

theorem passes_collectUpTo (h : Passes p b s) (n : Nat) : Passes p b (s.collectUpTo n) := by
  apply collectUpTo_induction _ h
  rintro s d b' drained ⟨k, h⟩
  rw [h.bridge_eq] at drained
  exact ⟨_, h.step (.receive d b' drained)⟩

omit [LatencyModel σ] in
theorem issue_of_room (may : s.mayIssue p = true)
    (allowed : s.bridge.ledger.allows (p.access s.next).addr)
    (room : s.bridge.frontend.pending.length < s.bridge.frontend.depth) :
    s.issue p = (some .accepted, s.acceptNext p) := by
  rw [issue, if_pos may]
  simp only [Bridge.submit_of_room _ _ _ allowed room]
  rfl

omit [LatencyModel σ] in
theorem issue_of_refused (may : s.mayIssue p = true) {verdict : Verdict} {b : Bridge σ}
    (submitted : s.bridge.submit (p.access s.next) (SmokeSetup.data (p.access s.next)) =
      (verdict, b))
    (refused : verdict ≠ .accepted) : s.issue p = (some verdict, s.refuseNext p b verdict) := by
  rw [issue, if_pos may]
  simp only [submitted, if_neg refused]
  rfl

omit [LatencyModel σ] in
/-- What becomes of the submission of a cycle: none is made, it is accepted, or it is refused. -/
theorem issue_cases (p : SmokeSetup) (s : SmokeRun σ) :
    (s.mayIssue p = false ∧ s.issue p = (none, s)) ∨
    (s.mayIssue p = true ∧ s.issue p = (some .accepted, s.acceptNext p)) ∨
    ∃ verdict b, s.mayIssue p = true ∧ verdict ≠ .accepted ∧
      s.issue p = (some verdict, s.refuseNext p b verdict) := by
  let a := p.access s.next
  let data := SmokeSetup.data a
  cases may : s.mayIssue p with
  | false => exact .inl ⟨rfl, by rw [issue, if_neg (by simp [may])]⟩
  | true =>
      right
      by_cases allowed : s.bridge.ledger.allows a.addr = true
      · by_cases room : s.bridge.frontend.pending.length < s.bridge.frontend.depth
        · exact .inl ⟨rfl, issue_of_room may allowed room⟩
        · have submitted := Bridge.submit_of_full _ a data allowed room
          exact .inr ⟨_, _, rfl, by decide, issue_of_refused may submitted (by decide)⟩
      · have submitted := Bridge.submit_of_closed _ a data allowed
        exact .inr ⟨_, _, rfl, by decide, issue_of_refused may submitted (by decide)⟩

/-- The submission of a cycle, if it makes one, is a step. -/
theorem issue_step (hs : s.bridge = k.bridge) (may : s.mayIssue p = true) :
    ∃ k', Step p k s k' (s.issue p).2 := by
  have hrefused : ∀ verdict b, k.bridge.submit (p.access s.next) (SmokeSetup.data (p.access s.next)) =
      (verdict, b) → verdict ≠ .accepted → ∃ k', Step p k s k' (s.issue p).2 := by
    intro verdict b submitted refused
    obtain ⟨overlaps, full, one, rfl, turnsAway⟩ := k.extend_of_refused submitted refused
    have hissue : s.issue p =
        (some verdict, s.refuseNext p (k.bridge.addRefusals overlaps full) verdict) := by
      apply issue_of_refused may _ refused
      rwa [hs]
    rw [hissue]
    exact ⟨_, .refuse verdict overlaps full one turnsAway⟩
  by_cases allowed : k.bridge.ledger.allows (p.access s.next).addr = true
  · by_cases room : k.bridge.frontend.pending.length < k.bridge.frontend.depth
    · rw [issue_of_room may (by rwa [hs]) (by rwa [hs])]
      exact ⟨_, .accept may allowed room⟩
    · exact hrefused _ _ (Bridge.submit_of_full _ _ _ allowed room) (by decide)
  · exact hrefused _ _ (Bridge.submit_of_closed _ _ _ allowed) (by decide)

theorem passes_issue (h : Passes p b s) : Passes p b (s.issue p).2 := by
  obtain ⟨k, h⟩ := h
  by_cases may : s.mayIssue p = true
  · obtain ⟨k', hstep⟩ := issue_step h.bridge_eq may
    exact ⟨k', h.step hstep⟩
  · rw [issue, if_neg may]
    exact ⟨k, h⟩

theorem passes_cycle (h : Passes p b s) : Passes p b (s.cycle p).2 := by
  obtain ⟨k, hissued⟩ := passes_issue (passes_collectUpTo h s.bridge.replies.size)
  exact ⟨_, hissued.step .advance⟩

/-- The cycles that a run makes, up to a number of them: what became of the submission of each, and
the run after it. -/
def made (p : SmokeSetup) : Nat → SmokeRun σ → List (Option Verdict × SmokeRun σ)
  | 0, _ => []
  | left + 1, s =>
    let c := s.cycle p
    c :: if c.2.isFinished p ∨ c.2.isStalled p then [] else made p left c.2

omit [LatencyModel σ] in
/-- How a run ends that stops after so many cycles. -/
def ending (p : SmokeSetup) (done : Nat) (s : SmokeRun σ) : Option Nat × SmokeRun σ :=
  if s.isFinished p then (some done, s)
  else (none, if s.isStalled p then s.report (.smokeStalled s.stall) else s)

/-- A run ends as the last cycle leaves it that it makes. -/
theorem cycles_eq_ending (left done : Nat) (s : SmokeRun σ) : cycles p left done s =
    match (made p left s).getLast? with
    | none => (none, s)
    | some last => last.2.ending p (done + (made p left s).length) := by
  induction left generalizing done s with
  | zero => rfl
  | succ left ih =>
      rw [cycles, made]
      by_cases hfinished : (s.cycle p).2.isFinished p = true
      · simp [hfinished, ending]
      · by_cases hstalled : (s.cycle p).2.isStalled p = true
        · simp [hfinished, hstalled, ending]
        · simp only [hfinished, hstalled, ih, List.getLast?_cons, List.length_cons, or_self, if_false,
            Bool.false_eq_true]
          cases hlast : (made p left (s.cycle p).2).getLast? with
          | none => simp [hfinished, hstalled, ending]
          | some last => simp [Nat.add_assoc, Nat.add_comm 1]

/-- What every cycle keeps of a run and of the cycles behind it holds after each cycle of a run. -/
theorem made_induction {P : List (Option Verdict × SmokeRun σ) → SmokeRun σ → Prop}
    (hcycle : ∀ past s, P past s → P (past ++ [s.cycle p]) (s.cycle p).2) {left : Nat}
    (past : List (Option Verdict × SmokeRun σ)) (h : P past s)
    {more : List (Option Verdict × SmokeRun σ)} {o : Option Verdict × SmokeRun σ}
    (ho : more ++ [o] <+: made p left s) : P (past ++ (more ++ [o])) o.2 := by
  induction left generalizing past more s with
  | zero => exact absurd (List.prefix_nil.mp ho) (by simp)
  | succ left ih =>
      have hnext := hcycle past s h
      cases more with
      | nil =>
          obtain ⟨rfl, -⟩ := List.cons_prefix_cons.mp ho
          exact hnext
      | cons c more =>
          obtain ⟨rfl, hrest⟩ := List.cons_prefix_cons.mp ho
          split at hrest
          · exact absurd (List.prefix_nil.mp hrest) (by simp)
          · simpa using ih _ hnext hrest

/-- No cycle follows one that ends a run. -/
theorem made_eq_of_ended {left : Nat} {past : List (Option Verdict × SmokeRun σ)}
    {o : Option Verdict × SmokeRun σ} (ho : past ++ [o] <+: made p left s)
    (ended : o.2.isFinished p = true ∨ o.2.isStalled p = true) :
    made p left s = past ++ [o] := by
  induction left generalizing past s with
  | zero => exact absurd (List.prefix_nil.mp ho) (by simp)
  | succ left ih =>
      cases past with
      | nil =>
          obtain ⟨rfl, -⟩ := List.cons_prefix_cons.mp ho
          rw [made, if_pos ended]
          rfl
      | cons c past =>
          obtain ⟨rfl, hrest⟩ := List.cons_prefix_cons.mp ho
          rw [made]
          split at hrest
          · exact absurd (List.prefix_nil.mp hrest) (by simp)
          · next running => rw [if_neg running, ih hrest, List.cons_append]

theorem passes_of_made {left : Nat} (h : Passes p b s) {c : Option Verdict × SmokeRun σ}
    (hc : c ∈ made p left s) : Passes p b c.2 := by
  obtain ⟨past, later, hsplit⟩ := List.append_of_mem hc
  have hprefix : past ++ [c] <+: made p left s :=
    ⟨later, (List.append_cons ..).symm.trans hsplit.symm⟩
  exact made_induction (P := fun _ s => Passes p b s) (fun _ _ => passes_cycle) [] h hprefix

theorem passes_ending (h : Passes p b s) (done : Nat) : Passes p b (s.ending p done).2 := by
  rw [ending]
  split
  · exact h
  · split
    · obtain ⟨k, h⟩ := h
      exact ⟨k, h.step .stalled⟩
    · exact h

theorem ofBridge_eq (p : SmokeSetup) (b : Bridge σ) :
    ofBridge p b = cycles p p.maxCycles 0 (start p b) := rfl

theorem ofBridge_of_made {past : List (Option Verdict × SmokeRun σ)}
    {o : Option Verdict × SmokeRun σ} (h : made p p.maxCycles (start p b) = past ++ [o]) :
    ofBridge p b = o.2.ending p (past.length + 1) := by
  rw [ofBridge_eq, cycles_eq_ending, h]
  simp

theorem passes_ofBridge (p : SmokeSetup) (b : Bridge σ) : Passes p b (ofBridge p b).2 := by
  rw [ofBridge_eq, cycles_eq_ending]
  split
  · exact passes_start
  · next last hlast => exact passes_ending (passes_of_made passes_start (List.mem_of_getLast? hlast)) _

theorem isFinished_of_ofBridge {n : Nat} (h : (ofBridge p b).1 = some n) :
    (ofBridge p b).2.isFinished p = true := by
  rw [ofBridge_eq, cycles_eq_ending] at h ⊢
  split at h
  · exact absurd h (by simp)
  · rw [ending] at h ⊢
    split at h
    · next hfinished => rw [if_pos hfinished]; exact hfinished
    · exact absurd h (by simp)

end SmokeRun

end CycleBridge
