import CycleBridge.Proofs.Course.Steps

/-!
# Drains interfere with nothing

Where overlaps are let in, no access waits for a drain and none is turned away by the ledger. What
a run does to the memory, to both sides, to their clock and to the line of replies depends on its
submissions and on its steps of the clock alone: neither the places of its drains nor the choice
between the two rules that let overlaps in shows there. `Bridge.undrained` is the part of a bridge
that is left when the ledger and all marks of drains are taken away; every call but a drain acts on
that part alone, and a drain leaves it as it is.
-/

namespace CycleBridge

open Flight

/-- The counters without those that drains move. -/
def BridgeCounts.undrained (c : BridgeCounts) : BridgeCounts :=
  { c with
    repliesDrained := 0
    repliesUnmatched := 0
    latencyTotal := 0
    latencyMin := none
    latencyMax := 0 }

theorem Ledger.allows_of_ne_reject {l : Ledger} (h : l.rule ≠ .reject) (a : Word) :
    l.allows a = true := by
  simp [allows, h]

namespace Bridge

variable {σ : Type}

theorem IsNew.withRule {b : Bridge σ} (hb : b.IsNew) (rule : OverlapRule) :
    ({ b with ledger := { rule } } : Bridge σ).IsNew := by
  obtain ⟨ratio, ratio', depth, capacity, model, rule', hb⟩ := hb
  refine ⟨ratio, ratio', depth, capacity, model, rule, ?_⟩
  unfold assemble at hb ⊢
  cases hc : DualClock.start ratio ratio' with
  | error side => simp [hc, bind, Except.bind] at hb
  | ok clock =>
      simp only [hc, bind, Except.bind, pure, Except.pure, Except.ok.injEq] at hb ⊢
      rw [← hb]

/-- The bridge as if no access were open and the replies drained so far were waiting still. -/
def undrained (b : Bridge σ) (drained : List Reply) : Bridge σ :=
  { b with
    ledger := {}
    replies := ⟨drained ++ b.replies.waiting⟩
    counts := b.counts.undrained }

/-- A drain moves a reply from those that wait to those that were drained. -/
theorem drain?_undrained {b b' : Bridge σ} {d : Delivery} (h : b.drain? = some (d, b'))
    (drained : List Reply) : b'.undrained (drained ++ [d.reply]) = b.undrained drained := by
  cases hw : b.replies.waiting with
  | nil => simp [drain?, ReplyQueue.pop?, hw] at h
  | cons r rest =>
      cases hs : b.ledger.settle? r.addr .read with
      | none =>
          simp only [drain?, ReplyQueue.pop?, hw, hs, Option.map_some, Option.some.injEq] at h
          cases h
          simp [undrained, BridgeCounts.undrained, hw]
      | some settled =>
          simp only [drain?, ReplyQueue.pop?, hw, hs, Option.map_some, Option.some.injEq] at h
          cases h
          simp [undrained, BridgeCounts.undrained, BridgeCounts.addLatency, hw]

section Submit

variable (b : Bridge σ) (drained : List Reply)

theorem accept_undrained (a : Access) (data : Word) :
    (b.accept a data).undrained drained =
      ((b.undrained drained).accept a data).undrained [] := by
  simp only [accept, enter]
  cases a.kind <;> rfl

/-- A submission does not look at the ledger where overlaps are let in. -/
theorem submit_undrained (hr : b.ledger.rule ≠ .reject) (a : Access) (data : Word) :
    (b.submit a data).1 = ((b.undrained drained).submit a data).1 ∧
      (b.submit a data).2.undrained drained =
        ((b.undrained drained).submit a data).2.undrained [] := by
  have allowed := Ledger.allows_of_ne_reject hr a.addr
  have allowed' : (b.undrained drained).ledger.allows a.addr = true :=
    Ledger.allows_of_ne_reject OverlapRule.noConfusion a.addr
  by_cases room : b.frontend.pending.length < b.frontend.depth
  · rw [submit_of_room b a data allowed room,
      submit_of_room (b.undrained drained) a data allowed' room]
    exact ⟨rfl, b.accept_undrained drained a data⟩
  · rw [submit_of_full b a data allowed room,
      submit_of_full (b.undrained drained) a data allowed' room]
    exact ⟨rfl, rfl⟩

end Submit

section Advance

variable (b : Bridge σ) (drained : List Reply)

theorem passFrontend_undrained [LatencyModel σ] :
    (b.undrained drained).passFrontend.2 = b.passFrontend.2.undrained drained := by
  have hclock : (b.undrained drained).clock = b.clock := rfl
  rw [passFrontend, passFrontend, hclock]
  split <;> rfl

/-- The engine's turn leaves replies that depend on the memory alone. -/
theorem driveEngine_undrained (h : ∀ f ∈ b.driveEngine.1, f.request.Standard) :
    b.driveEngine.2.2.undrained drained = (b.undrained drained).driveEngine.2.2.undrained [] := by
  have hline : drained ++ b.driveEngine.2.2.replies.waiting =
      (b.undrained drained).driveEngine.2.2.replies.waiting := by
    rw [b.driveEngine_replies h, (b.undrained drained).driveEngine_replies h, ← List.append_assoc]
    rfl
  rw [undrained, hline]
  rfl

theorem passEngine_undrained (h : ∀ f ∈ b.engine.inFlight, f.request.Standard) :
    b.passEngine.2.undrained drained = (b.undrained drained).passEngine.2.undrained [] := by
  have hclock : (b.undrained drained).clock = b.clock := rfl
  rw [passEngine, passEngine, hclock]
  split
  · apply b.driveEngine_undrained drained
    intro f hf
    exact h f (b.mem_inFlight_of_driveEngine hf)
  · rfl

theorem advance_undrained [LatencyModel σ]
    (h : ∀ f ∈ b.midway.engine.inFlight, f.request.Standard) :
    b.advance.bridge.undrained drained = (b.undrained drained).advance.bridge.undrained [] := by
  have hmidway : (b.undrained drained).midway = b.midway.undrained drained :=
    b.stepClock.passFrontend_undrained drained
  rw [advance_bridge, advance_bridge, hmidway]
  exact b.midway.passEngine_undrained drained h

end Advance

variable [LatencyModel σ]

/-- A call that is no drain acts on what is left without the ledger and the drains, and is answered
from it. -/
theorem perform_undrained {b : Bridge σ} (hr : b.ledger.rule ≠ .reject)
    (hf : ∀ f ∈ b.midway.engine.inFlight, f.request.Standard) (drained : List Reply) {c : Call}
    (h : c ≠ .drain) :
    (b.perform c).answer = ((b.undrained drained).perform c).answer ∧
      (b.perform c).bridge.undrained drained =
        ((b.undrained drained).perform c).bridge.undrained [] := by
  cases c with
  | submit a data =>
      obtain ⟨hverdict, hbridge⟩ := b.submit_undrained drained hr a data
      exact ⟨congrArg Answer.submitted hverdict, hbridge⟩
  | submitCode addr code source data =>
      cases hk : AccessKind.ofCode? code with
      | none =>
          simp only [perform, hk, true_and]
          rfl
      | some kind =>
          obtain ⟨hverdict, hbridge⟩ := b.submit_undrained drained hr ⟨addr, kind, source⟩ data
          simp only [perform, hk]
          exact ⟨congrArg Answer.submitted hverdict, hbridge⟩
  | advance => exact ⟨rfl, b.advance_undrained drained hf⟩
  | drain => exact absurd rfl h

end Bridge

namespace Course

variable {σ : Type}

/-- What is left of a course without its ledger and its drains. -/
def undrained (k : Course σ) : Bridge σ := k.bridge.undrained (k.delivered.map (·.reply))

variable [LatencyModel σ]

theorem extend_undrained {k : Course σ} (hc : k.Conserved) (hr : k.bridge.ledger.rule ≠ .reject)
    {c : Call} (h : c ≠ .drain) :
    (k.bridge.perform c).answer = (k.undrained.perform c).answer ∧
      (k.extend c).undrained = (k.undrained.perform c).bridge.undrained [] := by
  obtain ⟨hanswer, hbridge⟩ := Bridge.perform_undrained hr (Bridge.standard_of_midway hc)
    (k.delivered.map (·.reply)) h
  refine ⟨hanswer, ?_⟩
  rw [undrained, extend, Bridge.perform_delivery? _ h, Option.toList_none, List.append_nil]
  exact hbridge

theorem extend_drain_undrained (k : Course σ) : (k.extend .drain).undrained = k.undrained := by
  cases hd : k.bridge.drain? with
  | none => simp [undrained, extend, Bridge.perform, hd, Answer.delivery?]
  | some drained =>
      obtain ⟨d, b⟩ := drained
      have hdrained := Bridge.drain?_undrained hd (k.delivered.map (·.reply))
      simpa [undrained, extend, Bridge.perform, hd, Answer.delivery?] using hdrained

end Course

namespace Bridge

variable {σ : Type} [LatencyModel σ]

theorem course_extend_undrained {b : Bridge σ} (hb : b.IsNew) (hr : b.ledger.rule ≠ .reject)
    (calls : List Call) {c : Call} (h : c ≠ .drain) :
    ((b.after calls).perform c).answer = ((b.course calls).undrained.perform c).answer ∧
      ((b.course calls).extend c).undrained =
        ((b.course calls).undrained.perform c).bridge.undrained [] := by
  have hrule : (b.course calls).bridge.ledger.rule ≠ .reject := by
    rwa [(course_sameSettings hb calls).rule]
  rw [← course_bridge]
  exact Course.extend_undrained (course_conserved hb calls) hrule h

/-- A run is, apart from its ledger and its drains, a run without drains. -/
theorem course_undrained {b b' : Bridge σ} (hb : b.IsNew) (hb' : b'.IsNew)
    (hr : b.ledger.rule ≠ .reject) (hr' : b'.ledger.rule ≠ .reject)
    (hstart : b.undrained [] = b'.undrained []) (calls : List Call) :
    let others := calls.filter (· ≠ .drain)
    (b.answered calls).filter (·.1 ≠ .drain) = b'.answered others ∧
      (b.course calls).undrained = (b'.course others).undrained := by
  induction calls using List.reverseRecOn with
  | nil => exact ⟨rfl, hstart⟩
  | append_singleton calls c ih =>
      obtain ⟨hanswers, hcourse⟩ := ih
      intro others
      by_cases h : c = .drain
      · have hothers : others = calls.filter (· ≠ .drain) := by
          simp [others, h]
        rw [hothers, answered_snoc, course_snoc, List.filter_append, hanswers, h,
          Course.extend_drain_undrained, hcourse]
        simp
      · have hothers : others = calls.filter (· ≠ .drain) ++ [c] := by
          simp [others, h]
        obtain ⟨hanswer, hextend⟩ := course_extend_undrained hb hr calls h
        obtain ⟨hanswer', hextend'⟩ :=
          course_extend_undrained hb' hr' (calls.filter (· ≠ .drain)) h
        rw [hothers, answered_snoc, answered_snoc, course_snoc, course_snoc, List.filter_append,
          hanswers, hextend, hextend', hcourse, hanswer, hanswer', hcourse]
        simp [h]

/-- Drains interfere with nothing where overlaps are let in. Take two new bridges with the same
sides and clocks, each under one of the two rules that let overlaps in, and two runs with the same
submissions and steps of the clock, with drains anywhere. Every submission and every step is
answered the same. The replies drained and those that wait make up the same list; memory, both
sides, the clock and all counters but those of the drains are the same. -/
theorem drains_interfere_with_nothing {b : Bridge σ} (hb : b.IsNew) (hr : b.ledger.rule ≠ .reject)
    {rule : OverlapRule} (hr' : rule ≠ .reject) {calls calls' : List Call}
    (hcalls : calls.filter (· ≠ .drain) = calls'.filter (· ≠ .drain)) :
    let b' := { b with ledger := { rule } }
    let s := b.after calls
    let s' := b'.after calls'
    (b.answered calls).filter (·.1 ≠ .drain) = (b'.answered calls').filter (·.1 ≠ .drain) ∧
    (b.course calls).delivered.map (·.reply) ++ s.replies.waiting =
      (b'.course calls').delivered.map (·.reply) ++ s'.replies.waiting ∧
    s.memory = s'.memory ∧ s.frontend = s'.frontend ∧ s.engine = s'.engine ∧
    s.clock = s'.clock ∧ s.counts.cycles = s'.counts.cycles ∧
    s.counts.frontendTicks = s'.counts.frontendTicks ∧
    s.counts.engineTicks = s'.counts.engineTicks ∧
    s.counts.readsAccepted = s'.counts.readsAccepted ∧
    s.counts.writesAccepted = s'.counts.writesAccepted ∧
    s.counts.rejections = s'.counts.rejections := by
  intro b' s s'
  have hb' : b'.IsNew := hb.withRule rule
  obtain ⟨hanswers, hcourse⟩ := course_undrained hb hb' hr hr' rfl calls
  obtain ⟨hanswers', hcourse'⟩ := course_undrained hb' hb' hr' hr' rfl calls'
  rw [hcalls] at hanswers hcourse
  have hsame : (b.course calls).undrained = (b'.course calls').undrained :=
    hcourse.trans hcourse'.symm
  rw [Course.undrained, Course.undrained, course_bridge, course_bridge] at hsame
  exact ⟨hanswers.trans hanswers'.symm, congrArg (·.replies.waiting) hsame,
    congrArg (·.memory) hsame, congrArg (·.frontend) hsame, congrArg (·.engine) hsame,
    congrArg (·.clock) hsame, congrArg (·.counts.cycles) hsame,
    congrArg (·.counts.frontendTicks) hsame, congrArg (·.counts.engineTicks) hsame,
    congrArg (·.counts.readsAccepted) hsame, congrArg (·.counts.writesAccepted) hsame,
    congrArg (·.counts.rejections) hsame⟩

/-- The crowd with drains and overlaps kept side by side, and without drains and the newest access
alone in the ledger: a reply was drained in the first run and waits in the second. -/
theorem drains_interfere_with_nothing_crowd :
    let b := small ScriptedLatency.slowOne .track
    let calls := .drain :: Call.crowd ++ [.drain, .advance]
    let b' := { b with ledger := { rule := .overwrite } }
    let calls' := Call.crowd ++ [.advance]
    b.IsNew ∧ b.ledger.rule ≠ .reject ∧ OverlapRule.overwrite ≠ .reject ∧
      calls.filter (· ≠ .drain) = calls'.filter (· ≠ .drain) ∧
      (b.after calls).counts.repliesDrained = 1 ∧ (b'.after calls').counts.repliesDrained = 0 ∧
      (b.after calls).openCount ≠ (b'.after calls').openCount ∧
      (b'.after calls').replies.waiting = [⟨2, 2⟩] ∧
      (b.after calls).engine = (b'.after calls').engine ∧
      (b.after calls).memory = (b'.after calls').memory := by
  intro b calls b' calls'
  have hnew : b.IsNew := small_isNew _ _
  have hrule : OverlapRule.overwrite ≠ .reject := by decide
  have hcalls : calls.filter (· ≠ .drain) = calls'.filter (· ≠ .drain) := by decide
  obtain ⟨-, hreplies, hmemory, -, hengine, -⟩ :=
    drains_interfere_with_nothing hnew (by decide) hrule hcalls
  have hnone : (b'.course calls').delivered = [] := by decide
  refine ⟨hnew, by decide, hrule, hcalls, by decide, by decide, by decide, ?_, hengine, hmemory⟩
  rw [hnone, List.map_nil, List.nil_append] at hreplies
  rw [← hreplies]
  decide

end Bridge

end CycleBridge
