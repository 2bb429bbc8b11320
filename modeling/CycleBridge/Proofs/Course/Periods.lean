import CycleBridge.Bridge.Close
import CycleBridge.Proofs.Course.Schedule
import CycleBridge.Proofs.Engine.Later
import CycleBridge.Proofs.Ledger.Later

/-!
# Whole periods

A bridge reads no clock for what it says: a cycle decides which sides it drives, the difference of
two cycles is a latency, and a due cycle is held against the engine's own clock. So a bridge that
first let whole periods pass, and nothing else, goes on as a new one does. `Bridge.later` moves all
readings of time on, those of the bridge and those of either side by numbers of their own; every call
commutes with it as long as the later due cycles fit into a word.
-/

namespace CycleBridge

/-- A stretch of time: so many cycles of the bridge, so many turns of either side. -/
structure Lapse where
  cycles : Nat
  frontendTurns : Nat
  engineTurns : Nat

namespace DualClock

/-- The first `n` cycles of a clock. -/
def lapse (c : DualClock) (n : Nat) : Lapse where
  cycles := n
  frontendTurns := n / c.engineRatio.toNat
  engineTurns := n / c.frontendRatio.toNat

/-- In whole periods each side has as many turns as its own ratio says. -/
theorem lapse_periods (c : DualClock) (m : Nat) :
    c.lapse (m * c.period) =
      ⟨m * c.period, m * c.frontendRatio.toNat, m * c.engineRatio.toNat⟩ := by
  have hfrontend : m * c.period / c.engineRatio.toNat = m * c.frontendRatio.toNat := by
    rw [period, ← Nat.mul_assoc, Nat.mul_div_cancel _ c.engineRatio_pos]
  have hengine : m * c.period / c.frontendRatio.toNat = m * c.engineRatio.toNat := by
    rw [period, Nat.mul_left_comm, Nat.mul_div_cancel_left _ c.frontendRatio_pos]
  rw [lapse, hfrontend, hengine]

/-- Whole periods later a cycle drives the same sides. -/
theorem firing_skip (c : DualClock) {n : Nat} (h : c.period ∣ n) :
    (c.skip n).firing = c.firing := by
  have hphase : (c.now + n) % c.period = c.now % c.period := by
    rw [Nat.add_mod, Nat.mod_eq_zero_of_dvd h, Nat.add_zero, Nat.mod_mod]
  have hfiring : c.firingAt (c.now + n) = c.firingAt c.now := by
    simp only [firingAt, hphase]
  exact hfiring

end DualClock

/-- The frontend after `n` turns more. -/
def Frontend.later (q : Frontend) (n : Nat) : Frontend :=
  { q with counts := { q.counts with cycles := q.counts.cycles + n } }

/-- The counters of a bridge that counted a stretch of time more. -/
def BridgeCounts.later (c : BridgeCounts) (t : Lapse) : BridgeCounts :=
  { c with
    cycles := c.cycles + t.cycles
    frontendTicks := c.frontendTicks + t.frontendTurns
    engineTicks := c.engineTicks + t.engineTurns }

/-- The same delivery, `n` cycles later. -/
def Delivery.later (d : Delivery) (n : Nat) : Delivery := { d with cycle := d.cycle + n }

/-- The same answer, with the cycle it tells, if any, `n` cycles later. -/
def Answer.later (answer : Answer) (n : Nat) : Answer :=
  match answer with
  | .submitted verdict => .submitted verdict
  | .unknownKind code => .unknownKind code
  | .advanced cycle firing => .advanced (cycle + n) firing
  | .drained delivery => .drained (delivery.map (·.later n))

namespace Bridge

variable {σ : Type}

/-- The bridge with all that it and its sides keep of time a stretch later. -/
def later (b : Bridge σ) (t : Lapse) : Bridge σ :=
  { b with
    clock := b.clock.skip t.cycles
    frontend := b.frontend.later t.frontendTurns
    engine := b.engine.later t.engineTurns
    ledger := b.ledger.later t.cycles
    counts := b.counts.later t }

section Calls

variable (b : Bridge σ) (t : Lapse)

theorem accept_later (a : Access) (data : Word) :
    (b.later t).accept a data = (b.accept a data).later t := by
  obtain ⟨addr, kind, source⟩ := a
  cases kind <;> simp only [accept, enter, cycle, later, DualClock.skip, Ledger.enter_later] <;> rfl

theorem submit_later (a : Access) (data : Word) :
    (b.later t).submit a data = ((b.submit a data).1, (b.submit a data).2.later t) := by
  have hallowed := b.ledger.allows_later t.cycles a.addr
  by_cases allowed : b.ledger.allows a.addr = true
  · by_cases room : b.frontend.pending.length < b.frontend.depth
    · rw [submit_of_room b a data allowed room, ← accept_later]
      exact submit_of_room (b.later t) a data (hallowed.trans allowed) room
    · rw [submit_of_full b a data allowed room]
      exact submit_of_full (b.later t) a data (hallowed.trans allowed) room
  · rw [submit_of_closed b a data allowed]
    exact submit_of_closed (b.later t) a data fun h => allowed (hallowed.symm.trans h)

/-- A latency is the difference of two cycles, and both are later. -/
theorem drain?_later :
    (b.later t).drain? = b.drain?.map fun (d, b') => (d.later t.cycles, b'.later t) := by
  have hreplies : (b.later t).replies = b.replies := rfl
  cases hw : b.replies.waiting with
  | nil => simp [drain?, ReplyQueue.pop?, hreplies, hw]
  | cons r rest =>
      have hsettle : (b.later t).ledger.settle? r.addr .read =
          (b.ledger.settle? r.addr .read).map fun s => (s.1.later t.cycles, s.2.later t.cycles) :=
        b.ledger.settle?_later t.cycles r.addr .read
      cases hs : b.ledger.settle? r.addr .read with
      | none =>
          rw [hs, Option.map_none] at hsettle
          simp only [drain?, ReplyQueue.pop?, hreplies, hw, hs, hsettle, Option.map_some]
          rfl
      | some settled =>
          obtain ⟨i, m⟩ := settled
          have hlatency : (b.later t).cycle - (i.later t.cycles).cycle = b.cycle - i.cycle :=
            Nat.add_sub_add_right b.cycle t.cycles i.cycle
          rw [hs, Option.map_some] at hsettle
          simp only [drain?, ReplyQueue.pop?, hreplies, hw, hs, hsettle, hlatency, Option.map_some]
          rfl

theorem stepClock_later : (b.later t).stepClock = b.stepClock.later t := by
  simp only [stepClock, later, cycle, DualClock.skip, DualClock.advance, BridgeCounts.later,
    Nat.add_right_comm]

theorem driveFrontend_later [LatencyModel σ]
    (hfits : ∀ f ∈ (b.later t).driveFrontend.1,
      (b.later t).engine.cycle + f.latency.toNat < UInt64.size) :
    (b.later t).driveFrontend =
      (b.driveFrontend.1.map (·.later t.engineTurns), b.driveFrontend.2.later t) := by
  have hforward : Frontend.forward (b.later t).frontend.pending (b.later t).engine = _ :=
    Frontend.forward_later b.frontend.pending b.engine t.engineTurns hfits
  simp only [driveFrontend, Frontend.tick, hforward, List.length_map]
  simp only [later, Frontend.later, BridgeCounts.later, Nat.add_right_comm]

/-- What the engine serves ends in the same replies and settles the same writes. -/
theorem driveEngine_later (h : ∀ f ∈ b.driveEngine.1, f.request.Standard) :
    (b.later t).driveEngine.1 = b.driveEngine.1.map (·.later t.engineTurns) ∧
      (b.later t).driveEngine.2.2 = b.driveEngine.2.2.later t := by
  have htick : (b.later t).engine.tick = _ := b.engine.tick_later t.engineTurns
  have hserved : (b.later t).driveEngine.1 = b.driveEngine.1.map (·.later t.engineTurns) :=
    congrArg Prod.fst htick
  have h' : ∀ f ∈ (b.later t).driveEngine.1, f.request.Standard := by
    rw [hserved]
    intro f hf
    obtain ⟨g, hg, rfl⟩ := List.mem_map.mp hf
    exact h g hg
  have hledger : (b.later t).driveEngine.2.2.ledger =
      b.driveEngine.2.2.ledger.later t.cycles := by
    rw [(b.later t).driveEngine_ledger h', b.driveEngine_ledger h, ← Ledger.retireAll_later,
      hserved, Flight.writes, List.filter_map, List.map_map]
    rfl
  have hline : (b.later t).driveEngine.2.2.replies.waiting =
      b.driveEngine.2.2.replies.waiting := by
    rw [(b.later t).driveEngine_replies h', b.driveEngine_replies h, hserved, Flight.reads,
      List.filter_map, List.map_map]
    rfl
  have hreplies : (b.later t).driveEngine.2.2.replies = b.driveEngine.2.2.replies :=
    congrArg ReplyQueue.mk hline
  refine ⟨hserved, ?_⟩
  -- The follow-ups change the ledger and the replies and nothing else.
  have hform : ∀ b : Bridge σ, b.driveEngine.2.2 =
      { b with
        engine := b.engine.tick.2
        ledger := b.driveEngine.2.2.ledger
        replies := b.driveEngine.2.2.replies
        counts := { b.counts with engineTicks := b.counts.engineTicks + 1 } } := fun _ => rfl
  rw [hform, hledger, hreplies, htick, hform b]
  simp only [later, BridgeCounts.later, Nat.add_right_comm]

section Turns

variable {b t} (hperiods : b.clock.period ∣ t.cycles)
include hperiods

theorem passFrontend_later [LatencyModel σ]
    (hfits : ∀ f ∈ (b.later t).passFrontend.1,
      (b.later t).engine.cycle + f.latency.toNat < UInt64.size) :
    (b.later t).passFrontend =
      (b.passFrontend.1.map (·.later t.engineTurns), b.passFrontend.2.later t) := by
  have hfiring : (b.later t).clock.firing = b.clock.firing := b.clock.firing_skip hperiods
  rw [passFrontend, hfiring] at hfits ⊢
  rw [passFrontend]
  split
  · next hturn =>
      rw [if_pos hturn] at hfits
      exact b.driveFrontend_later t hfits
  · rfl

theorem passEngine_later (h : ∀ f ∈ b.engine.inFlight, f.request.Standard) :
    (b.later t).passEngine =
      (b.passEngine.1.map (·.later t.engineTurns), b.passEngine.2.later t) := by
  have hfiring : (b.later t).clock.firing = b.clock.firing := b.clock.firing_skip hperiods
  rw [passEngine, passEngine, hfiring]
  split
  · obtain ⟨hserved, hbridge⟩ :=
      b.driveEngine_later t fun f hf => h f (b.mem_inFlight_of_driveEngine hf)
    rw [hserved, hbridge]
  · rfl

theorem advance_later [LatencyModel σ]
    (hstandard : ∀ f ∈ b.midway.engine.inFlight, f.request.Standard)
    (hfits : ∀ f ∈ (b.later t).advance.forwarded,
      (b.later t).engine.cycle + f.latency.toNat < UInt64.size) :
    (b.later t).advance.bridge = b.advance.bridge.later t := by
  have hclock : b.midway.clock.period = b.clock.period := by
    rw [midway_clock]
    rfl
  rw [advance_forwarded, stepClock_later] at hfits
  have hmidway : (b.later t).midway = b.midway.later t := by
    rw [midway, stepClock_later]
    exact congrArg Prod.snd (passFrontend_later (b := b.stepClock) hperiods hfits)
  rw [advance_bridge, advance_bridge, hmidway, passEngine_later (hclock ▸ hperiods) hstandard]

end Turns

/-- A call is answered at a later time as it is now. -/
theorem perform_later [LatencyModel σ] (hperiods : b.clock.period ∣ t.cycles)
    (hstandard : ∀ f ∈ b.midway.engine.inFlight, f.request.Standard) (c : Call)
    (hfits : ∀ f ∈ ((b.later t).perform c).forwarded,
      (b.later t).engine.cycle + f.latency.toNat < UInt64.size) :
    ((b.later t).perform c).answer = (b.perform c).answer.later t.cycles ∧
      ((b.later t).perform c).bridge = (b.perform c).bridge.later t := by
  cases c with
  | submit a data =>
      simp only [perform, performSubmit, submit_later]
      exact ⟨rfl, trivial⟩
  | submitCode addr code source data =>
      cases hk : AccessKind.ofCode? code with
      | none =>
          simp only [perform, hk]
          exact ⟨rfl, trivial⟩
      | some kind =>
          simp only [perform, hk, performSubmit, submit_later]
          exact ⟨rfl, trivial⟩
  | advance =>
      refine ⟨?_, advance_later hperiods hstandard hfits⟩
      have hcycle : (b.later t).advance.cycle = b.advance.cycle + t.cycles :=
        Nat.add_right_comm b.cycle t.cycles 1
      have hfiring : (b.later t).advance.firing = b.advance.firing := by
        change (b.later t).stepClock.clock.firing = b.stepClock.clock.firing
        rw [stepClock_later]
        exact b.stepClock.clock.firing_skip hperiods
      rw [perform, hcycle, hfiring]
      rfl
  | drain =>
      simp only [perform, drain?_later]
      cases b.drain? with
      | none => exact ⟨rfl, rfl⟩
      | some drained => exact ⟨rfl, rfl⟩

end Calls

variable [LatencyModel σ]

/-- With nothing pending, the frontend's turn is counted and that is all. -/
theorem passFrontend_of_empty {b : Bridge σ} (h : b.frontend.pending = []) :
    let turns := if b.clock.firing.frontend then 1 else 0
    b.passFrontend.2 =
      { b with
        frontend := b.frontend.later turns
        counts := { b.counts with frontendTicks := b.counts.frontendTicks + turns } } := by
  obtain ⟨_, ⟨_, _, pending, _⟩, _⟩ := b
  obtain rfl : pending = [] := h
  rw [passFrontend]
  split <;> rfl

omit [LatencyModel σ] in
/-- With nothing in flight, the engine's turn is counted and that is all. -/
theorem passEngine_of_empty {b : Bridge σ} (h : b.engine.inFlight = []) :
    let turns := if b.clock.firing.engine then 1 else 0
    b.passEngine.2 =
      { b with
        engine := b.engine.later turns
        counts := { b.counts with engineTicks := b.counts.engineTicks + turns } } := by
  obtain ⟨_, _, ⟨_, _, _, inFlight, _, _⟩, _⟩ := b
  obtain rfl : inFlight = [] := h
  rw [passEngine]
  split <;> rfl

/-- A new bridge that is only stepped keeps nothing but the time. -/
theorem after_idle {b : Bridge σ} (hb : b.IsNew) (n : Nat) :
    b.after (List.replicate n .advance) = b.later (b.clock.lapse n) := by
  have hnow := hb.cycle_eq_zero
  obtain ⟨clock, ratio, ratio', depth, capacity, model, rule, rfl⟩ := hb.exists_eq
  induction n with
  | zero =>
      simp [later, DualClock.lapse, DualClock.skip, Frontend.later, Engine.later, Ledger.later,
        BridgeCounts.later]
  | succ n ih =>
      have hskip : (clock.skip n).now = 0 + n := congrArg (· + n) hnow
      have hcycle : (clock.skip n).now + 1 = n + 1 := by rw [hskip, Nat.zero_add]
      -- Each quotient grows in the cycles in which the clock gives that side a turn.
      have hfrontend : (n + 1) / clock.engineRatio.toNat = n / clock.engineRatio.toNat +
          if (clock.skip n).advance.firing.frontend then 1 else 0 := by
        rw [Nat.succ_div]
        exact congrArg _ (if_congr (hcycle ▸ (clock.firingAt_frontend _).symm) rfl rfl)
      have hengine : (n + 1) / clock.frontendRatio.toNat = n / clock.frontendRatio.toNat +
          if (clock.skip n).advance.firing.engine then 1 else 0 := by
        rw [Nat.succ_div]
        exact congrArg _ (if_congr (hcycle ▸ (clock.firingAt_engine _).symm) rfl rfl)
      rw [List.replicate_succ', after_advance, ih, advance_bridge, midway,
        passFrontend_of_empty (by rfl), passEngine_of_empty (by rfl)]
      simp only [later, DualClock.lapse, hfrontend, hengine, Frontend.later, Engine.later,
        BridgeCounts.later, stepClock, cycle, hskip, ← Nat.add_assoc]
      rfl

/-- Whole periods later the engine has still made a cycle for each turn it was given. -/
theorem turns_later {b : Bridge σ} (hb : b.IsNew) (m : Nat) (calls : List Call) :
    let s := (b.after calls).later (b.clock.lapse (m * b.clock.period))
    s.engine.cycle = s.cycle / b.clock.frontendRatio.toNat := by
  have hturns := after_turns hb calls
  rw [b.clock.lapse_periods]
  change (b.after calls).engine.cycle + m * b.clock.engineRatio.toNat =
    ((b.after calls).cycle + m * b.clock.period) / b.clock.frontendRatio.toNat
  rw [DualClock.period, Nat.mul_left_comm, Nat.add_mul_div_left _ _ b.clock.frontendRatio_pos,
    hturns]

/-- A run at a later time: every call is answered as it is now, and the bridge ends as it does. -/
theorem run_later {b : Bridge σ} (hb : b.IsNew) (m : Nat) (calls : List Call)
    (hfits : ∀ p ∈ (b.later (b.clock.lapse (m * b.clock.period))).entries calls,
      (p.cycle - 1) / b.clock.frontendRatio.toNat + p.flight.latency.toNat < UInt64.size) :
    let t := b.clock.lapse (m * b.clock.period)
    (b.later t).after calls = (b.after calls).later t ∧
      ((b.later t).outcomes calls).map (·.answer) =
        (b.outcomes calls).map (·.answer.later t.cycles) := by
  intro t
  have hlapse : t = _ := b.clock.lapse_periods m
  induction calls using List.reverseRecOn with
  | nil => exact ⟨rfl, rfl⟩
  | append_singleton calls c ih =>
      have hentries := (b.later t).prefix_passages_append (·.forwarded) calls [c]
      obtain ⟨hafter, hanswers⟩ := ih fun p hp => hfits p (hentries.subset hp)
      have hperiods : (b.after calls).clock.period ∣ t.cycles := by
        rw [DualClock.period, after_frontendRatio hb, after_engineRatio hb, hlapse]
        exact Nat.dvd_mul_left _ _
      have hstandard : ∀ f ∈ (b.after calls).midway.engine.inFlight, f.request.Standard := by
        rw [← course_bridge]
        exact standard_of_midway (course_conserved hb calls)
      -- What the last call forwards are the last entries of the run, which fit by assumption.
      have hfits' : ∀ f ∈ (((b.after calls).later t).perform c).forwarded,
          ((b.after calls).later t).engine.cycle + f.latency.toNat < UInt64.size := by
        intro f hf
        by_cases hc : c = .advance
        · subst hc
          have hentry : Passage.mk (((b.after calls).later t).cycle + 1) f ∈
              (b.later t).entries (calls ++ [.advance]) := by
            rw [entries_advance, hafter]
            exact List.mem_append_right _ (List.mem_map_of_mem hf)
          rw [turns_later hb m calls]
          exact hfits _ hentry
        · rw [(perform_quiet _ hc).1] at hf
          exact absurd hf List.not_mem_nil
      obtain ⟨hanswer, hbridge⟩ := perform_later _ _ hperiods hstandard c hfits'
      rw [after_append, after_append, outcomes_snoc, outcomes_snoc, List.map_append,
        List.map_append, hanswers, hafter]
      exact ⟨hbridge, congrArg (_ ++ [·]) hanswer⟩

/-- Whole periods without a submission change nothing but the readings of the clocks. After them
every call of a run is answered as it is without them: the same verdicts, the same drained replies
with the same latencies, the same sides driven, and only the cycles told are later. So is the final
report, but for the cycles of the bridge, which are those of the periods, and the turns of its sides,
which are as many in each period as the side's own ratio says. This supposes that in the later run
every due cycle fits into a word. -/
theorem whole_periods_change_nothing {b : Bridge σ} (hb : b.IsNew) (m : Nat) (calls : List Call) :
    let n := m * b.clock.period
    let turns := m * b.clock.frontendRatio.toNat
    let turns' := m * b.clock.engineRatio.toNat
    let b' := b.after (List.replicate n .advance)
    let report := (b.after calls).close
    (∀ p ∈ b'.entries calls,
      (p.cycle - 1) / b.clock.frontendRatio.toNat + p.flight.latency.toNat < UInt64.size) →
    (b'.outcomes calls).map (·.answer) = (b.outcomes calls).map (·.answer.later n) ∧
    (b'.after calls).close =
      { bridge :=
          { report.bridge with
            cycles := report.bridge.cycles + n
            frontendTicks := report.bridge.frontendTicks + turns
            engineTicks := report.bridge.engineTicks + turns' }
        frontend := { report.frontend with cycles := report.frontend.cycles + turns }
        engine := { report.engine with cycles := report.engine.cycles + turns' } } := by
  intro n turns turns' b' report hfits
  have hidle : b' = b.later (b.clock.lapse n) := after_idle hb n
  rw [hidle] at hfits ⊢
  obtain ⟨hafter, hanswers⟩ := run_later hb m calls hfits
  refine ⟨hanswers, ?_⟩
  rw [hafter, b.clock.lapse_periods]
  simp [close, later, Frontend.close, Engine.close, Frontend.later, Engine.later,
    BridgeCounts.later, report, n, turns, turns']

/-- Ratios 2 and 3 and a row buffer: after twelve cycles without a submission, a run that fills both
sides, waits and drains is answered as on a new bridge, and the drained read took as long. -/
theorem whole_periods_change_nothing_crossed :
    let b := crossed (RowBuffer.ofTimings 1 4 2) .track
    let calls := Call.crowd ++ List.replicate 8 .advance ++ [.drain]
    let b' := b.after (List.replicate (2 * b.clock.period) .advance)
    b.IsNew ∧
    (∀ p ∈ b'.entries calls,
      (p.cycle - 1) / b.clock.frontendRatio.toNat + p.flight.latency.toNat < UInt64.size) ∧
    (b'.outcomes calls).map (·.answer) = (b.outcomes calls).map (·.answer.later 12) ∧
    (b'.after calls).close.bridge.latencyTotal = 10 := by
  intro b calls b'
  have hnew : b.IsNew := crossed_isNew _ _
  have hfits : ∀ p ∈ b'.entries calls,
      (p.cycle - 1) / b.clock.frontendRatio.toNat + p.flight.latency.toNat < UInt64.size := by
    decide +kernel
  obtain ⟨hanswers, hreport⟩ := whole_periods_change_nothing hnew 2 calls hfits
  have hlatency : (b.after calls).close.bridge.latencyTotal = 10 := by decide +kernel
  have hsame : (b'.after calls).close.bridge.latencyTotal =
      (b.after calls).close.bridge.latencyTotal := by
    rw [hreport]
  exact ⟨hnew, hfits, hanswers, hsame.trans hlatency⟩

end Bridge

end CycleBridge
