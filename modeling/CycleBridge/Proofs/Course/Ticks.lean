import CycleBridge.Proofs.Course.Progress

/-!
# How often the sides are driven

Each side is driven in the multiples of the other side's ratio, and every cycle is looked at anew.
So after any number of cycles the turns of a side are a quotient, nothing is carried along that could
drift, and every window as long as the period gives each side as many turns as its ratio says,
wherever the window begins. The counters of the bridge and those of its sides agree on this.
-/

namespace CycleBridge

/-- The multiples of `d` that follow `a` are counted by the quotients. -/
theorem countP_dvd_range' (d a n : Nat) :
    (List.range' (a + 1) n).countP (d ∣ ·) + a / d = (a + n) / d := by
  induction n with
  | zero => simp
  | succ n ih =>
      rw [List.range'_1_concat, List.countP_append, List.countP_singleton, ← Nat.add_assoc a n 1,
        Nat.succ_div, ← ih, Nat.add_right_comm a 1 n]
      simp only [decide_eq_true_eq]
      omega

namespace DualClock

/-- A start succeeds unless a ratio is zero. -/
theorem start_eq_ok {f e : UInt32} (hf : 0 < f.toNat) (he : 0 < e.toNat) :
    start f e = .ok
      { frontendRatio := f, engineRatio := e, frontendRatio_pos := hf, engineRatio_pos := he } := by
  rw [start, dif_pos hf, dif_pos he]

/-- The product of both ratios fits into a word. -/
theorem period_toNat (c : DualClock) :
    (c.frontendRatio.toUInt64 * c.engineRatio.toUInt64).toNat = c.period := by
  have hlt : c.frontendRatio.toNat * c.engineRatio.toNat < 2 ^ 64 :=
    calc
      _ < 2 ^ 32 * 2 ^ 32 := Nat.mul_lt_mul'' c.frontendRatio.toNat_lt c.engineRatio.toNat_lt
      _ = 2 ^ 64 := rfl
  rw [UInt64.toNat_mul, UInt32.toNat_toUInt64, UInt32.toNat_toUInt64, Nat.mod_eq_of_lt hlt, period]

theorem frontendFirings_add (c : DualClock) (n : Nat) :
    c.frontendFirings n + c.now / c.engineRatio.toNat = (c.now + n) / c.engineRatio.toNat := by
  rw [← countP_dvd_range', frontendFirings, nextFirings, List.countP_map]
  congr 2
  funext m
  rw [Function.comp_apply, Bool.eq_iff_iff, firingAt_frontend, decide_eq_true_iff]

theorem engineFirings_add (c : DualClock) (n : Nat) :
    c.engineFirings n + c.now / c.frontendRatio.toNat = (c.now + n) / c.frontendRatio.toNat := by
  rw [← countP_dvd_range', engineFirings, nextFirings, List.countP_map]
  congr 2
  funext m
  rw [Function.comp_apply, Bool.eq_iff_iff, firingAt_engine, decide_eq_true_iff]

/-- A period ahead, the quotients by the engine's ratio are larger by the frontend's. -/
theorem add_period_div_engineRatio (c : DualClock) (n : Nat) :
    (n + c.period) / c.engineRatio.toNat = n / c.engineRatio.toNat + c.frontendRatio.toNat :=
  Nat.add_mul_div_right n _ c.engineRatio_pos

theorem add_period_div_frontendRatio (c : DualClock) (n : Nat) :
    (n + c.period) / c.frontendRatio.toNat = n / c.frontendRatio.toNat + c.engineRatio.toNat :=
  Nat.add_mul_div_left n _ c.frontendRatio_pos

/-- Every window as long as the period drives each side as often as its own ratio says. -/
theorem firings_period (c : DualClock) :
    c.frontendFirings c.period = c.frontendRatio.toNat ∧
      c.engineFirings c.period = c.engineRatio.toNat := by
  have hfrontend := c.frontendFirings_add c.period
  have hengine := c.engineFirings_add c.period
  rw [add_period_div_engineRatio] at hfrontend
  rw [add_period_div_frontendRatio] at hengine
  omega

end DualClock

namespace Bridge

variable {σ : Type}

theorem assemble_eq_ok (frontend : Frontend) (engine : Engine σ) {clock : DualClock}
    (h : DualClock.start frontend.ratio engine.ratio = .ok clock) (rule : OverlapRule) :
    assemble frontend engine rule = .ok { clock, frontend, engine, ledger := { rule } } := by
  rw [assemble, h]
  rfl

/-- What the counters of a bridge and of both its sides say after `n` cycles of a clock. -/
structure TickedAt (s : Bridge σ) (clock : DualClock) (n : Nat) : Prop where
  cycle : s.cycle = n
  cycles : s.counts.cycles = n
  frontendTicks : s.counts.frontendTicks = n / clock.engineRatio.toNat
  engineTicks : s.counts.engineTicks = n / clock.frontendRatio.toNat
  frontendCycles : s.frontend.counts.cycles = n / clock.engineRatio.toNat
  engineCycle : s.engine.cycle = n / clock.frontendRatio.toNat

/-- A window of one period gives each side as many turns as its ratio says. -/
theorem TickedAt.window {s t : Bridge σ} {clock : DualClock} {n : Nat} (h : s.TickedAt clock n)
    (h' : t.TickedAt clock (n + clock.period)) :
    t.counts.frontendTicks = s.counts.frontendTicks + clock.frontendRatio.toNat ∧
    t.counts.engineTicks = s.counts.engineTicks + clock.engineRatio.toNat ∧
    t.frontend.counts.cycles = s.frontend.counts.cycles + clock.frontendRatio.toNat ∧
    t.engine.cycle = s.engine.cycle + clock.engineRatio.toNat := by
  rw [h'.frontendTicks, h'.engineTicks, h'.frontendCycles, h'.engineCycle, h.frontendTicks,
    h.engineTicks, h.frontendCycles, h.engineCycle, clock.add_period_div_engineRatio,
    clock.add_period_div_frontendRatio]
  exact ⟨rfl, rfl, rfl, rfl⟩

theorem Drains.ticks {b b' : Bridge σ} {d : Delivery} (h : b.Drains d b') :
    b'.counts.cycles = b.counts.cycles ∧ b'.counts.frontendTicks = b.counts.frontendTicks := by
  rw [h.counts]
  split <;> exact ⟨rfl, rfl⟩

theorem advance_cycles [LatencyModel σ] (b : Bridge σ) :
    b.advance.bridge.counts.cycles = b.cycle + 1 := by
  rw [advance_bridge, passEngine, midway, passFrontend]
  split <;> split <;> rfl

theorem advance_frontendTicks [LatencyModel σ] (b : Bridge σ) :
    b.advance.bridge.counts.frontendTicks =
      b.counts.frontendTicks + if b.clock.engineRatio.toNat ∣ b.cycle + 1 then 1 else 0 := by
  have hfires : b.stepClock.clock.firing.frontend = true ↔ b.clock.engineRatio.toNat ∣ b.cycle + 1 :=
    b.clock.firingAt_frontend _
  rw [advance_bridge, passEngine, midway, passFrontend, ← if_congr hfires rfl rfl]
  split <;> split <;> rfl

end Bridge

namespace Course

variable {σ : Type}

/-- What the bridge's own counters say of its clock. -/
structure Ticked (k : Course σ) : Prop where
  cycles : k.bridge.counts.cycles = k.bridge.cycle
  frontend : k.bridge.counts.frontendTicks =
    k.bridge.cycle / k.bridge.clock.engineRatio.toNat

theorem ticked_of_isNew {b : Bridge σ} (hb : b.IsNew) : Ticked { bridge := b } := by
  have hcycle := hb.cycle_eq_zero
  obtain ⟨clock, ratio, ratio', depth, capacity, model, rule, rfl⟩ := hb.exists_eq
  constructor
  · exact hcycle.symm
  · rw [hcycle, Nat.zero_div]

theorem ticked_step [LatencyModel σ] {k k' : Course σ} {news : List Occurrence} (h : k.Ticked)
    (hs : k.Step news k') : k'.Ticked := by
  cases hs with
  | stay => exact h
  | accept a data allowed room =>
      have hcycle : (k.bridge.accept a data).cycle = k.bridge.cycle := by
        rw [Bridge.cycle, Bridge.accept_clock, Bridge.cycle]
      constructor
      · rw [accept_bridge, hcycle, Bridge.accept_counts]
        exact h.cycles
      · rw [accept_bridge, hcycle, Bridge.accept_counts, Bridge.accept_clock]
        exact h.frontend
  | refuseOverlap => exact { h with }
  | refuseFull => exact { h with }
  | advance =>
      constructor
      · rw [advance_bridge, Bridge.advance_cycles, Bridge.advance_now]
      · rw [advance_bridge, Bridge.advance_frontendTicks, Bridge.advance_now, Bridge.advance_clock,
          h.frontend]
        exact Nat.succ_div.symm
  | drain d b drains =>
      have hcycle : b.cycle = k.bridge.cycle := congrArg DualClock.now drains.clock
      constructor
      · rw [drain_bridge, drains.ticks.1, hcycle]
        exact h.cycles
      · rw [drain_bridge, drains.ticks.2, hcycle, drains.clock]
        exact h.frontend

end Course

namespace Bridge

variable {σ : Type} [LatencyModel σ] {b : Bridge σ}

theorem course_ticked (hb : b.IsNew) (calls : List Call) : (b.course calls).Ticked := by
  apply journal_induction (I := fun _ k => k.Ticked) (Course.ticked_of_isNew hb)
  intro calls c news h hs
  exact Course.ticked_step h hs

theorem after_tickedAt (hb : b.IsNew) (calls : List Call) :
    (b.after calls).TickedAt b.clock (calls.count .advance) := by
  have hcycle : (b.after calls).cycle = calls.count .advance := by
    rw [after_cycle, hb.cycle_eq_zero, Nat.zero_add]
  have h := course_ticked hb calls
  have ht := course_tallied hb calls
  have hfrontend := h.frontend
  rw [course_bridge, after_engineRatio hb, hcycle] at hfrontend
  have hengine := after_turns hb calls
  rw [hcycle] at hengine
  have hfrontendTicks := ht.frontendTicks
  have hengineTicks := ht.engineTicks
  rw [course_bridge] at hfrontendTicks hengineTicks
  refine ⟨hcycle, ?_, hfrontend, hengineTicks.symm.trans hengine, hfrontendTicks.trans hfrontend,
    hengine⟩
  rw [← hcycle, ← course_bridge]
  exact h.cycles

/-- A step of the clock gives both sides a turn in the common multiples of the ratios. -/
theorem advance_ticks_both {s : Bridge σ} {clock : DualClock} {n : Nat} (h : s.TickedAt clock n)
    (h' : s.advance.bridge.TickedAt clock (n + 1)) :
    (s.advance.bridge.counts.frontendTicks = s.counts.frontendTicks + 1 ∧
      s.advance.bridge.counts.engineTicks = s.counts.engineTicks + 1) ↔
        Nat.lcm clock.frontendRatio.toNat clock.engineRatio.toNat ∣ n + 1 := by
  rw [h'.frontendTicks, h'.engineTicks, h.frontendTicks, h.engineTicks, Nat.succ_div, Nat.succ_div,
    Nat.lcm_dvd_iff, Nat.add_left_cancel_iff, Nat.add_left_cancel_iff, and_comm]
  refine and_congr ?_ ?_ <;> exact ite_eq_left_iff.trans (by simp)

/-- Two clocks never drift apart. A clock starts with any two ratios but zero; its period fits into a
word. It drives the frontend in the multiples of the engine's ratio and the engine in those of the
frontend's. So after `n` steps of a bridge, whatever was called between them, the bridge and both
sides have counted the quotients of `n`; one step drives both sides exactly in the common multiples
of the ratios, and every window of one period, wherever it begins, drives each side as often as its
own ratio says. -/
theorem clocks_never_drift {f e : UInt32} (hf : f ≠ 0) (he : e ≠ 0) :
    ∃ c, DualClock.start f e = .ok c ∧ c.now = 0 ∧ c.frontendRatio = f ∧ c.engineRatio = e ∧
      c.period = f.toNat * e.toNat ∧ (f.toUInt64 * e.toUInt64).toNat = c.period ∧ 0 < c.period ∧
      (∀ n, ((c.firingAt n).frontend = true ↔ e.toNat ∣ n) ∧
        ((c.firingAt n).engine = true ↔ f.toNat ∣ n)) ∧
      (∀ n, (c.skip n).frontendFirings c.period = f.toNat ∧
        (c.skip n).engineFirings c.period = e.toNat) ∧
      ∀ {σ : Type} [LatencyModel σ] (depth capacity : Nat) (model : σ) (rule : OverlapRule),
        ∃ b, assemble { ratio := f, depth } { ratio := e, capacity, model } rule = .ok b ∧
          ∀ calls,
            let n := calls.count .advance
            let s := b.after calls
            let t := s.advance.bridge
            s.TickedAt c n ∧
            ((t.counts.frontendTicks = s.counts.frontendTicks + 1 ∧
              t.counts.engineTicks = s.counts.engineTicks + 1) ↔ Nat.lcm f.toNat e.toNat ∣ n + 1) ∧
            ∀ more, more.count .advance = c.period →
              let t := s.after more
              t.counts.frontendTicks = s.counts.frontendTicks + f.toNat ∧
              t.counts.engineTicks = s.counts.engineTicks + e.toNat ∧
              t.frontend.counts.cycles = s.frontend.counts.cycles + f.toNat ∧
              t.engine.cycle = s.engine.cycle + e.toNat := by
  have hf' : 0 < f.toNat := Nat.pos_of_ne_zero fun h => hf (UInt32.toNat_inj.mp h)
  have he' : 0 < e.toNat := Nat.pos_of_ne_zero fun h => he (UInt32.toNat_inj.mp h)
  let c : DualClock :=
    { frontendRatio := f, engineRatio := e, frontendRatio_pos := hf', engineRatio_pos := he' }
  have hstart : DualClock.start f e = .ok c := DualClock.start_eq_ok hf' he'
  refine ⟨c, hstart, rfl, rfl, rfl, rfl, c.period_toNat, c.period_pos,
    fun n => ⟨c.firingAt_frontend n, c.firingAt_engine n⟩, fun n => (c.skip n).firings_period, ?_⟩
  intro σ _ depth capacity model rule
  have hassemble :=
    assemble_eq_ok { ratio := f, depth } { ratio := e, capacity, model } hstart rule
  refine ⟨_, hassemble, ?_⟩
  have hb : IsNew _ := ⟨f, e, depth, capacity, model, rule, hassemble⟩
  intro calls n s t
  have hs : s.TickedAt c n := after_tickedAt hb calls
  have ht : t.TickedAt c (n + 1) := by
    have hlast := after_tickedAt hb (calls ++ [.advance])
    rwa [after_advance, List.count_append] at hlast
  refine ⟨hs, advance_ticks_both hs ht, ?_⟩
  intro more hmore
  have hwindow := after_tickedAt hb (calls ++ more)
  rw [after_append, List.count_append, hmore] at hwindow
  exact hs.window hwindow

/-- Ratios 2 and 3: after four steps the frontend had one turn and the engine two. The six steps that
follow, with other calls between them, bring two turns and three. -/
theorem clocks_never_drift_crossed :
    let calls := Call.crowd ++ [.advance, .drain, .advance]
    let more := .drain :: List.replicate 6 .advance ++ Call.crowd.take 2
    (2 : UInt32) ≠ 0 ∧ (3 : UInt32) ≠ 0 ∧ ∃ c, DualClock.start 2 3 = .ok c ∧ c.period = 6 ∧
      (c.skip 5).frontendFirings c.period = 2 ∧
      ∃ b, assemble { ratio := 2, depth := 2 }
          { ratio := 3, capacity := 2, model := ScriptedLatency.slowOne } .track = .ok b ∧
        more.count .advance = c.period ∧
        (b.after calls).counts.frontendTicks = 1 ∧ (b.after calls).engine.cycle = 2 ∧
        ((b.after calls).after more).counts.frontendTicks = 1 + 2 ∧
        ((b.after calls).after more).engine.cycle = 2 + 3 := by
  intro calls more
  obtain ⟨c, hstart, -, hf, he, hperiod, -, -, -, hfirings, hruns⟩ :=
    clocks_never_drift (f := 2) (e := 3) (by decide) (by decide)
  obtain ⟨b, hassemble, hcounts⟩ := hruns 2 2 ScriptedLatency.slowOne .track
  obtain ⟨hs, -, hwindow⟩ := hcounts calls
  have hmore : more.count .advance = c.period := by
    rw [hperiod]
    decide
  have hfrontend : (b.after calls).counts.frontendTicks = 1 := by
    rw [hs.frontendTicks, he]
    decide
  have hengine : (b.after calls).engine.cycle = 2 := by
    rw [hs.engineCycle, hf]
    decide
  obtain ⟨hfrontend', -, -, hengine'⟩ := hwindow more hmore
  rw [hfrontend] at hfrontend'
  rw [hengine] at hengine'
  exact ⟨by decide, by decide, c, hstart, hperiod, (hfirings 5).1, b, hassemble, hmore, hfrontend,
    hengine, hfrontend', hengine'⟩

end Bridge

end CycleBridge
