import CycleBridge.Proofs.Course.Steps
import CycleBridge.Proofs.Engine.Order

/-!
# When accesses enter

An access waits at least until the next step of the clock, and it enters the engine in a step whose
cycle is a multiple of the engine's ratio. As long as the engine refused nothing, it enters in the
first such step.
-/

namespace CycleBridge

namespace DualClock

/-- The frontend is driven on the multiples of the engine's ratio. -/
theorem firingAt_frontend (c : DualClock) (n : Nat) :
    (c.firingAt n).frontend = true ↔ c.engineRatio.toNat ∣ n := by
  rw [firingAt, decide_eq_true_iff, period, Nat.mod_mul_left_mod, Nat.dvd_iff_mod_eq_zero]

/-- The engine is driven on the multiples of the frontend's ratio. -/
theorem firingAt_engine (c : DualClock) (n : Nat) :
    (c.firingAt n).engine = true ↔ c.frontendRatio.toNat ∣ n := by
  rw [firingAt, decide_eq_true_iff, period, Nat.mod_mul_right_mod, Nat.dvd_iff_mod_eq_zero]

theorem start_now {ratio ratio' : UInt32} {c : DualClock} (h : start ratio ratio' = .ok c) :
    c.now = 0 := by
  unfold start at h
  split at h
  · split at h
    · cases h
      rfl
    · cases h
  · cases h

end DualClock

namespace Bridge

variable {σ : Type} [LatencyModel σ] (b : Bridge σ)

omit [LatencyModel σ] in
variable {b} in
theorem IsNew.cycle_eq_zero (h : b.IsNew) : b.cycle = 0 := by
  obtain ⟨ratio, ratio', depth, capacity, model, rule, h⟩ := h
  unfold assemble at h
  cases hc : DualClock.start ratio ratio' with
  | error side => simp [hc, bind, Except.bind] at h
  | ok clock =>
      simp only [hc, bind, Except.bind, pure, Except.pure, Except.ok.injEq] at h
      subst h
      exact DualClock.start_now hc

theorem advance_now : b.advance.bridge.cycle = b.cycle + 1 := by
  rw [cycle, advance_clock]
  rfl

theorem midway_clock : b.midway.clock = b.clock.advance := by
  rw [midway, passFrontend]
  split <;> rfl

theorem midway_takes : b.engine.Takes b.advance.forwarded b.midway.engine := by
  rw [advance_forwarded, midway, passFrontend]
  split
  · exact b.stepClock.driveFrontend_takes
  · exact .refl _

/-- What a step of the clock serves, and what is in flight after it, was in flight before or
entered in the step. -/
theorem advance_inFlight : (b.advance.served ++ b.advance.bridge.engine.inFlight).Perm
    (b.engine.inFlight ++ b.advance.forwarded) := by
  rw [advance_served, advance_bridge, passEngine_inFlight]
  exact b.midway_takes.inFlight

theorem midway_inOrder (h : b.engine.InOrder) : b.midway.engine.InOrder := by
  rw [midway, passFrontend]
  split
  · exact Frontend.forward_inOrder b.frontend.pending h
  · exact h

theorem forwarded_due : ∀ f ∈ b.advance.forwarded,
    f.due = Word.clamp (b.engine.cycle + f.latency.toNat) := by
  rw [advance_forwarded, passFrontend]
  split
  · exact Frontend.forward_due b.frontend.pending b.engine
  · simp

theorem advance_forwarded_eq_nil (h : ¬ b.clock.engineRatio.toNat ∣ b.cycle + 1) :
    b.advance.forwarded = [] := by
  rw [advance_forwarded, passFrontend, if_neg]
  exact fun hfires => h ((b.clock.firingAt_frontend _).mp hfires)

/-- Where the engine refuses nothing, the frontend's turn leaves nothing behind. -/
theorem midway_refused (h : b.midway.engine.counts.refused = 0) :
    b.engine.counts.refused = 0 ∧
      (b.clock.engineRatio.toNat ∣ b.cycle + 1 → b.midway.frontend.pending = []) := by
  rw [midway, passFrontend] at h ⊢
  split at h
  · next hfires =>
      have hrefused := Frontend.forward_refused b.frontend.pending b.engine
      have hzero : (Frontend.forward b.frontend.pending b.engine).2.2.counts.refused = 0 := h
      rw [hzero] at hrefused
      rw [if_pos hfires]
      split at hrefused
      · next hleft => exact ⟨by omega, fun _ => hleft⟩
      · omega
  · next hfires =>
      rw [if_neg hfires]
      exact ⟨h, fun hdvd => absurd ((b.clock.firingAt_frontend _).mpr hdvd) hfires⟩

theorem advance_frontend : b.advance.bridge.frontend = b.midway.frontend := by
  rw [advance_bridge, passEngine]
  split <;> rfl

theorem advance_of_dvd (h : b.clock.frontendRatio.toNat ∣ b.cycle + 1) :
    b.advance.served = b.midway.engine.tick.1 ∧
      b.advance.bridge.engine = b.midway.engine.tick.2 := by
  have hfires : b.midway.clock.firing.engine = true := by
    rw [midway_clock]
    exact (b.clock.firingAt_engine _).mpr h
  rw [advance_served, advance_bridge, passEngine, if_pos hfires]
  exact ⟨rfl, rfl⟩

theorem advance_of_not_dvd (h : ¬ b.clock.frontendRatio.toNat ∣ b.cycle + 1) :
    b.advance.served = [] ∧ b.advance.bridge.engine = b.midway.engine := by
  have hfires : ¬ b.midway.clock.firing.engine = true := by
    rw [midway_clock]
    exact fun hf => h ((b.clock.firingAt_engine _).mp hf)
  rw [advance_served, advance_bridge, passEngine, if_neg hfires]
  exact ⟨rfl, rfl⟩

end Bridge

namespace Course

variable {σ : Type}

/-- What the cycles of a course say: an access enters the engine after the cycle of its acceptance,
and one that still waits while the engine refused nothing was accepted since the frontend's last
turn. The engine's own clock counts its turns. -/
structure Dated (k : Course σ) : Prop where
  upTo : ∀ s ∈ k.accepted, s.cycle ≤ k.bridge.cycle
  entered : ∀ s ∈ k.accepted.take k.forwarded.length, s.cycle < k.bridge.cycle
  waiting : k.bridge.engine.counts.refused = 0 → ∀ s ∈ k.accepted.drop k.forwarded.length,
    s.cycle / k.bridge.clock.engineRatio.toNat =
      k.bridge.cycle / k.bridge.clock.engineRatio.toNat
  turns : k.bridge.engine.cycle = k.bridge.cycle / k.bridge.clock.frontendRatio.toNat
  inOrder : k.bridge.engine.InOrder

theorem dated_of_isNew {b : Bridge σ} (hb : b.IsNew) : Dated { bridge := b } := by
  have hcycle := hb.cycle_eq_zero
  obtain ⟨clock, ratio, ratio', depth, capacity, model, rule, rfl⟩ := hb.exists_eq
  refine ⟨by simp, by simp, by simp, ?_, ⟨.nil, by simp⟩⟩
  rw [hcycle, Nat.zero_div]

theorem dated_accept {k : Course σ} (hc : k.Conserved) (h : k.Dated) (a : Access) (data : Word) :
    (k.accept a data).Dated := by
  have hle : k.forwarded.length ≤ k.accepted.length := by
    have hlen := hc.length_accepted
    omega
  have hcycle : (k.bridge.accept a data).cycle = k.bridge.cycle := by
    rw [Bridge.cycle, Bridge.accept_clock, Bridge.cycle]
  unfold accept
  constructor
  · intro s hs
    rw [hcycle]
    rcases List.mem_append.mp hs with hs | hs
    · exact h.upTo s hs
    · rw [List.mem_singleton.mp hs]
  · rw [List.take_append_of_le_length hle, hcycle]
    exact h.entered
  · rw [List.drop_append_of_le_length hle, hcycle, Bridge.accept_engine, Bridge.accept_clock]
    intro hr s hs
    rcases List.mem_append.mp hs with hs | hs
    · exact h.waiting hr s hs
    · rw [List.mem_singleton.mp hs]
  · rw [hcycle, Bridge.accept_engine, Bridge.accept_clock]
    exact h.turns
  · rw [Bridge.accept_engine]
    exact h.inOrder

theorem dated_drain {k : Course σ} (h : k.Dated) {d : Delivery} {b : Bridge σ}
    (drains : k.bridge.Drains d b) : (k.drain d b).Dated := by
  have hcycle : b.cycle = k.bridge.cycle := congrArg DualClock.now drains.clock
  unfold drain
  constructor
  · rw [hcycle]
    exact h.upTo
  · rw [hcycle]
    exact h.entered
  · rw [hcycle, drains.engine, drains.clock]
    exact h.waiting
  · rw [hcycle, drains.engine, drains.clock]
    exact h.turns
  · rw [drains.engine]
    exact h.inOrder

variable [LatencyModel σ]

theorem Conserved.le_arrival {k : Course σ} (h : k.Conserved) {f : Flight}
    (hf : f ∈ k.bridge.advance.forwarded) : k.forwarded.length ≤ f.arrival := by
  have harrival : f.arrival ∈
      List.range' k.bridge.engine.taken k.bridge.advance.forwarded.length := by
    rw [← k.bridge.midway_takes.arrivals]
    exact List.mem_map_of_mem hf
  rw [h.taken] at harrival
  exact (List.mem_range'_1.mp harrival).1

theorem dated_advance {k : Course σ} (h : k.Dated) (hc : k.advance.Conserved) :
    k.advance.Dated := by
  have hnow := k.bridge.advance_now
  have hclock := k.bridge.advance_clock
  have hmidway := k.bridge.midway_takes.cycle
  unfold advance at hc ⊢
  constructor
  · intro s hs
    rw [hnow]
    exact Nat.le_succ_of_le (h.upTo s hs)
  · intro s hs
    rw [hnow]
    exact Nat.lt_succ_of_le (h.upTo s (List.mem_of_mem_take hs))
  · intro hrefused s hs
    have hengine : k.bridge.midway.engine.counts.refused = 0 := by
      by_cases hturn : k.bridge.clock.frontendRatio.toNat ∣ k.bridge.cycle + 1
      · rw [(k.bridge.advance_of_dvd hturn).2, Engine.tick_refused] at hrefused
        exact hrefused
      · rw [(k.bridge.advance_of_not_dvd hturn).2] at hrefused
        exact hrefused
    obtain ⟨hbefore, hleft⟩ := k.bridge.midway_refused hengine
    by_cases hturn : k.bridge.clock.engineRatio.toNat ∣ k.bridge.cycle + 1
    · have hlen := hc.length_accepted
      simp only [k.bridge.advance_frontend, hleft hturn, List.length_nil, Nat.add_zero] at hlen
      rw [← hlen, List.drop_length] at hs
      exact absurd hs List.not_mem_nil
    · simp only [k.bridge.advance_forwarded_eq_nil hturn, List.append_nil] at hs
      rw [hnow, hclock, DualClock.advance, Nat.succ_div_of_not_dvd hturn]
      exact h.waiting hbefore s hs
  · rw [hnow, hclock]
    by_cases hturn : k.bridge.clock.frontendRatio.toNat ∣ k.bridge.cycle + 1
    · rw [(k.bridge.advance_of_dvd hturn).2, Engine.tick_cycle, hmidway, h.turns]
      exact (Nat.succ_div_of_dvd hturn).symm
    · rw [(k.bridge.advance_of_not_dvd hturn).2, hmidway, h.turns]
      exact (Nat.succ_div_of_not_dvd hturn).symm
  · have horder := k.bridge.midway_inOrder h.inOrder
    by_cases hturn : k.bridge.clock.frontendRatio.toNat ∣ k.bridge.cycle + 1
    · rw [(k.bridge.advance_of_dvd hturn).2]
      exact horder.tick
    · rw [(k.bridge.advance_of_not_dvd hturn).2]
      exact horder

theorem dated_step {k k' : Course σ} {news : List Occurrence} (hc : k.Conserved) (h : k.Dated)
    (hs : k.Step news k') (hc' : k'.Conserved) : k'.Dated := by
  cases hs with
  | stay => exact h
  | accept a data allowed room => exact dated_accept hc h a data
  | refuseOverlap => exact { h with }
  | refuseFull => exact { h with }
  | advance => exact dated_advance h hc'
  | drain d b drains => exact dated_drain h drains

end Course

namespace Bridge

variable {σ : Type} [LatencyModel σ] {b : Bridge σ}

theorem course_dated (hb : b.IsNew) (calls : List Call) : (b.course calls).Dated := by
  apply journal_induction (I := fun _ k => k.Dated) (Course.dated_of_isNew hb)
  intro calls c news h hs
  exact Course.dated_step (course_conserved hb calls) h hs (course_conserved hb _)

end Bridge

end CycleBridge
