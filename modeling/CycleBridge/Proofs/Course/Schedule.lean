import CycleBridge.Proofs.Course.Dates
import CycleBridge.Proofs.Course.Timing
import CycleBridge.Proofs.Engine.Latencies

/-!
# When accesses leave

A flight that entered the engine in one step of the bridge leaves it in a step that is settled from
the start: the engine cycle in which it is due, or the one after its entry where its latency is
zero. Nothing that is submitted, forwarded, served or drained meanwhile moves that step.
-/

namespace CycleBridge

/-- A flight and the bridge cycle of the step in which it was seen to pass. -/
structure Passage where
  cycle : Nat
  flight : Flight

/-- The engine cycle in which a flight leaves again, for an engine driven once in `ratio` cycles of
the bridge. -/
def Passage.leaves (p : Passage) (ratio : Nat) : Nat :=
  max p.flight.due ((p.cycle - 1) / ratio + 1)

/-- The passage by which a flight leaves again. -/
def Passage.exit (p : Passage) (ratio : Nat) : Passage := ⟨ratio * p.leaves ratio, p.flight⟩

/-- What is at most one more than a bound is at most the bound or is one more. -/
theorem filter_le_succ_perm {α : Type} (f : α → Nat) (n : Nat) (xs : List α) :
    (xs.filter fun x => f x ≤ n + 1).Perm
      ((xs.filter fun x => f x ≤ n) ++ xs.filter fun x => f x = n + 1) := by
  have hsplit := List.filter_append_perm (fun x => decide (f x ≤ n))
    (xs.filter fun x => f x ≤ n + 1)
  rw [List.filter_filter, List.filter_filter] at hsplit
  refine hsplit.symm.trans (.of_eq ?_)
  congr 1
  · apply List.filter_congr
    intro x _
    rw [← Bool.decide_and, decide_eq_decide]
    omega
  · apply List.filter_congr
    intro x _
    rw [← decide_not, ← Bool.decide_and, decide_eq_decide]
    omega

/-- Where no key occurs twice, an element is alone with its key. -/
theorem filter_key_eq {α : Type} (key : α → Nat) {xs : List α} (h : (xs.map key).Nodup) {x : α}
    (hx : x ∈ xs) : xs.filter (key · = key x) = [x] := by
  obtain ⟨front, back, rfl⟩ := List.append_of_mem hx
  rw [List.map_append, List.map_cons, List.nodup_middle, List.nodup_cons, ← List.map_append] at h
  have hnone : ∀ y ∈ front ++ back, ¬ decide (key y = key x) = true := by
    intro y hy he
    exact h.1 (of_decide_eq_true he ▸ List.mem_map_of_mem hy)
  rw [List.filter_append, List.filter_cons_of_pos (by simp),
    List.filter_eq_nil_iff.mpr fun y hy => hnone y (List.mem_append_left _ hy),
    List.filter_eq_nil_iff.mpr fun y hy => hnone y (List.mem_append_right _ hy)]
  rfl

/-- A tick serves the flights that leave in its cycle and keeps those that leave later. -/
theorem Engine.tick_passages {σ : Type} {e : Engine σ} (h : e.InOrder) {ratio : Nat}
    {ps : List Passage}
    (hflights : e.inFlight.Perm ((ps.filter fun p => e.cycle < p.leaves ratio).map (·.flight)))
    (hpast : ∀ p ∈ ps, (p.cycle - 1) / ratio ≤ e.cycle) :
    e.tick.1.Perm ((ps.filter fun p => p.leaves ratio = e.cycle + 1).map (·.flight)) ∧
      e.tick.2.inFlight.Perm
        ((ps.filter fun p => e.cycle + 1 < p.leaves ratio).map (·.flight)) := by
  obtain ⟨hserved, hleft⟩ := h.tick_eq
  rw [hserved, hleft]
  constructor
  · refine (hflights.filter _).trans (.of_eq ?_)
    rw [List.filter_map, List.filter_filter]
    congr 1
    apply List.filter_congr
    intro p hp
    have hentered := hpast p hp
    rw [Function.comp_apply, ← Bool.decide_and, decide_eq_decide, Passage.leaves]
    omega
  · refine (hflights.filter _).trans (.of_eq ?_)
    rw [List.filter_map, List.filter_filter]
    congr 1
    apply List.filter_congr
    intro p hp
    have hentered := hpast p hp
    rw [Function.comp_apply, ← Bool.decide_and, decide_eq_decide, Passage.leaves]
    omega

namespace Bridge

variable {σ : Type} [LatencyModel σ]

/-- A small new bridge with ratios 2 and 3: its frontend is driven in every third cycle, its engine
in every second. Both sides have room for two requests. -/
def crossed (model : σ) (rule : OverlapRule) : Bridge σ where
  clock :=
    { frontendRatio := 2, engineRatio := 3, frontendRatio_pos := Nat.two_pos,
      engineRatio_pos := by decide }
  frontend := { ratio := 2, depth := 2 }
  engine := { ratio := 3, capacity := 2, model }
  ledger := { rule }

omit [LatencyModel σ] in
theorem crossed_isNew (model : σ) (rule : OverlapRule) : (crossed model rule).IsNew :=
  ⟨2, 3, 2, 2, model, rule, rfl⟩

/-- The flights that pass in a run at one side of the engine. -/
def passages (b : Bridge σ) (side : Outcome σ → List Flight) (calls : List Call) : List Passage :=
  (Call.moments calls).flatMap fun m =>
    let o := (b.after m.1).perform m.2
    (side o).map fun f => ⟨o.bridge.cycle, f⟩

/-- The flights that entered the engine, each with the bridge cycle in which it did. -/
def entries (b : Bridge σ) : List Call → List Passage := b.passages (·.forwarded)

/-- The flights that left the engine, each with the bridge cycle in which it did. -/
def exits (b : Bridge σ) : List Call → List Passage := b.passages (·.served)

theorem passages_snoc (b : Bridge σ) (side : Outcome σ → List Flight) (calls : List Call)
    (c : Call) :
    b.passages side (calls ++ [c]) = b.passages side calls ++
      (side ((b.after calls).perform c)).map (⟨(b.after (calls ++ [c])).cycle, ·⟩) := by
  simp [passages, Call.moments_snoc, after_append]

/-- What passed in a run is the beginning of what passes in a longer one. -/
theorem prefix_passages_append (b : Bridge σ) (side : Outcome σ → List Flight)
    (calls more : List Call) :
    b.passages side calls <+: b.passages side (calls ++ more) := by
  induction more using List.reverseRecOn with
  | nil => simp only [List.append_nil, List.prefix_rfl]
  | append_singleton more c ih =>
      rw [← List.append_assoc, passages_snoc]
      exact ih.trans (List.prefix_append _ _)

theorem entries_flights (b : Bridge σ) (calls : List Call) :
    (b.entries calls).map (·.flight) = (b.course calls).forwarded := by
  induction calls using List.reverseRecOn with
  | nil => rfl
  | append_singleton calls c ih =>
      rw [entries, passages_snoc, List.map_append, ← entries, ih, course_snoc, Course.extend,
        course_bridge]
      simp [Function.comp_def]

omit [LatencyModel σ] in
theorem submit_quiet (b : Bridge σ) (a : Access) (data : Word) :
    (b.submit a data).2.engine = b.engine ∧ (b.submit a data).2.clock = b.clock := by
  by_cases allowed : b.ledger.allows a.addr = true
  · by_cases room : b.frontend.pending.length < b.frontend.depth
    · rw [submit_of_room b a data allowed room, accept_engine, accept_clock]
      exact ⟨rfl, rfl⟩
    · rw [submit_of_full b a data allowed room]
      exact ⟨rfl, rfl⟩
  · rw [submit_of_closed b a data allowed]
    exact ⟨rfl, rfl⟩

/-- Only a step of the clock moves anything in the engine. -/
theorem perform_quiet (b : Bridge σ) {c : Call} (hc : c ≠ .advance) :
    let o := b.perform c
    o.forwarded = [] ∧ o.served = [] ∧ o.bridge.engine = b.engine ∧ o.bridge.clock = b.clock := by
  cases c with
  | submit a data => exact ⟨rfl, rfl, b.submit_quiet a data⟩
  | submitCode addr code source data =>
      cases hk : AccessKind.ofCode? code with
      | none => simp [perform, hk]
      | some kind =>
          simp only [perform, hk]
          exact ⟨rfl, rfl, b.submit_quiet _ data⟩
  | advance => exact absurd rfl hc
  | drain =>
      cases hd : b.drain? with
      | none => simp [perform, hd]
      | some drained =>
          obtain ⟨d, b'⟩ := drained
          have hdrains := drains_of_drain? hd
          simp [perform, hd, hdrains.engine, hdrains.clock]

/-- Which flights are in the engine after a run and which have left it, by the cycles of their
entries. -/
structure Scheduled (b : Bridge σ) (calls : List Call) : Prop where
  entered : ∀ p ∈ b.entries calls, 0 < p.cycle ∧ p.cycle ≤ (b.after calls).cycle ∧
    p.flight.due =
      Word.clamp ((p.cycle - 1) / b.clock.frontendRatio.toNat + p.flight.latency.toNat)
  inFlight : (b.after calls).engine.inFlight.Perm
    (((b.entries calls).filter fun p =>
      (b.after calls).engine.cycle < p.leaves b.clock.frontendRatio.toNat).map (·.flight))
  left : (b.exits calls).Perm
    (((b.entries calls).filter fun p =>
      p.leaves b.clock.frontendRatio.toNat ≤ (b.after calls).engine.cycle).map
        (·.exit b.clock.frontendRatio.toNat))

theorem after_advance (b : Bridge σ) (calls : List Call) :
    b.after (calls ++ [.advance]) = (b.after calls).advance.bridge := by
  simp [after_append, perform]

theorem entries_advance (b : Bridge σ) (calls : List Call) :
    b.entries (calls ++ [.advance]) = b.entries calls ++
      (b.after calls).advance.forwarded.map (Passage.mk ((b.after calls).cycle + 1)) := by
  rw [entries, passages_snoc, after_advance, advance_now]
  rfl

theorem exits_advance (b : Bridge σ) (calls : List Call) :
    b.exits (calls ++ [.advance]) = b.exits calls ++
      (b.after calls).advance.served.map (Passage.mk ((b.after calls).cycle + 1)) := by
  rw [exits, passages_snoc, after_advance, advance_now]
  rfl

section Advance

variable {b : Bridge σ} (hb : b.IsNew) (calls : List Call)
include hb

theorem after_frontendRatio :
    (b.after calls).clock.frontendRatio = b.clock.frontendRatio := by
  rw [← course_bridge]
  exact (course_sameSettings hb calls).frontendRatio

theorem after_engineRatio : (b.after calls).clock.engineRatio = b.clock.engineRatio := by
  rw [← course_bridge]
  exact (course_sameSettings hb calls).engineRatio

theorem after_dated : ({ b.course calls with bridge := b.after calls } : Course σ).Dated := by
  rw [← course_bridge]
  exact course_dated hb calls

/-- The engine has made a cycle for each turn it was given. -/
theorem after_turns : (b.after calls).engine.cycle =
    (b.after calls).cycle / b.clock.frontendRatio.toNat := by
  rw [← after_frontendRatio hb calls]
  exact (after_dated hb calls).turns

/-- What enters in a step of the clock does not leave before the engine's next cycle. -/
theorem lt_leaves_of_forwarded :
    ∀ p ∈ (b.after calls).advance.forwarded.map (Passage.mk ((b.after calls).cycle + 1)),
      (b.after calls).engine.cycle < p.leaves b.clock.frontendRatio.toNat := by
  intro p hp
  obtain ⟨f, _, rfl⟩ := List.mem_map.mp hp
  rw [after_turns hb calls, Passage.leaves, Nat.add_sub_cancel]
  exact Nat.lt_of_succ_le (Nat.le_max_right _ _)

section Scheduled

variable (h : b.Scheduled calls)
include h

theorem entered_advance : ∀ p ∈ b.entries (calls ++ [.advance]),
    0 < p.cycle ∧ p.cycle ≤ (b.after calls).cycle + 1 ∧ p.flight.due =
      Word.clamp ((p.cycle - 1) / b.clock.frontendRatio.toNat + p.flight.latency.toNat) := by
  intro p hp
  rw [entries_advance] at hp
  rcases List.mem_append.mp hp with hp | hp
  · obtain ⟨hpos, hle, hdue⟩ := h.entered p hp
    exact ⟨hpos, Nat.le_succ_of_le hle, hdue⟩
  · obtain ⟨f, hf, rfl⟩ := List.mem_map.mp hp
    refine ⟨Nat.succ_pos _, Nat.le_refl _, ?_⟩
    rw [Nat.add_sub_cancel, ← after_turns hb calls]
    exact (b.after calls).forwarded_due f hf

/-- After the frontend's turn the engine holds all that leave later, the new flights among them. -/
theorem midway_passages : (b.after calls).midway.engine.inFlight.Perm
    (((b.entries (calls ++ [.advance])).filter fun p =>
      (b.after calls).engine.cycle < p.leaves b.clock.frontendRatio.toNat).map (·.flight)) := by
  have hall : ((b.after calls).advance.forwarded.map
      (Passage.mk ((b.after calls).cycle + 1))).filter (fun p =>
        (b.after calls).engine.cycle < p.leaves b.clock.frontendRatio.toNat) =
      (b.after calls).advance.forwarded.map (Passage.mk ((b.after calls).cycle + 1)) := by
    rw [List.filter_eq_self]
    intro p hp
    exact decide_eq_true (lt_leaves_of_forwarded hb calls p hp)
  rw [entries_advance, List.filter_append, hall, List.map_append, List.map_map]
  simpa [Function.comp_def] using
    (b.after calls).midway_takes.inFlight.trans (h.inFlight.append_right _)

/-- What had left before a step of the clock has left, whatever enters in the step. -/
theorem exits_before : (b.exits calls).Perm
    (((b.entries (calls ++ [.advance])).filter fun p =>
      p.leaves b.clock.frontendRatio.toNat ≤ (b.after calls).engine.cycle).map
        (·.exit b.clock.frontendRatio.toNat)) := by
  have hnone : ((b.after calls).advance.forwarded.map
      (Passage.mk ((b.after calls).cycle + 1))).filter (fun p =>
        p.leaves b.clock.frontendRatio.toNat ≤ (b.after calls).engine.cycle) = [] := by
    rw [List.filter_eq_nil_iff]
    intro p hp
    have hlt := lt_leaves_of_forwarded hb calls p hp
    simpa using hlt
  rw [entries_advance, List.filter_append, hnone, List.append_nil]
  exact h.left

theorem scheduled_advance : b.Scheduled (calls ++ [.advance]) := by
  have hentered := entered_advance hb calls h
  have hmidway := midway_passages hb calls h
  have hbefore := exits_before hb calls h
  have hturns := after_turns hb calls
  have hcycle : (b.after calls).midway.engine.cycle = (b.after calls).engine.cycle :=
    (b.after calls).midway_takes.cycle
  have hnow : (b.after (calls ++ [.advance])).cycle = (b.after calls).cycle + 1 := by
    rw [after_advance, advance_now]
  by_cases hturn : b.clock.frontendRatio.toNat ∣ (b.after calls).cycle + 1
  · have hpast : ∀ p ∈ b.entries (calls ++ [.advance]),
        (p.cycle - 1) / b.clock.frontendRatio.toNat ≤ (b.after calls).midway.engine.cycle := by
      intro p hp
      obtain ⟨_, hle, _⟩ := hentered p hp
      rw [hcycle, hturns]
      exact Nat.div_le_div_right (by omega)
    have hstep : (b.after calls).cycle + 1 =
        b.clock.frontendRatio.toNat * ((b.after calls).engine.cycle + 1) := by
      rw [hturns, ← Nat.succ_div_of_dvd hturn, Nat.mul_div_cancel' hturn]
    rw [← after_frontendRatio hb calls] at hturn
    obtain ⟨hserved, hengine⟩ := (b.after calls).advance_of_dvd hturn
    have horder := (b.after calls).midway_inOrder (after_dated hb calls).inOrder
    rw [← hcycle] at hmidway
    obtain ⟨hleave, hstay⟩ := Engine.tick_passages horder hmidway hpast
    constructor
    · rwa [hnow]
    · rw [after_advance, hengine, Engine.tick_cycle]
      exact hstay
    · have hnew : ((b.after calls).midway.engine.tick.1.map
          (Passage.mk ((b.after calls).cycle + 1))).Perm
            (((b.entries (calls ++ [.advance])).filter fun p =>
              p.leaves b.clock.frontendRatio.toNat = (b.after calls).engine.cycle + 1).map
                (·.exit b.clock.frontendRatio.toNat)) := by
        rw [hcycle] at hleave
        refine (hleave.map _).trans (.of_eq ?_)
        rw [List.map_map]
        apply List.map_congr_left
        intro p hp
        have hlast := of_decide_eq_true (List.mem_filter.mp hp).2
        rw [Function.comp_apply, Passage.exit, hlast, hstep]
      have hsplit := (filter_le_succ_perm (Passage.leaves · b.clock.frontendRatio.toNat)
        (b.after calls).engine.cycle (b.entries (calls ++ [.advance]))).map
          (·.exit b.clock.frontendRatio.toNat)
      rw [List.map_append] at hsplit
      rw [exits_advance, hserved, after_advance, hengine, Engine.tick_cycle, hcycle]
      exact (hbefore.append hnew).trans hsplit.symm
  · rw [← after_frontendRatio hb calls] at hturn
    obtain ⟨hserved, hengine⟩ := (b.after calls).advance_of_not_dvd hturn
    constructor
    · rwa [hnow]
    · rw [after_advance, hengine, hcycle]
      exact hmidway
    · rw [exits_advance, hserved, List.map_nil, List.append_nil, after_advance, hengine, hcycle]
      exact hbefore

end Scheduled

end Advance

theorem scheduled {b : Bridge σ} (hb : b.IsNew) (calls : List Call) : b.Scheduled calls := by
  induction calls using List.reverseRecOn with
  | nil =>
      have hentries : b.entries [] = [] := rfl
      have hexits : b.exits [] = [] := rfl
      obtain ⟨clock, ratio, ratio', depth, capacity, model, rule, rfl⟩ := hb.exists_eq
      constructor <;> simp [hentries, hexits]
  | append_singleton calls c ih =>
      by_cases hc : c = .advance
      · subst hc
        exact scheduled_advance hb calls ih
      · obtain ⟨hforwarded, hserved, hengine, hclock⟩ := (b.after calls).perform_quiet hc
        have hafter : b.after (calls ++ [c]) = ((b.after calls).perform c).bridge := by
          simp [after_append]
        have hentries : b.entries (calls ++ [c]) = b.entries calls := by
          rw [entries, passages_snoc, hforwarded, List.map_nil, List.append_nil]
        have hexits : b.exits (calls ++ [c]) = b.exits calls := by
          rw [exits, passages_snoc, hserved, List.map_nil, List.append_nil]
        have hcycle : (b.after (calls ++ [c])).cycle = (b.after calls).cycle := by
          rw [hafter, cycle, hclock, cycle]
        constructor
        · rw [hentries, hcycle]
          exact ih.entered
        · rw [hentries, hafter, hengine]
          exact ih.inFlight
        · rw [hentries, hexits, hafter, hengine]
          exact ih.left

theorem arrivals_of_entries {b : Bridge σ} (hb : b.IsNew) (calls : List Call) :
    ((b.entries calls).map (·.flight.arrival)).Nodup := by
  have harrivals := (course_conserved hb calls).arrivals
  rw [← entries_flights, List.map_map] at harrivals
  rw [show (fun p : Passage => p.flight.arrival) = (·.arrival) ∘ (·.flight) from rfl, harrivals]
  exact List.nodup_range

/-- A flight that entered leaves once, in the step that its entry settles, if the run is that
long. -/
theorem exits_of_entry {b : Bridge σ} (hb : b.IsNew) (calls : List Call) {p : Passage}
    (hp : p ∈ b.entries calls) :
    (b.exits calls).filter (·.flight.arrival = p.flight.arrival) =
      if (p.exit b.clock.frontendRatio.toNat).cycle ≤ (b.after calls).cycle then
        [p.exit b.clock.frontendRatio.toNat]
      else [] := by
  have hone := filter_key_eq (fun q : Passage => q.flight.arrival) (arrivals_of_entries hb calls) hp
  have hle : p.leaves b.clock.frontendRatio.toNat ≤ (b.after calls).engine.cycle ↔
      (p.exit b.clock.frontendRatio.toNat).cycle ≤ (b.after calls).cycle := by
    rw [after_turns hb calls, Nat.le_div_iff_mul_le b.clock.frontendRatio_pos, Nat.mul_comm]
    rfl
  have hperm := (scheduled hb calls).left.filter (·.flight.arrival = p.flight.arrival)
  have hcomp : (fun q : Passage => decide (q.flight.arrival = p.flight.arrival)) ∘
      (·.exit b.clock.frontendRatio.toNat) =
        fun q : Passage => decide (q.flight.arrival = p.flight.arrival) := rfl
  rw [List.filter_map, List.filter_comm, hcomp, hone] at hperm
  split
  · next hlast =>
      have hleaves := hle.mpr hlast
      simpa [hleaves] using hperm
  · next hlast =>
      have hleaves : ¬ p.leaves b.clock.frontendRatio.toNat ≤ (b.after calls).engine.cycle :=
        fun h => hlast (hle.mp h)
      simpa [hleaves] using hperm

/-- As long as the engine refused nothing, an access that still waits was accepted since the
frontend's last turn. -/
theorem waits_one_turn {b : Bridge σ} (hb : b.IsNew) (calls : List Call)
    (hrefused : (b.after calls).engine.counts.refused = 0) {a : Submission}
    (ha : a ∈ (b.course calls).accepted.drop (b.course calls).forwarded.length) :
    a.cycle / b.clock.engineRatio.toNat = (b.after calls).cycle / b.clock.engineRatio.toNat := by
  rw [← after_engineRatio hb calls]
  exact (after_dated hb calls).waiting hrefused a ha

/-- The access of a flight that enters now was accepted before; it is one of those that waited. -/
theorem accepted_of_forwarded {b : Bridge σ} (hb : b.IsNew) (calls : List Call) {f : Flight}
    (hf : f ∈ (b.after calls).advance.forwarded) :
    ∃ a, (b.course calls).accepted[f.arrival]? = some a ∧ a.access.request = f.request ∧
      a ∈ (b.course calls).accepted.drop (b.course calls).forwarded.length := by
  have hc := course_conserved hb calls
  have hc' := course_conserved hb (calls ++ [.advance])
  have hcourse : (b.course (calls ++ [.advance])).accepted = (b.course calls).accepted := by
    rw [course_snoc]
    simp [Course.extend, acceptedBy, Call.submission?]
  have hmem : f ∈ (b.course (calls ++ [.advance])).forwarded := by
    rw [← entries_flights, entries_advance, List.map_append, List.map_map]
    exact List.mem_append_right _ (List.mem_map_of_mem hf)
  obtain ⟨a, ha, hrequest⟩ := Option.map_eq_some_iff.mp (hc'.accepted_at hmem)
  rw [hcourse] at ha
  refine ⟨a, ha, hrequest, ?_⟩
  rw [← course_bridge] at hf
  have hge := hc.le_arrival hf
  apply List.mem_of_getElem? (i := f.arrival - (b.course calls).forwarded.length)
  rwa [List.getElem?_drop, Nat.add_sub_cancel' hge]

theorem driveFrontend_asks (b : Bridge σ) :
    LatencyModel.run b.engine.model (b.driveFrontend.1.map (·.request.addr)) =
      (b.driveFrontend.1.map fun f => (f.latency, f.result), b.driveFrontend.2.engine.model) :=
  Frontend.forward_asks b.frontend.pending b.engine

/-- The latencies of the flights are those that the model of the new bridge gives to their addresses,
asked in the order of entry. -/
theorem course_asks (b : Bridge σ) (calls : List Call) :
    LatencyModel.run b.engine.model ((b.course calls).forwarded.map (·.request.addr)) =
      ((b.course calls).forwarded.map fun f => (f.latency, f.result),
        (b.course calls).bridge.engine.model) := by
  let I (k : Course σ) : Prop :=
    LatencyModel.run b.engine.model (k.forwarded.map (·.request.addr)) =
      (k.forwarded.map fun f => (f.latency, f.result), k.bridge.engine.model)
  refine course_invariant (I := I) rfl ?_ calls
  intro k k' h hm
  cases hm with
  | accept a data allowed room =>
      simp only [I, accept_engine]
      exact h
  | transfer =>
      simp only [I, List.map_append] at h ⊢
      rw [LatencyModel.run_append, h, k.bridge.driveFrontend_asks]
  | _ => exact h

/-- If the model answers latencies of one sort, all flights have such latencies. -/
theorem latency_of_always {b : Bridge σ} {p : Word → Prop}
    (h : LatencyModel.Always b.engine.model p) (calls : List Call) :
    ∀ f ∈ (b.course calls).forwarded, p f.latency := by
  intro f hf
  apply h ((b.course calls).forwarded.map (·.request.addr)) (f.latency, f.result)
  rw [course_asks]
  exact List.mem_map_of_mem hf

theorem latency_of_entry {b : Bridge σ} {p : Word → Prop}
    (h : LatencyModel.Always b.engine.model p) (calls : List Call) {entry : Passage}
    (hentry : entry ∈ b.entries calls) : p entry.flight.latency := by
  apply latency_of_always h calls
  rw [← entries_flights]
  exact List.mem_map_of_mem hentry

/-- A flight entered in a turn of the engine that is over. -/
theorem turn_le_of_entry {b : Bridge σ} (hb : b.IsNew) (calls : List Call) {p : Passage}
    (hp : p ∈ b.entries calls) :
    (p.cycle - 1) / b.clock.frontendRatio.toNat ≤ (b.after calls).engine.cycle := by
  obtain ⟨_, hle, _⟩ := (scheduled hb calls).entered p hp
  rw [after_turns hb calls]
  apply Nat.div_le_div_right
  omega

/-- What is in flight entered once, and it leaves in a turn that is still to come. -/
theorem exists_entry_of_inFlight {b : Bridge σ} (hb : b.IsNew) (calls : List Call) {f : Flight}
    (hf : f ∈ (b.after calls).engine.inFlight) :
    ∃ p ∈ b.entries calls, p.flight = f ∧
      (b.after calls).engine.cycle < p.leaves b.clock.frontendRatio.toNat := by
  obtain ⟨p, hp, hflight⟩ := List.mem_map.mp ((scheduled hb calls).inFlight.subset hf)
  obtain ⟨hentry, hleaves⟩ := List.mem_filter.mp hp
  exact ⟨p, hentry, hflight, of_decide_eq_true hleaves⟩

section Forwarded

variable {b : Bridge σ} (hb : b.IsNew) (calls : List Call) {f : Flight}
  (hf : f ∈ (b.after calls).advance.forwarded)
include hb hf

theorem dvd_of_forwarded : b.clock.engineRatio.toNat ∣ (b.after calls).cycle + 1 := by
  by_contra hnot
  rw [← after_engineRatio hb calls] at hnot
  rw [advance_forwarded_eq_nil _ hnot] at hf
  exact List.not_mem_nil hf

/-- What enters in a step of the clock leaves as many engine cycles later as its latency says, one
at least, and it leaves once. -/
theorem exits_of_forwarded
    (hfits : (b.after calls).cycle / b.clock.frontendRatio.toNat + f.latency.toNat < UInt64.size)
    (more : List Call) :
    let exit := b.clock.frontendRatio.toNat *
      ((b.after calls).cycle / b.clock.frontendRatio.toNat + max f.latency.toNat 1)
    (b.exits (calls ++ .advance :: more)).filter (·.flight.arrival = f.arrival) =
      if exit ≤ (b.after (calls ++ .advance :: more)).cycle then [⟨exit, f⟩] else [] := by
  let p : Passage := ⟨(b.after calls).cycle + 1, f⟩
  have hentered : p ∈ b.entries (calls ++ [.advance]) := by
    rw [entries_advance]
    exact List.mem_append_right _ (List.mem_map_of_mem hf)
  have hdue : f.due =
      (b.after calls).cycle / b.clock.frontendRatio.toNat + f.latency.toNat := by
    rw [← Word.clamp_of_lt hfits]
    exact ((scheduled hb (calls ++ [.advance])).entered p hentered).2.2
  have hleaves : p.leaves b.clock.frontendRatio.toNat =
      (b.after calls).cycle / b.clock.frontendRatio.toNat + max f.latency.toNat 1 := by
    change max f.due ((b.after calls).cycle / b.clock.frontendRatio.toNat + 1) = _
    rw [hdue, Nat.add_max_add_left]
  have hrun : p ∈ b.entries (calls ++ .advance :: more) := by
    rw [List.append_cons]
    exact (b.prefix_passages_append _ _ more).subset hentered
  have hexits := exits_of_entry hb _ hrun
  rwa [Passage.exit, hleaves] at hexits

end Forwarded

section Ends

variable {k : Course σ} (hc : k.Conserved)
include hc

/-- The writes that end at an address in a step of the clock close as many of its open writes, the
oldest first. -/
theorem writesAt_advance (a : Word) :
    k.bridge.advance.bridge.ledger.queueAt a .write =
      (k.bridge.ledger.queueAt a .write).drop
        ((Flight.writes k.bridge.advance.served).countP (·.request.addr = a)) := by
  rw [advance_ledger hc, Ledger.writesAt_retireAll, List.count_eq_countP, List.countP_map]
  rfl

/-- Where accesses stand side by side, each write that ends finds an open one. -/
theorem ended_le_open (hm : k.Matched) (a : Word) :
    (Flight.writes k.bridge.advance.served).countP (·.request.addr = a) ≤
      (k.bridge.ledger.queueAt a .write).length := by
  have hopen : k.bridge.work.count (a, .write) = (k.bridge.ledger.queueAt a .write).length := by
    rw [← hm.keys.count_eq, Ledger.count_keys hm.tidy, Ledger.queueAt,
      List.countP_eq_length_filter]
  have hwork := (advance_work hc).count_eq (a, .write)
  have hended : (((Flight.writes k.bridge.advance.served).map (·.request.addr)).map
      (·, AccessKind.write)).count (a, .write) =
        (Flight.writes k.bridge.advance.served).countP (·.request.addr = a) := by
    rw [List.count_eq_countP, List.countP_map, List.countP_map]
    apply List.countP_congr
    intro f _
    simp
  rw [List.count_append, hended] at hwork
  omega

end Ends

/-- Every accepted access enters and leaves the engine by the clocks alone. It is forwarded in a
step after the cycle of its acceptance, on a multiple of the engine's ratio; as long as the engine
refused nothing that is the first such step, and none waits beyond it. Its latency is what the model
answers, asked for the addresses in the order of entry. With a latency that keeps its due cycle
within a word it leaves in the step that belongs to that many engine cycles later, one at least, and
in no other, whatever the calls before and after are. -/
theorem served_on_schedule {b : Bridge σ} (hb : b.IsNew) (calls : List Call) (c : Call) :
    let ratio := b.clock.frontendRatio.toNat
    let ratio' := b.clock.engineRatio.toNat
    let k := b.course calls
    let s := b.after calls
    let entry := (s.perform c).bridge.cycle
    (∀ f ∈ (s.perform c).forwarded,
      c = .advance ∧ ratio' ∣ entry ∧
      (∃ a, k.accepted[f.arrival]? = some a ∧ a.access.request = f.request ∧ a.cycle < entry ∧
        (s.engine.counts.refused = 0 → entry = ratio' * (a.cycle / ratio' + 1))) ∧
      ((entry - 1) / ratio + f.latency.toNat < UInt64.size → ∀ more,
        let exit := ratio * ((entry - 1) / ratio + max f.latency.toNat 1)
        (b.exits (calls ++ c :: more)).filter (·.flight.arrival = f.arrival) =
          if exit ≤ (b.after (calls ++ c :: more)).cycle then [⟨exit, f⟩] else [])) ∧
    (s.engine.counts.refused = 0 → ∀ a ∈ k.accepted.drop k.forwarded.length,
      s.cycle < ratio' * (a.cycle / ratio' + 1)) ∧
    (LatencyModel.run b.engine.model (k.forwarded.map (·.request.addr))).1 =
      k.forwarded.map (fun f => (f.latency, f.result)) ∧
    (c ≠ .advance → (s.perform c).served = []) ∧
    (c = .advance →
      (s.perform c).bridge.replies.waiting =
        s.replies.waiting ++ (Flight.reads (s.perform c).served).map (fun f =>
          ⟨f.request.addr, s.memory.read f.request.addr⟩) ∧
      ∀ a,
        let ended := (Flight.writes (s.perform c).served).countP (·.request.addr = a)
        (s.perform c).bridge.ledger.queueAt a .write = (s.ledger.queueAt a .write).drop ended ∧
        (b.ledger.rule ≠ .overwrite → ended ≤ (s.ledger.queueAt a .write).length)) := by
  intro ratio ratio' k s entry
  refine ⟨?_, ?_, congrArg Prod.fst (course_asks b calls), fun hc => (s.perform_quiet hc).2.1, ?_⟩
  · intro f hf
    by_cases hc : c = .advance
    · subst hc
      have hentry : entry = s.cycle + 1 := s.advance_now
      obtain ⟨a, ha, hrequest, hwaited⟩ := accepted_of_forwarded hb calls hf
      have hturn : ratio' ∣ s.cycle + 1 := dvd_of_forwarded hb calls hf
      refine ⟨rfl, hentry ▸ hturn, ⟨a, ha, hrequest, ?_, ?_⟩, ?_⟩
      · rw [hentry]
        exact Nat.lt_succ_of_le ((after_dated hb calls).upTo a (List.mem_of_getElem? ha))
      · intro hrefused
        rw [hentry, waits_one_turn hb calls hrefused hwaited, ← Nat.succ_div_of_dvd hturn,
          Nat.mul_div_cancel' hturn]
      · rw [hentry, Nat.add_sub_cancel]
        exact exits_of_forwarded hb calls hf
    · rw [(s.perform_quiet hc).1] at hf
      exact absurd hf List.not_mem_nil
  · intro hrefused a ha
    rw [waits_one_turn hb calls hrefused ha]
    exact Nat.lt_mul_div_succ _ b.clock.engineRatio_pos
  · rintro rfl
    have hc : k.Conserved := course_conserved hb calls
    have hs : k.bridge = s := course_bridge b calls
    clear_value s
    subst hs
    refine ⟨advance_replies hc, ?_⟩
    intro a ended
    exact ⟨writesAt_advance hc a, fun hr => ended_le_open hc (course_matched hb hr calls) a⟩

/-- A write with a latency of three engine cycles, accepted in cycle 0 with ratios 2 and 3: it
enters in cycle 3 and leaves in cycle 8, and the step from cycle 7 closes it. -/
theorem served_on_schedule_crossed :
    let b := crossed ScriptedLatency.slowOne .track
    let calls := [.submit ⟨1, .write, 0⟩ 5, .submit ⟨2, .read, 0⟩ 0, .advance, .advance]
    let more := List.replicate 5 .advance ++ [.drain]
    let last := calls ++ List.replicate 5 .advance
    b.IsNew ∧ (b.after calls).engine.counts.refused = 0 ∧
      (∃ f ∈ ((b.after calls).perform .advance).forwarded,
        f.latency.toNat = 3 ∧ (3 - 1) / 2 + f.latency.toNat < UInt64.size ∧
        (∃ a, (b.course calls).accepted[f.arrival]? = some a ∧ 3 = 3 * (a.cycle / 3 + 1)) ∧
        (b.exits (calls ++ .advance :: more)).filter (·.flight.arrival = f.arrival) = [⟨8, f⟩]) ∧
      (b.after last).cycle = 7 ∧ b.ledger.rule ≠ .overwrite ∧
      1 ≤ ((b.after last).ledger.queueAt 1 .write).length ∧
      ((b.after last).perform .advance).bridge.ledger.queueAt 1 .write =
        ((b.after last).ledger.queueAt 1 .write).drop 1 := by
  intro b calls more last
  have hnew : b.IsNew := crossed_isNew _ _
  have hlatencies : 3 ∈ ((b.after calls).perform .advance).forwarded.map (·.latency.toNat) := by
    decide
  obtain ⟨f, hf, hlatency⟩ := List.mem_map.mp hlatencies
  have hrefused : (b.after calls).engine.counts.refused = 0 := by decide
  have hcycle : ((b.after calls).perform .advance).bridge.cycle = 3 := by decide
  have hfits : (3 - 1) / 2 + f.latency.toNat < UInt64.size := by
    rw [hlatency]
    decide
  obtain ⟨hflights, -⟩ := served_on_schedule hnew calls .advance
  obtain ⟨-, -, ⟨a, ha, -, -, hentry⟩, hexits⟩ := hflights f hf
  have hfirst := hentry hrefused
  have hexit := hexits (hcycle ▸ hfits) more
  have hratio : b.clock.frontendRatio.toNat = 2 := by decide
  rw [hcycle] at hfirst hexit
  rw [hratio, hlatency] at hexit
  have hlong : 2 * ((3 - 1) / 2 + max 3 1) ≤ (b.after (calls ++ .advance :: more)).cycle := by
    decide
  obtain ⟨-, -, -, -, hends⟩ := served_on_schedule hnew last .advance
  obtain ⟨-, hwrites⟩ := hends rfl
  obtain ⟨hclosed, hopen⟩ := hwrites 1
  have hended : (Flight.writes ((b.after last).perform .advance).served).countP
      (·.request.addr = 1) = 1 := by
    decide
  have hrule : b.ledger.rule ≠ .overwrite := by decide
  have hfound := hopen hrule
  rw [hended] at hclosed hfound
  exact ⟨hnew, hrefused,
    ⟨f, hf, hlatency, hfits, ⟨a, ha, hfirst⟩, hexit.trans (if_pos hlong)⟩, by decide, hrule, hfound,
    hclosed⟩

end Bridge

end CycleBridge
