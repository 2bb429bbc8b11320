import CycleBridge.Proofs.Course.Schedule

/-!
# Every access is served

While nothing is submitted, the bridge works off what it was given. No flight stays in the engine
longer than the largest latency, so a stretch of that length in which nothing enters leaves the
engine empty; an empty engine takes a request in the frontend's next turn. So the line in the
frontend grows shorter in every window of such a stretch and one turn of the frontend, whatever the
engine held before, and the number of requests that wait bounds the number of windows.
-/

namespace CycleBridge

open Flight LatencyModel

/-- A run with enough steps of the clock can be cut ahead of a given one of them. -/
theorem Call.exists_step {calls : List Call} {n : Nat} (h : n < calls.count .advance) :
    ∃ front back, calls = front ++ .advance :: back ∧ front.count .advance = n := by
  induction calls generalizing n with
  | nil => exact absurd h (Nat.not_lt_zero n)
  | cons c rest ih =>
      by_cases hc : c = .advance
      · subst hc
        cases n with
        | zero => exact ⟨[], rest, rfl, rfl⟩
        | succ n =>
            rw [List.count_cons_self, Nat.add_lt_add_iff_right] at h
            obtain ⟨front, back, rfl, hn⟩ := ih h
            exact ⟨.advance :: front, back, rfl, by rw [List.count_cons_self, hn]⟩
      · rw [List.count_cons_of_ne hc] at h
        obtain ⟨front, back, rfl, hn⟩ := ih h
        exact ⟨c :: front, back, rfl, by rw [List.count_cons_of_ne hc, hn]⟩

/-- A clock that fires on the multiples of `ratio` fires in every window of that length. -/
theorem exists_turn (n : Nat) {ratio : Nat} (h : 0 < ratio) :
    ∃ turn, ratio ∣ turn ∧ n < turn ∧ turn ≤ n + ratio := by
  refine ⟨ratio * (n / ratio + 1), Nat.dvd_mul_right _ _, Nat.lt_mul_div_succ n h, ?_⟩
  rw [Nat.mul_succ]
  exact Nat.add_le_add_right (Nat.mul_div_le n ratio) ratio

/-- An engine turns a request away only if it is full. -/
theorem Engine.full_of_refused {σ : Type} [LatencyModel σ] {e e' : Engine σ} {r : Request}
    (h : e.offer r = (none, e')) : e.capacity ≤ e.inFlight.length := by
  unfold offer at h
  split at h
  · next hfull => exact hfull
  · cases h

namespace Bridge

variable {σ : Type} [LatencyModel σ]

/-- The clock counts the steps of a run. -/
theorem after_cycle (b : Bridge σ) (calls : List Call) :
    (b.after calls).cycle = b.cycle + calls.count .advance := by
  induction calls using List.reverseRecOn with
  | nil => rfl
  | append_singleton calls c ih =>
      rw [List.count_append]
      by_cases hc : c = .advance
      · subst hc
        rw [after_advance, advance_now, ih, List.count_singleton_self, Nat.add_assoc]
      · obtain ⟨-, -, -, hclock⟩ := (b.after calls).perform_quiet hc
        rw [after_append, after_cons, after_nil, cycle, hclock, ← cycle, ih,
          List.count_singleton, if_neg (by simpa using hc), Nat.add_zero]

/-- A run that submits nothing gets nothing accepted. -/
theorem course_accepted_of_quiet (b : Bridge σ) (calls : List Call) {more : List Call}
    (h : ∀ c ∈ more, c.submission? = none) :
    (b.course (calls ++ more)).accepted = (b.course calls).accepted := by
  induction more using List.reverseRecOn with
  | nil => rw [List.append_nil]
  | append_singleton more c ih =>
      have hc : c.submission? = none := h c (by simp)
      have hmore : ∀ c ∈ more, c.submission? = none :=
        fun d hd => h d (List.mem_append_left _ hd)
      rw [← List.append_assoc, course_snoc, Course.extend, acceptedBy, hc, List.append_nil,
        ih hmore]

/-- In the frontend's turn an empty engine takes the head of the line. -/
theorem advance_forwarded_ne_nil {b : Bridge σ} (hcapacity : 0 < b.engine.capacity)
    (hturn : b.clock.engineRatio.toNat ∣ b.cycle + 1) (hempty : b.engine.inFlight = [])
    (hwaits : b.frontend.pending ≠ []) : b.advance.forwarded ≠ [] := by
  have hfires : b.stepClock.clock.firing.frontend = true :=
    (b.clock.firingAt_frontend _).mpr hturn
  rw [advance_forwarded, passFrontend, if_pos hfires]
  change (Frontend.forward b.frontend.pending b.engine).1 ≠ []
  obtain ⟨r, rest, hpending⟩ := List.exists_cons_of_ne_nil hwaits
  rw [hpending]
  rcases ho : b.engine.offer r with ⟨_ | f, e⟩
  · have hfull := Engine.full_of_refused ho
    rw [hempty, List.length_nil] at hfull
    omega
  · simp [Frontend.forward, ho]

/-- In how many cycles of the bridge every flight leaves the engine, if `bound` is the largest
latency. -/
def longestStay (b : Bridge σ) (bound : Nat) : Nat := b.clock.frontendRatio.toNat * max bound 1

section Bounded

variable {b : Bridge σ} (hb : b.IsNew) {bound : Nat}
include hb

/-- Each accepted request waits or has entered the engine. -/
theorem length_entries (calls : List Call) :
    (b.entries calls).length + (b.after calls).frontend.pending.length =
      (b.course calls).accepted.length := by
  rw [(course_conserved hb calls).length_accepted, ← entries_flights, List.length_map,
    course_bridge]

/-- While nothing is submitted, the line in the frontend loses what enters the engine. -/
theorem length_entries_of_quiet (calls : List Call) {more : List Call}
    (h : ∀ c ∈ more, c.submission? = none) :
    (b.entries (calls ++ more)).length + (b.after (calls ++ more)).frontend.pending.length =
      (b.entries calls).length + (b.after calls).frontend.pending.length := by
  rw [length_entries hb, length_entries hb, course_accepted_of_quiet b calls h]

variable (hbound : Always b.engine.model (·.toNat ≤ bound))
include hbound

/-- What is in flight has entered within the longest stay. -/
theorem exists_recent_entry (calls : List Call) {f : Flight}
    (hf : f ∈ (b.after calls).engine.inFlight) :
    ∃ p ∈ b.entries calls, (b.after calls).cycle < p.cycle - 1 + b.longestStay bound := by
  obtain ⟨p, hp, -, hleaves⟩ := exists_entry_of_inFlight hb calls hf
  refine ⟨p, hp, ?_⟩
  obtain ⟨-, -, hdue⟩ := (scheduled hb calls).entered p hp
  have hlatency : p.flight.latency.toNat ≤ bound := latency_of_entry hbound calls hp
  have hlast : (b.after calls).cycle / b.clock.frontendRatio.toNat <
      (p.cycle - 1) / b.clock.frontendRatio.toNat + max bound 1 := by
    have hclamp := Word.clamp_le_self
      ((p.cycle - 1) / b.clock.frontendRatio.toNat + p.flight.latency.toNat)
    rw [← after_turns hb calls]
    rw [Passage.leaves, hdue] at hleaves
    omega
  have hentry := Nat.mul_div_le (p.cycle - 1) b.clock.frontendRatio.toNat
  rw [Nat.div_lt_iff_lt_mul b.clock.frontendRatio_pos, Nat.mul_comm, Nat.mul_add] at hlast
  rw [longestStay]
  omega

/-- Where nothing enters for the longest stay, the engine is empty. -/
theorem inFlight_eq_nil {calls more : List Call}
    (hentries : b.entries (calls ++ more) = b.entries calls)
    (hlong : b.longestStay bound ≤ more.count .advance) :
    (b.after (calls ++ more)).engine.inFlight = [] := by
  apply List.eq_nil_iff_forall_not_mem.mpr
  intro f hf
  obtain ⟨p, hp, hrecent⟩ := exists_recent_entry hb hbound (calls ++ more) hf
  rw [hentries] at hp
  obtain ⟨hpos, hle, -⟩ := (scheduled hb calls).entered p hp
  rw [after_append, after_cycle] at hrecent
  omega

variable (hcapacity : 0 < b.engine.capacity)
include hcapacity

omit hbound in
theorem after_capacity_pos (calls : List Call) : 0 < (b.after calls).engine.capacity := by
  rw [← course_bridge, (course_sameSettings hb calls).capacity]
  exact hcapacity

/-- If the engine was driven for the longest stay and the frontend's turn comes next, a request has
entered since or enters now. -/
theorem length_entries_lt {calls front : List Call} (hquiet : ∀ c ∈ front, c.submission? = none)
    (hwaits : (b.after calls).frontend.pending ≠ [])
    (hlong : b.longestStay bound ≤ front.count .advance)
    (hturn : b.clock.engineRatio.toNat ∣ (b.after (calls ++ front)).cycle + 1) :
    (b.entries calls).length < (b.entries (calls ++ front ++ [.advance])).length := by
  have hgrown : b.entries calls <+: b.entries (calls ++ front) := b.prefix_passages_append _ _ _
  rw [entries_advance, List.length_append, List.length_map]
  by_cases hsame : b.entries (calls ++ front) = b.entries calls
  · have hempty := inFlight_eq_nil hb hbound hsame hlong
    have hline := length_entries_of_quiet hb calls hquiet
    rw [hsame] at hline
    have hwaits' : (b.after (calls ++ front)).frontend.pending ≠ [] := by
      apply List.ne_nil_of_length_pos
      have hpos := List.length_pos_of_ne_nil hwaits
      omega
    rw [← after_engineRatio hb (calls ++ front)] at hturn
    have hnew := List.length_pos_of_ne_nil (advance_forwarded_ne_nil
      (after_capacity_pos hb hcapacity (calls ++ front)) hturn hempty hwaits')
    rw [hsame]
    omega
  · have hne : (b.entries calls).length ≠ (b.entries (calls ++ front)).length :=
      fun hlen => hsame (hgrown.eq_of_length hlen).symm
    have hle := hgrown.length_le
    omega

/-- In a window of the longest stay and one turn of the frontend, the line in the frontend grows
shorter. -/
theorem exists_shorter {calls more : List Call} (hquiet : ∀ c ∈ more, c.submission? = none)
    (hwaits : (b.after calls).frontend.pending ≠ [])
    (hlong : b.longestStay bound + b.clock.engineRatio.toNat ≤ more.count .advance) :
    ∃ front back, more = front ++ back ∧
      front.count .advance ≤ b.longestStay bound + b.clock.engineRatio.toNat ∧
      (b.after (calls ++ front)).frontend.pending.length <
        (b.after calls).frontend.pending.length := by
  obtain ⟨turn, hdvd, hlt, hle⟩ := exists_turn ((b.after calls).cycle + b.longestStay bound)
    b.clock.engineRatio_pos
  have hcut : turn - (b.after calls).cycle - 1 < more.count .advance := by omega
  obtain ⟨front, back, rfl, hcount⟩ := Call.exists_step hcut
  have hturn : (b.after (calls ++ front)).cycle + 1 = turn := by
    rw [after_append, after_cycle, hcount]
    omega
  have hfront : ∀ c ∈ front, c.submission? = none :=
    fun c hc => hquiet c (List.mem_append_left _ hc)
  have hwindow : ∀ c ∈ front ++ [.advance], c.submission? = none := by
    intro c hc
    apply hquiet
    rw [List.append_cons]
    exact List.mem_append_left _ hc
  have hgrown := length_entries_lt hb hbound hcapacity hfront hwaits (by omega) (hturn ▸ hdvd)
  have hline := length_entries_of_quiet hb calls hwindow
  rw [List.append_assoc] at hgrown
  refine ⟨front ++ [.advance], back, List.append_cons _ _ _, ?_, ?_⟩
  · rw [List.count_append, List.count_singleton_self]
    omega
  · omega

/-- As many windows as requests wait empty the line in the frontend. -/
theorem exists_pending_eq_nil {calls more : List Call} {n : Nat}
    (hquiet : ∀ c ∈ more, c.submission? = none)
    (hline : (b.after calls).frontend.pending.length ≤ n)
    (hlong : n * (b.longestStay bound + b.clock.engineRatio.toNat) ≤ more.count .advance) :
    ∃ front back, more = front ++ back ∧
      front.count .advance ≤ n * (b.longestStay bound + b.clock.engineRatio.toNat) ∧
      (b.after (calls ++ front)).frontend.pending = [] := by
  induction n generalizing calls more with
  | zero =>
      have hnone := List.length_eq_zero_iff.mp (Nat.le_zero.mp hline)
      exact ⟨[], more, rfl, Nat.zero_le _, by rwa [List.append_nil]⟩
  | succ n ih =>
      by_cases hwaits : (b.after calls).frontend.pending = []
      · exact ⟨[], more, rfl, Nat.zero_le _, by rwa [List.append_nil]⟩
      · rw [Nat.succ_mul] at hlong ⊢
        obtain ⟨front, back, rfl, hwindow, hshorter⟩ :=
          exists_shorter hb hbound hcapacity hquiet hwaits (by omega)
        rw [List.count_append] at hlong
        have hback : ∀ c ∈ back, c.submission? = none :=
          fun c hc => hquiet c (List.mem_append_right _ hc)
        have hrest : (b.after (calls ++ front)).frontend.pending.length ≤ n := by omega
        obtain ⟨front', back', rfl, hwindows, hnone⟩ := ih hback hrest (by omega)
        refine ⟨front ++ front', back', (List.append_assoc _ _ _).symm, ?_, ?_⟩
        · rw [List.count_append]
          omega
        · rwa [← List.append_assoc]

/-- Once the line is empty, one longest stay empties the engine. -/
theorem idle_of_quiet {calls more : List Call} (hquiet : ∀ c ∈ more, c.submission? = none)
    (hlong : (b.after calls).frontend.pending.length *
      (b.longestStay bound + b.clock.engineRatio.toNat) + b.longestStay bound ≤
        more.count .advance) :
    (b.after (calls ++ more)).frontend.pending = [] ∧
      (b.after (calls ++ more)).engine.inFlight = [] := by
  have hline := Nat.le_refl (b.after calls).frontend.pending.length
  obtain ⟨front, back, rfl, hwindows, hnone⟩ :=
    exists_pending_eq_nil hb hbound hcapacity hquiet hline (by omega)
  rw [List.count_append] at hlong
  rw [← List.append_assoc]
  have hback : ∀ c ∈ back, c.submission? = none :=
    fun c hc => hquiet c (List.mem_append_right _ hc)
  have hgrown : b.entries (calls ++ front) <+: b.entries (calls ++ front ++ back) :=
    b.prefix_passages_append _ _ _
  have hline' := length_entries_of_quiet hb (calls ++ front) hback
  rw [hnone, List.length_nil] at hline'
  have hle := hgrown.length_le
  constructor
  · apply List.eq_nil_of_length_eq_zero
    omega
  · have hsame : (b.entries (calls ++ front)).length =
        (b.entries (calls ++ front ++ back)).length := by
      omega
    exact inFlight_eq_nil hb hbound (hgrown.eq_of_length hsame).symm (by omega)

end Bounded

/-- Every accepted access is served. Take any run of a new bridge whose engine has room for a
request, let no latency that its model answers be larger than `bound` (for a row buffer all three
timings together), and go on without submissions, with drains anywhere. For each request that waits
in the frontend it takes the longest stay of a flight and one turn of the frontend, and then one
stay more: after that many steps of the clock nothing waits, nothing is in flight, each accepted
request was served once, and the replies, drained or waiting, are those of all accepted reads. A due
cycle held at the largest word does not matter, it only comes sooner. -/
theorem every_access_is_served :
    (∀ m : FixedLatency, Always (Controller.fixed m) (·.toNat ≤ m.latency.toNat)) ∧
    (∀ m : RowBuffer,
      Always (Controller.rowBuffer m) (·.toNat ≤ m.tPre.toNat + m.tRas.toNat + m.tCas.toNat)) ∧
    ∀ {σ : Type} [LatencyModel σ] {b : Bridge σ} {bound : Nat}, b.IsNew →
      0 < b.engine.capacity → Always b.engine.model (·.toNat ≤ bound) →
      ∀ calls more : List Call, (∀ c ∈ more, c.submission? = none) →
        let stay := b.clock.frontendRatio.toNat * max bound 1
        (b.after calls).frontend.pending.length * (stay + b.clock.engineRatio.toNat) + stay ≤
          more.count .advance →
        let k := b.course (calls ++ more)
        let s := b.after (calls ++ more)
        s.frontend.pending = [] ∧ s.engine.inFlight = [] ∧
        k.accepted = (b.course calls).accepted ∧
        (k.served.map (·.request)).Perm (k.accepted.map (·.access.request)) ∧
        (k.delivered.map (·.reply.addr) ++ s.replies.waiting.map (·.addr)).Perm
          ((k.accepted.filter (·.access.kind = .read)).map (·.access.addr)) := by
  refine ⟨?_, always_rowBuffer_controller, ?_⟩
  · intro m addrs answer hanswer
    exact Nat.le_of_eq (congrArg UInt64.toNat (always_fixed_controller m addrs answer hanswer))
  · intro σ _ b bound hb hcapacity hbound calls more hquiet stay hlong k s
    obtain ⟨hpending, hinFlight⟩ := idle_of_quiet hb hbound hcapacity hquiet hlong
    have hc : k.Conserved := course_conserved hb (calls ++ more)
    have hs : k.bridge = s := course_bridge b (calls ++ more)
    change s.frontend.pending = [] at hpending
    change s.engine.inFlight = [] at hinFlight
    clear_value s
    subst hs
    exact ⟨hpending, hinFlight, course_accepted_of_quiet b calls hquiet,
      hc.served_of_idle hpending hinFlight, hc.replies_of_idle hpending hinFlight⟩

/-- A row buffer with three timings of one cycle: of two requests, one waits for the frontend's turn
behind the other, and thirteen steps of the clock see both through. -/
theorem every_access_is_served_small :
    let b := small (Controller.rowBuffer (RowBuffer.ofTimings 1 1 1)) .track
    let calls := [.submit ⟨1, .write, 0⟩ 5, .submit ⟨1, .read, 0⟩ 0]
    let more := .drain :: List.replicate 13 .advance
    b.IsNew ∧ 0 < b.engine.capacity ∧ Always b.engine.model (·.toNat ≤ 3) ∧
      (∀ c ∈ more, c.submission? = none) ∧
      (b.after calls).frontend.pending.length * (1 * max 3 1 + 2) + 1 * max 3 1 ≤
        more.count .advance ∧
      (b.after (calls ++ more)).frontend.pending = [] ∧
      (b.after (calls ++ more)).engine.inFlight = [] ∧
      ((b.course (calls ++ more)).served.map (·.request)).Perm
        [Access.request ⟨1, .write, 0⟩, Access.request ⟨1, .read, 0⟩] := by
  intro b calls more
  have hnew : b.IsNew := small_isNew _ _
  obtain ⟨-, hmodels, hruns⟩ := every_access_is_served
  have hmodel : Always b.engine.model (·.toNat ≤ 3) := hmodels (RowBuffer.ofTimings 1 1 1)
  have hquiet : ∀ c ∈ more, c.submission? = none := by decide
  have hlong : (b.after calls).frontend.pending.length * (1 * max 3 1 + 2) + 1 * max 3 1 ≤
      more.count .advance := by decide
  obtain ⟨hpending, hinFlight, haccepted, hserved, -⟩ :=
    hruns hnew (by decide) hmodel calls more hquiet hlong
  refine ⟨hnew, by decide, hmodel, hquiet, hlong, hpending, hinFlight, ?_⟩
  rw [haccepted] at hserved
  exact hserved

end Bridge

end CycleBridge
