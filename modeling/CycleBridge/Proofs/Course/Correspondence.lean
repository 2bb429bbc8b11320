import CycleBridge.Proofs.Course.Conservation

/-!
# The ledger and the outstanding work

Under the track and the reject rule the ledger holds one open access for each request that waits in
the frontend, is in flight, or left a reply that was not drained yet. So no drain misses its open
read, and under the reject rule an address is closed only while work at it is outstanding.
-/

namespace CycleBridge

/-- What the ledger knows of an access: its address and its kind. -/
def Access.key (a : Access) : Word × AccessKind := (a.addr, a.kind)

/-- A served list of flights is made up of its reads and its writes. -/
theorem Flight.keys_perm (flights : List Flight) :
    (flights.map (·.request.key)).Perm
      (((writes flights).map (·.request.addr)).map (·, .write) ++
        (reads flights).map fun f => (f.request.addr, .read)) := by
  induction flights with
  | nil => rfl
  | cons f rest ih =>
      simp only [reads, writes, List.filter_cons, List.map_cons, Access.key] at ih ⊢
      cases hk : f.request.kind with
      | read => simpa using (ih.cons _).trans List.perm_middle.symm
      | write => simpa using ih

namespace Bridge

variable {σ : Type}

/-- Address and kind of all that is under way: the requests that wait in the frontend, those in
flight, and the reads whose replies were not drained. -/
def work (b : Bridge σ) : List (Word × AccessKind) :=
  b.frontend.pending.map (·.key) ++ b.engine.inFlight.map (·.request.key) ++
    b.replies.waiting.map fun r => (r.addr, .read)

theorem work_accept (b : Bridge σ) (a : Access) (data : Word) :
    (b.accept a data).work.Perm (a.key :: b.work) := by
  simp only [work, accept_frontend, accept_engine, accept_replies, Frontend.enqueue,
    List.map_append, List.map_singleton, List.append_assoc, List.singleton_append]
  exact List.perm_middle

theorem work_driveFrontend [LatencyModel σ] (b : Bridge σ) :
    b.driveFrontend.2.work.Perm b.work := by
  have hin := b.driveFrontend_takes.inFlight.map (·.request.key)
  have hreq := congrArg (List.map (·.key)) b.driveFrontend_requests
  have hwaiting : b.driveFrontend.2.replies = b.replies := rfl
  simp only [List.map_append, List.map_map] at hin hreq
  rw [work, work, ← hreq, hwaiting]
  apply List.perm_iff_count.mpr
  intro x
  have hx := hin.count_eq x
  simp only [List.count_append, Function.comp_def] at hx ⊢
  omega

theorem work_drain (b : Bridge σ) {r : Reply} {rest : List Reply}
    (waiting : b.replies.waiting = r :: rest) :
    b.work.Perm ((r.addr, .read) :: { b with replies := ⟨rest⟩ }.work) := by
  simp only [work, waiting, List.map_cons]
  exact List.perm_middle

/-- What the engine serves is no work any more, but for the reads, which leave their replies. -/
theorem work_driveEngine (b : Bridge σ) (h : ∀ f ∈ b.driveEngine.1, f.request.Standard) :
    b.work.Perm
      (((Flight.writes b.driveEngine.1).map (·.request.addr)).map (·, .write) ++
        b.driveEngine.2.2.work) := by
  have hin := congrArg (List.map (·.request.key)) b.driveEngine_inFlight
  have hserved := Flight.keys_perm b.driveEngine.1
  have hreplies := congrArg (List.map fun r => (r.addr, AccessKind.read)) (b.driveEngine_replies h)
  have hpending : b.driveEngine.2.2.frontend = b.frontend := rfl
  simp only [List.map_append, List.map_map] at hin hreplies
  rw [work, work, ← hin, hreplies, hpending]
  apply List.perm_iff_count.mpr
  intro x
  have hx := hserved.count_eq x
  simp only [List.count_append, List.map_map] at hx ⊢
  simp only [Function.comp_def] at hx ⊢
  omega

end Bridge

namespace Course

variable {σ : Type}

/-- The ledger and the outstanding work agree, and no drain missed its open read. -/
structure Matched (k : Course σ) : Prop where
  tidy : k.bridge.ledger.Tidy
  keys : k.bridge.ledger.keys.Perm k.bridge.work
  unmatched : k.bridge.counts.repliesUnmatched = 0
  delivered : ∀ d ∈ k.delivered, d.latency.isSome

theorem matched_of_isNew {b : Bridge σ} (hb : b.IsNew) : Matched { bridge := b } := by
  obtain ⟨clock, ratio, ratio', depth, capacity, model, rule, rfl⟩ := hb.exists_eq
  exact ⟨Ledger.tidy_empty rule, .refl _, rfl, by simp⟩

/-- The oldest reply finds its open read. -/
theorem Matched.settle?_ne_none {k : Course σ} (h : k.Matched) {r : Reply} {rest : List Reply}
    (waiting : k.bridge.replies.waiting = r :: rest) :
    k.bridge.ledger.settle? r.addr .read ≠ none := by
  have hwork : (r.addr, AccessKind.read) ∈ k.bridge.work := by
    simp [Bridge.work, waiting]
  obtain ⟨i, m, hs⟩ := Ledger.exists_settle? h.tidy (h.keys.symm.subset hwork)
  simp [hs]

theorem matched_move [LatencyModel σ] {k k' : Course σ} (hc : k.Conserved)
    (hr : k.bridge.ledger.rule ≠ .overwrite) (h : k.Matched) (hm : Move k k') : k'.Matched := by
  cases hm with
  | accept a data allowed room =>
      constructor
      · simpa using h.tidy.enter a.addr k.bridge.cycle a.kind
      · have hkeys := Ledger.keys_enter h.tidy hr a.addr k.bridge.cycle a.kind
        rw [Bridge.accept_ledger]
        exact (hkeys.trans (h.keys.cons _)).trans (k.bridge.work_accept a data).symm
      · simpa [k.bridge.accept_counts] using h.unmatched
      · exact h.delivered
  | refuseOverlap => exact { h with }
  | refuseFull => exact { h with }
  | stepClock => exact { h with }
  | transfer => exact { h with keys := h.keys.trans k.bridge.work_driveFrontend.symm }
  | serve =>
      have hs := hc.standard_of_mem_served
      refine { h with tidy := ?_, keys := ?_ }
      · rw [k.bridge.driveEngine_ledger hs]
        exact h.tidy.retireAll _
      · rw [k.bridge.driveEngine_ledger hs]
        exact Ledger.keys_retireAll h.tidy (h.keys.trans (k.bridge.work_driveEngine hs))
  | settle r rest i m waiting settled =>
      constructor
      · exact h.tidy.settle? settled
      · have hkeys := (Ledger.keys_settle? h.tidy settled).symm.trans h.keys
        exact (hkeys.trans (k.bridge.work_drain waiting)).cons_inv
      · exact h.unmatched
      · intro d hd
        rcases List.mem_append.mp hd with hd | hd
        · exact h.delivered d hd
        · rw [List.mem_singleton.mp hd]
          rfl
  | miss r rest waiting unsettled =>
      exact absurd unsettled (h.settle?_ne_none waiting)

/-- The reject rule closes an address exactly while there is work at it. -/
theorem Matched.allows_eq_false_iff {k : Course σ} (h : k.Matched)
    (hr : k.bridge.ledger.rule = .reject) (a : Word) :
    k.bridge.ledger.allows a = false ↔ ∃ w ∈ k.bridge.work, w.1 = a := by
  have hopen := Ledger.openCount_eq_zero_iff h.tidy a
  simp only [Ledger.allows, hr, ne_eq, not_true_eq_false, false_or, decide_eq_false_iff_not, hopen,
    not_forall, not_not]
  constructor
  · rintro ⟨w, hw, ha⟩
    exact ⟨w, h.keys.subset hw, ha⟩
  · rintro ⟨w, hw, ha⟩
    exact ⟨w, h.keys.symm.subset hw, ha⟩

end Course

namespace Bridge

variable {σ : Type} [LatencyModel σ] {b : Bridge σ}

theorem course_matched (hb : b.IsNew) (hr : b.ledger.rule ≠ .overwrite) (calls : List Call) :
    (b.course calls).Matched := by
  apply course_induction hb (Course.matched_of_isNew hb)
  intro k k' hc hs h hm
  have hrule : k.bridge.ledger.rule ≠ .overwrite := by rwa [hs.rule]
  exact Course.matched_move hc hrule h hm

omit [LatencyModel σ] in
theorem count_work (b : Bridge σ) (a : Word) (kind : AccessKind) :
    b.work.count (a, kind) =
      b.frontend.pending.countP (fun r => r.addr = a ∧ r.kind = kind) +
        b.engine.inFlight.countP (fun f => f.request.addr = a ∧ f.request.kind = kind) +
        if kind = .read then b.replies.waiting.countP (·.addr = a) else 0 := by
  have hreplies : (b.replies.waiting.map fun r => (r.addr, AccessKind.read)).count (a, kind) =
      if kind = .read then b.replies.waiting.countP (·.addr = a) else 0 := by
    rw [List.count_eq_countP, List.countP_map]
    split
    · next hk =>
        apply List.countP_congr
        intro r _
        simp [hk]
    · next hk =>
        apply List.countP_eq_zero.mpr
        intro r _
        simp [Ne.symm hk]
  rw [work, List.count_append, List.count_append, hreplies]
  simp only [List.count_eq_countP, List.countP_map]
  congr 2 <;> exact List.countP_congr fun r _ => by simp [Access.key]

omit [LatencyModel σ] in
theorem mem_work_iff (b : Bridge σ) (a : Word) (kind : AccessKind) :
    (a, kind) ∈ b.work ↔
      (∃ r ∈ b.frontend.pending, r.addr = a ∧ r.kind = kind) ∨
        (∃ f ∈ b.engine.inFlight, f.request.addr = a ∧ f.request.kind = kind) ∨
          kind = .read ∧ ∃ r ∈ b.replies.waiting, r.addr = a := by
  simp only [work, Access.key, List.mem_append, List.mem_map, Prod.mk.injEq, or_assoc]
  refine or_congr .rfl (or_congr .rfl ?_)
  constructor
  · rintro ⟨r, hr, rfl, rfl⟩
    exact ⟨rfl, r, hr, rfl⟩
  · rintro ⟨rfl, r, hr, rfl⟩
    exact ⟨r, hr, rfl, rfl⟩

omit [LatencyModel σ] in
theorem exists_work_iff (b : Bridge σ) (a : Word) :
    (∃ w ∈ b.work, w.1 = a) ↔
      (∃ r ∈ b.frontend.pending, r.addr = a) ∨ (∃ f ∈ b.engine.inFlight, f.request.addr = a) ∨
        ∃ r ∈ b.replies.waiting, r.addr = a := by
  simp only [work, Access.key, List.mem_append, List.mem_map]
  constructor
  · rintro ⟨w, (⟨r, hr, rfl⟩ | ⟨f, hf, rfl⟩) | ⟨r, hr, rfl⟩, rfl⟩
    · exact .inl ⟨r, hr, rfl⟩
    · exact .inr (.inl ⟨f, hf, rfl⟩)
    · exact .inr (.inr ⟨r, hr, rfl⟩)
  · rintro (⟨r, hr, rfl⟩ | ⟨f, hf, rfl⟩ | ⟨r, hr, rfl⟩)
    · exact ⟨_, .inl (.inl ⟨r, hr, rfl⟩), rfl⟩
    · exact ⟨_, .inl (.inr ⟨f, hf, rfl⟩), rfl⟩
    · exact ⟨_, .inr ⟨r, hr, rfl⟩, rfl⟩

theorem allows_eq_false_iff (hb : b.IsNew) (hr : b.ledger.rule = .reject) (calls : List Call)
    (a : Word) :
    (b.after calls).ledger.allows a = false ↔ ∃ w ∈ (b.after calls).work, w.1 = a := by
  have hm := course_matched hb (by simp [hr]) calls
  have hs := course_sameSettings hb calls
  rw [← course_bridge]
  exact hm.allows_eq_false_iff (hs.rule.trans hr) a

theorem perform_drain (b : Bridge σ) :
    let s := (b.perform .drain).bridge
    s.frontend = b.frontend ∧ s.engine = b.engine ∧
      s.replies.waiting = b.replies.waiting.tail := by
  cases hw : b.replies.waiting with
  | nil => simp [perform, drain?, ReplyQueue.pop?, hw]
  | cons r rest =>
      cases hs : b.ledger.settle? r.addr .read <;>
        simp [perform, drain?, ReplyQueue.pop?, hw, hs]

/-- Drains change nothing of what waits in the frontend or is in flight. -/
theorem after_drains (b : Bridge σ) (n : Nat) :
    let s := b.after (List.replicate n .drain)
    s.frontend = b.frontend ∧ s.engine = b.engine ∧
      s.replies.waiting = b.replies.waiting.drop n := by
  induction n generalizing b with
  | zero => exact ⟨rfl, rfl, rfl⟩
  | succ n ih =>
      obtain ⟨hfront, hengine, hwaiting⟩ := b.perform_drain
      obtain ⟨hfront', hengine', hwaiting'⟩ := ih (b.perform .drain).bridge
      rw [hwaiting, List.drop_tail] at hwaiting'
      exact ⟨hfront'.trans hfront, hengine'.trans hengine, hwaiting'⟩

/-- Under the reject rule the replies are the last that keeps an address closed: where no request
for it waits or is in flight, draining opens it. -/
theorem allows_of_drained (hb : b.IsNew) (hr : b.ledger.rule = .reject) (calls : List Call)
    (a : Word) :
    let s := b.after calls
    (∀ r ∈ s.frontend.pending, r.addr ≠ a) → (∀ f ∈ s.engine.inFlight, f.request.addr ≠ a) →
      (s.after (List.replicate s.replies.size .drain)).ledger.allows a = true := by
  intro s hpending hflight
  obtain ⟨hfront, hengine, hwaiting⟩ := s.after_drains s.replies.size
  have hiff := allows_eq_false_iff hb hr (calls ++ List.replicate s.replies.size .drain) a
  rw [after_append, exists_work_iff, hfront, hengine, hwaiting, ReplyQueue.size,
    List.drop_length] at hiff
  apply Bool.of_not_eq_false
  intro hclosed
  rcases hiff.mp hclosed with ⟨r, hr, ha⟩ | ⟨f, hf, ha⟩ | ⟨r, hr, _⟩
  · exact hpending r hr ha
  · exact hflight f hf ha
  · exact List.not_mem_nil hr

end Bridge

end CycleBridge
