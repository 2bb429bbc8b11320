import CycleBridge.Proofs.Course.Dates

/-!
# Correlation where accesses displace each other

Under the overwrite rule an accepted access displaces what was open at its address. So an address
has one open access at most, the newest one, and a drain settles a read only where that read was
accepted after all else that happened at its address.
-/

namespace CycleBridge

namespace Occurrence

/-- The access that an occurrence accepts, if it accepts one. -/
def submission? : Occurrence → Option Submission
  | .accepted s => some s
  | .drained _ => none

/-- The read that an occurrence accepts, if it accepts one. -/
def read? (o : Occurrence) : Option Submission :=
  o.submission?.filter (·.access.kind = .read)

theorem read?_eq_some_iff {o : Occurrence} {r : Submission} :
    o.read? = some r ↔ o = .accepted r ∧ r.access.kind = .read := by
  cases o with
  | accepted s =>
      simp only [read?, submission?, Option.filter_eq_some_iff, Option.some.injEq, accepted.injEq,
        decide_eq_true_iff]
  | drained d => simp [read?, submission?]

end Occurrence

/-- The last that happened at an address. -/
def latestAt (journal : List Occurrence) (a : Word) : Option Occurrence :=
  (journal.filter (·.addr = a)).getLast?

theorem latestAt_snoc (journal : List Occurrence) (o : Occurrence) (a : Word) :
    latestAt (journal ++ [o]) a = if o.addr = a then some o else latestAt journal a := by
  by_cases ha : o.addr = a <;> simp [latestAt, ha]

theorem latestAt_eq_some_iff {journal : List Occurrence} {a : Word} {o : Occurrence} :
    latestAt journal a = some o ↔
      ∃ before later, journal = before ++ o :: later ∧ o.addr = a ∧ ∀ p ∈ later, p.addr ≠ a := by
  rw [latestAt, List.getLast?_eq_some_iff]
  constructor
  · rintro ⟨front, hfront⟩
    obtain ⟨before, rest, rfl, -, hrest⟩ := List.filter_eq_append_iff.mp hfront
    obtain ⟨middle, later, rfl, -, ho, hlater⟩ := List.filter_eq_cons_iff.mp hrest
    refine ⟨before ++ middle, later, by simp, of_decide_eq_true ho, ?_⟩
    simpa using hlater
  · rintro ⟨before, later, rfl, ho, hlater⟩
    have hnone : later.filter (·.addr = a) = [] := by simpa using hlater
    exact ⟨before.filter (·.addr = a), by simp [ho, hnone]⟩

/-- The read at an address after whose acceptance nothing happened there. -/
def freshRead? (journal : List Occurrence) (a : Word) : Option Submission :=
  (latestAt journal a).bind Occurrence.read?

theorem freshRead?_accepted (journal : List Occurrence) (s : Submission) (a : Word) :
    freshRead? (journal ++ [.accepted s]) a =
      if s.access.addr = a then if s.access.kind = .read then some s else none
      else freshRead? journal a := by
  rw [freshRead?, latestAt_snoc, Occurrence.addr]
  split
  · simp [Occurrence.read?, Occurrence.submission?, Option.filter]
  · rfl

theorem freshRead?_drained (journal : List Occurrence) (d : Delivery) (a : Word) :
    freshRead? (journal ++ [.drained d]) a =
      if d.reply.addr = a then none else freshRead? journal a := by
  rw [freshRead?, latestAt_snoc, Occurrence.addr]
  split <;> rfl

theorem freshRead?_eq_some_iff {journal : List Occurrence} {a : Word} {r : Submission} :
    freshRead? journal a = some r ↔
      ∃ before later, journal = before ++ .accepted r :: later ∧ r.access.addr = a ∧
        r.access.kind = .read ∧ ∀ p ∈ later, p.addr ≠ a := by
  simp only [freshRead?, Option.bind_eq_some_iff, Occurrence.read?_eq_some_iff]
  constructor
  · rintro ⟨_, hlatest, rfl, hread⟩
    obtain ⟨before, later, hsplit, haddr, hlater⟩ := latestAt_eq_some_iff.mp hlatest
    exact ⟨before, later, hsplit, haddr, hread, hlater⟩
  · rintro ⟨before, later, hsplit, haddr, hread, hlater⟩
    exact ⟨_, latestAt_eq_some_iff.mpr ⟨before, later, hsplit, haddr, hlater⟩, rfl, hread⟩

namespace Course

variable {σ : Type}

/-- The access accepted last at an address. -/
def newestAt (k : Course σ) (a : Word) : Option Submission :=
  (k.accepted.filter (·.access.addr = a)).getLast?

/-- The ledger under the overwrite rule: only the newest access of an address can be open, a read
is open only while nothing else happened at its address, and nothing is open without work. -/
structure Displaced (journal : List Occurrence) (k : Course σ) : Prop where
  tidy : k.bridge.ledger.Tidy
  newest : ∀ a, (k.bridge.ledger.issuesAt a).Sublist ((k.newestAt a).toList.map (·.issue))
  reads : ∀ a, k.bridge.ledger.queueAt a .read = (freshRead? journal a).toList.map (·.issue)
  live : ∀ a, ∀ i ∈ k.bridge.ledger.issuesAt a, (a, i.kind) ∈ k.bridge.work

theorem displaced_of_isNew {b : Bridge σ} (hb : b.IsNew) : Displaced [] { bridge := b } := by
  obtain ⟨clock, ratio, ratio', depth, capacity, model, rule, rfl⟩ := hb.exists_eq
  exact ⟨Ledger.tidy_empty rule, by simp [Ledger.issuesAt], fun a => rfl, by simp [Ledger.issuesAt]⟩

variable {journal : List Occurrence} {k : Course σ}

theorem Displaced.length_issuesAt_le (h : k.Displaced journal) (a : Word) :
    (k.bridge.ledger.issuesAt a).length ≤ 1 := by
  refine (h.newest a).length_le.trans ?_
  cases k.newestAt a <;> simp

/-- Where a kind is open at an address, a settled access leaves none behind it. -/
theorem Displaced.queueAt_eq_nil (h : k.Displaced journal) {a : Word} {kind : AccessKind}
    {i : Issue} {rest : List Issue} (hq : k.bridge.ledger.queueAt a kind = i :: rest) :
    rest = [] := by
  have hle : (k.bridge.ledger.queueAt a kind).length ≤ 1 :=
    (List.length_filter_le _ _).trans (h.length_issuesAt_le a)
  rw [hq, List.length_cons] at hle
  exact List.eq_nil_of_length_eq_zero (by omega)

theorem Displaced.keys_eq_nil (h : k.Displaced journal) (hnone : k.bridge.work = []) :
    k.bridge.ledger.keys = [] := by
  apply List.eq_nil_iff_forall_not_mem.mpr
  rintro ⟨a, kind⟩ hkey
  obtain ⟨i, hi, -⟩ := (Ledger.mem_keys_iff h.tidy).mp hkey
  have hwork := h.live a i hi
  rw [hnone] at hwork
  exact List.not_mem_nil hwork

theorem newestAt_accept (k : Course σ) (a : Access) (data x : Word) :
    (k.accept a data).newestAt x =
      if a.addr = x then some ⟨a, data, k.bridge.cycle⟩ else k.newestAt x := by
  by_cases hx : a.addr = x <;> simp [newestAt, hx]

theorem displaced_accept (h : k.Displaced journal) (hr : k.bridge.ledger.rule = .overwrite)
    (a : Access) (data : Word) :
    (k.accept a data).Displaced (journal ++ [.accepted ⟨a, data, k.bridge.cycle⟩]) := by
  have hissues : ∀ x, (k.bridge.accept a data).ledger.issuesAt x =
      if x = a.addr then [⟨k.bridge.cycle, a.kind⟩] else k.bridge.ledger.issuesAt x := by
    intro x
    rw [Bridge.accept_ledger, Ledger.issuesAt_enter, if_pos hr, List.nil_append]
  have hwork := k.bridge.work_accept a data
  constructor
  · rw [accept_bridge, Bridge.accept_ledger]
    exact h.tidy.enter a.addr k.bridge.cycle a.kind
  · intro x
    rw [accept_bridge, hissues, newestAt_accept]
    by_cases hx : x = a.addr
    · rw [if_pos hx, if_pos hx.symm]
      exact .refl _
    · rw [if_neg hx, if_neg (Ne.symm hx)]
      exact h.newest x
  · intro x
    rw [accept_bridge, Ledger.queueAt, hissues, freshRead?_accepted]
    by_cases hx : x = a.addr
    · rw [if_pos hx, if_pos hx.symm]
      by_cases hk : a.kind = .read <;> simp [Submission.issue, hk]
    · rw [if_neg hx, if_neg (Ne.symm hx)]
      exact h.reads x
  · intro x i hi
    apply hwork.symm.subset
    rw [accept_bridge, hissues] at hi
    by_cases hx : x = a.addr
    · rw [if_pos hx] at hi
      rw [List.mem_singleton.mp hi, hx]
      exact List.mem_cons_self
    · rw [if_neg hx] at hi
      exact List.mem_cons_of_mem _ (h.live x i hi)

/-- A step of the clock closes a write only together with one that was under way. -/
theorem displaced_advance [LatencyModel σ] (hc : k.Conserved) (h : k.Displaced journal) :
    k.advance.Displaced journal := by
  have hledger := Bridge.advance_ledger hc
  have hwork := Bridge.advance_work hc
  have hsub : ∀ a, (k.bridge.advance.bridge.ledger.issuesAt a).Sublist
      (k.bridge.ledger.issuesAt a) := by
    intro a
    rw [hledger]
    exact k.bridge.ledger.issuesAt_retireAll_sublist _ a
  constructor
  · rw [advance_bridge, hledger]
    exact h.tidy.retireAll _
  · intro a
    exact (hsub a).trans (h.newest a)
  · intro a
    rw [advance_bridge, hledger, Ledger.readsAt_retireAll]
    exact h.reads a
  · rintro a ⟨cycle, kind⟩ hi
    have hold := hwork.subset (h.live a _ ((hsub a).subset hi))
    rcases List.mem_append.mp hold with hserved | hleft
    · -- a write that ended at the address took the only open one with it
      obtain ⟨x, hx, he⟩ := List.mem_map.mp hserved
      obtain ⟨rfl, rfl⟩ := Prod.mk.inj he
      have hqueue : (⟨cycle, .write⟩ : Issue) ∈
          k.bridge.advance.bridge.ledger.queueAt x .write := Ledger.mem_queueAt.mpr ⟨hi, rfl⟩
      have hcount := List.count_pos_iff.mpr hx
      have hle : (k.bridge.ledger.queueAt x .write).length ≤ 1 :=
        (List.length_filter_le _ _).trans (h.length_issuesAt_le x)
      rw [hledger, Ledger.writesAt_retireAll, List.drop_eq_nil_of_le (by omega)] at hqueue
      exact absurd hqueue List.not_mem_nil
    · exact hleft

/-- After a drain no read is open at the address of the reply, whether it settled one or not. -/
theorem Displaced.readsAt_drain (h : k.Displaced journal) {d : Delivery} {b : Bridge σ}
    (drains : k.bridge.Drains d b) (a : Word) : b.ledger.queueAt a .read =
      if d.reply.addr = a then [] else k.bridge.ledger.queueAt a .read := by
  cases hs : k.bridge.ledger.settle? d.reply.addr .read with
  | none =>
      rw [(drains.missed hs).2]
      split
      · next ha => rw [← ha, Ledger.settle?_eq_none_iff.mp hs]
      · rfl
  | some settled =>
      obtain ⟨i, m⟩ := settled
      rw [(drains.settled i m hs).2]
      split
      · next ha =>
          rw [← ha]
          exact h.queueAt_eq_nil (Ledger.queueAt_settle? hs)
      · next ha => exact Ledger.queueAt_settle?_of_ne hs fun he => ha he.1.symm

theorem displaced_drain (h : k.Displaced journal) {d : Delivery} {b : Bridge σ}
    (drains : k.bridge.Drains d b) : (k.drain d b).Displaced (journal ++ [.drained d]) := by
  have hreads := h.readsAt_drain drains
  have hsub := drains.issuesAt_sublist
  constructor
  · exact drains.tidy h.tidy
  · intro a
    exact (hsub a).trans (h.newest a)
  · intro a
    rw [drain_bridge, hreads, freshRead?_drained]
    split
    · rfl
    · exact h.reads a
  · rintro a ⟨cycle, kind⟩ hi
    have hold := drains.work.subset (h.live a _ ((hsub a).subset hi))
    rcases List.mem_cons.mp hold with he | hleft
    · obtain ⟨rfl, rfl⟩ := Prod.mk.inj he
      have hqueue : (⟨cycle, .read⟩ : Issue) ∈ b.ledger.queueAt d.reply.addr .read :=
        Ledger.mem_queueAt.mpr ⟨hi, rfl⟩
      rw [hreads, if_pos rfl] at hqueue
      exact absurd hqueue List.not_mem_nil
    · exact hleft

/-- A drain finds an open read if nothing happened at its address since that read was accepted. -/
theorem Displaced.latency_eq_some_iff (h : k.Displaced journal) {d : Delivery} {b : Bridge σ}
    (drains : k.bridge.Drains d b)
    (hle : ∀ r, freshRead? journal d.reply.addr = some r → r.cycle ≤ k.bridge.cycle) (l : Nat) :
    d.latency = some l ↔
      ∃ r, freshRead? journal d.reply.addr = some r ∧ r.cycle + l = k.bridge.cycle := by
  have hreads := h.reads d.reply.addr
  cases hs : k.bridge.ledger.settle? d.reply.addr .read with
  | none =>
      rw [Ledger.settle?_eq_none_iff.mp hs] at hreads
      rw [(drains.missed hs).1]
      cases hfresh : freshRead? journal d.reply.addr with
      | none => simp
      | some r => simp [hfresh] at hreads
  | some settled =>
      obtain ⟨i, m⟩ := settled
      rw [Ledger.queueAt_settle? hs] at hreads
      rw [(drains.settled i m hs).1]
      cases hfresh : freshRead? journal d.reply.addr with
      | none => simp [hfresh] at hreads
      | some r =>
          have hr := hle r hfresh
          obtain ⟨rfl, -⟩ : i = r.issue ∧ m.queueAt d.reply.addr .read = [] := by
            simpa [hfresh] using hreads
          simp only [Option.some.injEq, exists_eq_left', Submission.issue]
          omega

theorem displaced_step [LatencyModel σ] {k' : Course σ} {news : List Occurrence}
    (hc : k.Conserved) (hr : k.bridge.ledger.rule = .overwrite) (h : k.Displaced journal)
    (hs : k.Step news k') : k'.Displaced (journal ++ news) := by
  cases hs with
  | stay => rwa [List.append_nil]
  | accept a data allowed room => exact displaced_accept h hr a data
  | refuseOverlap =>
      rw [List.append_nil]
      exact { h with }
  | refuseFull =>
      rw [List.append_nil]
      exact { h with }
  | advance =>
      rw [List.append_nil]
      exact displaced_advance hc h
  | drain d b drains => exact displaced_drain h drains

end Course

namespace Bridge

variable {σ : Type} [LatencyModel σ] {b : Bridge σ}

theorem course_displaced (hb : b.IsNew) (hr : b.ledger.rule = .overwrite) (calls : List Call) :
    (b.course calls).Displaced (b.journal calls) := by
  apply journal_induction (I := fun J k => k.Displaced J) (Course.displaced_of_isNew hb)
  intro calls c news h hs
  have hrule := (course_sameSettings hb calls).rule.trans hr
  exact Course.displaced_step (course_conserved hb calls) hrule h hs

theorem journal_accepted (b : Bridge σ) (calls : List Call) :
    (b.journal calls).filterMap Occurrence.submission? = (b.course calls).accepted := by
  apply journal_induction
    (I := fun J k => J.filterMap Occurrence.submission? = k.accepted) rfl
  intro calls c news h hs
  generalize b.course (calls ++ [c]) = k' at hs ⊢
  rw [List.filterMap_append, h]
  cases hs <;> simp [Occurrence.submission?]

/-- No access in the journal is from a later cycle. -/
theorem freshRead?_le (hb : b.IsNew) (calls : List Call) {a : Word} {r : Submission}
    (h : freshRead? (b.journal calls) a = some r) : r.cycle ≤ (b.after calls).cycle := by
  obtain ⟨before, later, hsplit, -⟩ := freshRead?_eq_some_iff.mp h
  rw [← course_bridge]
  apply (course_dated hb calls).upTo
  rw [← journal_accepted, hsplit]
  simp [Occurrence.submission?]

/-- How reads are correlated where accesses displace each other. An address has one open access at
most, the one accepted there last. A drain is matched if and only if the last that happened at its
address was the acceptance of a read; it is charged the time since that acceptance, and counted as
unmatched otherwise. What is open at an address has work of its kind there, so where no work is
left the ledger is empty. -/
theorem newest_correlates (hb : b.IsNew) (hr : b.ledger.rule = .overwrite) (calls : List Call) :
    let k := b.course calls
    let s := b.after calls
    (∀ a, s.ledger.issuesAt a = [] ∨
      ∃ n, (k.accepted.filter (·.access.addr = a)).getLast? = some n ∧
        s.ledger.issuesAt a = [n.issue]) ∧
    (∀ d, (s.perform .drain).answer = .drained (some d) →
      (∀ l, d.latency = some l ↔
        ∃ before r later, b.journal calls = before ++ .accepted r :: later ∧
          r.access.addr = d.reply.addr ∧ r.access.kind = .read ∧
          (∀ o ∈ later, o.addr ≠ d.reply.addr) ∧ r.cycle + l = s.cycle) ∧
      (s.perform .drain).bridge.counts =
        match d.latency with
        | some l => { s.counts with repliesDrained := s.counts.repliesDrained + 1 }.addLatency l
        | none =>
            { s.counts with
              repliesDrained := s.counts.repliesDrained + 1
              repliesUnmatched := s.counts.repliesUnmatched + 1 }) ∧
    (∀ a, ∀ i ∈ s.ledger.issuesAt a,
      (∃ r ∈ s.frontend.pending, r.addr = a ∧ r.kind = i.kind) ∨
        (∃ f ∈ s.engine.inFlight, f.request.addr = a ∧ f.request.kind = i.kind) ∨
          i.kind = .read ∧ ∃ r ∈ s.replies.waiting, r.addr = a) ∧
    (s.frontend.pending = [] → s.engine.inFlight = [] → s.replies.waiting = [] →
      s.ledger.isEmpty = true ∧ s.openCount = 0) := by
  intro k s
  have hle : ∀ a r, freshRead? (b.journal calls) a = some r → r.cycle ≤ s.cycle :=
    fun a r => freshRead?_le hb calls
  have h : k.Displaced (b.journal calls) := course_displaced hb hr calls
  have hs : k.bridge = s := course_bridge b calls
  clear_value s
  subst hs
  refine ⟨?_, ?_, ?_, ?_⟩
  · intro a
    have hnewest := h.newest a
    cases hn : k.newestAt a with
    | none =>
        left
        simpa [hn] using hnewest
    | some n =>
        rw [hn] at hnewest
        rcases List.sublist_singleton.mp hnewest with hnone | hone
        · exact .inl hnone
        · exact .inr ⟨n, hn, hone⟩
  · intro d hd
    have drains := drains_of_perform hd
    refine ⟨?_, drains.counts⟩
    intro l
    rw [h.latency_eq_some_iff drains (hle _) l]
    simp only [freshRead?_eq_some_iff]
    constructor
    · rintro ⟨r, ⟨before, later, hsplit, haddr, hread, hlater⟩, hl⟩
      exact ⟨before, r, later, hsplit, haddr, hread, hlater, hl⟩
    · rintro ⟨before, r, later, hsplit, haddr, hread, hlater, hl⟩
      exact ⟨r, ⟨before, later, hsplit, haddr, hread, hlater⟩, hl⟩
  · intro a i hi
    exact (mem_work_iff _ a i.kind).mp (h.live a i hi)
  · intro hpending hflight hwaiting
    have hnone : k.bridge.work = [] := by simp [work, hpending, hflight, hwaiting]
    have hkeys := h.keys_eq_nil hnone
    refine ⟨h.tidy.isEmpty_iff.mpr hkeys, ?_⟩
    rw [openCount, Ledger.size_eq_length_keys, hkeys, List.length_nil]

/-- Two reads at address 2 overlap, and a write follows a read at address 1. The reply of the older
read at 2 is charged to the newer one, that of the read at 1 is unmatched; once all is drained
nothing is open. -/
theorem newest_correlates_overlapped :
    let b := small ScriptedLatency.slowOne .overwrite
    let calls := [.submit ⟨2, .read, 0⟩ 0, .submit ⟨1, .read, 0⟩ 0, .advance, .advance, .advance,
      .submit ⟨2, .read, 1⟩ 0, .submit ⟨1, .write, 1⟩ 0, .advance]
    let d : Delivery := ⟨⟨2, 2⟩, 4, some 1⟩
    let d' : Delivery := ⟨⟨1, 0⟩, 4, none⟩
    let last := calls ++ List.replicate 4 .advance ++ List.replicate 3 .drain
    b.IsNew ∧ b.ledger.rule = .overwrite ∧
      ((b.after calls).perform .drain).answer = .drained (some d) ∧
      (∃ before r later, b.journal calls = before ++ .accepted r :: later ∧ r.access.addr = 2 ∧
        r.access.kind = .read ∧ (∀ o ∈ later, o.addr ≠ 2) ∧
        r.cycle + 1 = (b.after calls).cycle) ∧
      ((b.after (calls ++ [.drain])).perform .drain).answer = .drained (some d') ∧
      ((b.after (calls ++ [.drain])).perform .drain).bridge.counts.repliesUnmatched = 1 ∧
      (b.after last).frontend.pending = [] ∧ (b.after last).engine.inFlight = [] ∧
      (b.after last).replies.waiting = [] ∧ (b.after last).openCount = 0 := by
  intro b calls d d' last
  have hnew : b.IsNew := small_isNew _ _
  have hd : ((b.after calls).perform .drain).answer = .drained (some d) := by decide
  have hd' : ((b.after (calls ++ [.drain])).perform .drain).answer = .drained (some d') := by
    decide
  have hpending : (b.after last).frontend.pending = [] :=
    List.isEmpty_iff.mp (by decide)
  have hflight : (b.after last).engine.inFlight = [] :=
    List.isEmpty_iff.mp (by decide)
  have hwaiting : (b.after last).replies.waiting = [] := by decide
  obtain ⟨-, hmatched, -⟩ := newest_correlates hnew rfl calls
  obtain ⟨-, hmissed, -⟩ := newest_correlates hnew rfl (calls ++ [.drain])
  obtain ⟨-, -, -, hempty⟩ := newest_correlates hnew rfl last
  refine ⟨hnew, rfl, hd, ((hmatched d hd).1 1).mp rfl, hd', ?_, hpending, hflight, hwaiting,
    (hempty hpending hflight hwaiting).2⟩
  rw [(hmissed d' hd').2]
  decide

end Bridge

end CycleBridge
