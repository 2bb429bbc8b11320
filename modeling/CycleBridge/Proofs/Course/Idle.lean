import CycleBridge.Bridge.Drive
import CycleBridge.Proofs.Course.Correlation
import CycleBridge.Proofs.Course.Displacement
import CycleBridge.Proofs.Course.Pairing
import CycleBridge.Proofs.Course.Progress

/-!
# Idle bridges

A bridge is idle when no access is open in its ledger and no reply waits. Where an accepted access
displaces nothing, that is to say that nothing is under way: no request waits in the frontend, none
is in flight, and every accepted read has handed over its reply. Where it displaces what is open,
the same holds of an address whose accesses do not overlap. Two that do overlap there can be under
way while the bridge is idle.
-/

namespace CycleBridge

open Flight

namespace Course

variable {σ : Type}

/-- How many accesses were accepted at an address. -/
def acceptedAt (k : Course σ) (a : Word) : Nat := k.accepted.countP (·.access.addr = a)

theorem acceptedAt_accept (k : Course σ) (a : Access) (data x : Word) :
    (k.accept a data).acceptedAt x = k.acceptedAt x + if a.addr = x then 1 else 0 := by
  simp [acceptedAt, List.countP_append, List.countP_singleton]

/-- Every accepted access is a write that was served, a read whose reply was drained, or under
way. -/
theorem Conserved.keys_perm {k : Course σ} (h : k.Conserved) :
    (k.accepted.map (·.access.key)).Perm
      (((writes k.served).map (·.request.addr)).map (·, .write) ++
        (k.delivered.map fun d => (d.reply.addr, .read)) ++ k.bridge.work) := by
  have hinOrder := congrArg (List.map (·.key)) h.inOrder
  have hinEngine := h.inEngine.map (·.request.key)
  have hserved := Flight.keys_perm k.served
  have hreplies := congrArg (List.map fun a => (a, AccessKind.read)) h.replies
  simp only [List.map_append, List.map_map] at hinOrder hinEngine hserved hreplies
  apply List.perm_iff_count.mpr
  intro x
  have hengine := hinEngine.count_eq x
  have hout := hserved.count_eq x
  have hback := congrArg (List.count x) hreplies
  have hall := congrArg (List.count x) hinOrder
  simp only [List.count_append, Bridge.work, List.map_map, Function.comp_def, Access.request]
    at hengine hout hback hall ⊢
  omega

/-- At an address, the accepted reads are those whose replies were drained and those under way. -/
theorem Conserved.length_readsAt {k : Course σ} (h : k.Conserved) (a : Word) :
    (k.readsAt a).length = (k.deliveredAt a).length + k.bridge.work.count (a, .read) := by
  have hcount := h.keys_perm.count_eq (a, .read)
  rw [List.count_append, List.count_append, count_writes, if_neg (by decide), Nat.zero_add] at hcount
  simpa [List.count_eq_countP, List.countP_map, Function.comp_def, Access.key, readsAt, deliveredAt,
    ← List.countP_eq_length_filter, and_comm, beq_eq_decide] using hcount

/-- An address stays paired in every step that does not displace an open access there. -/
theorem pairedAt_step [LatencyModel σ] {k k' : Course σ} {a : Word} {kind : AccessKind}
    {news : List Occurrence} (hc : k.Conserved) (h : k.PairedAt a kind)
    (alone : k.bridge.ledger.rule = .overwrite → k.acceptedAt a < k'.acceptedAt a →
      k.bridge.ledger.queueAt a kind = [])
    (hs : k.Step news k') : k'.PairedAt a kind := by
  cases hs with
  | stay => exact h
  | accept access data allowed room =>
      apply pairedAt_accept h
      intro hr ha
      apply alone hr
      rw [acceptedAt_accept, if_pos ha.symm]
      exact Nat.lt_succ_self _
  | refuseOverlap => exact h
  | refuseFull => exact h
  | advance => exact pairedAt_advance hc h
  | drain d b drains => exact pairedAt_drain h drains

/-- Work comes to an address by an accepted access only. -/
theorem work_step [LatencyModel σ] {k k' : Course σ} {a : Word} {news : List Occurrence}
    (hc : k.Conserved) (hs : k.Step news k') :
    k.acceptedAt a ≤ k'.acceptedAt a ∧
      (k'.acceptedAt a = k.acceptedAt a → (∀ w ∈ k.bridge.work, w.1 ≠ a) →
        ∀ w ∈ k'.bridge.work, w.1 ≠ a) := by
  cases hs with
  | stay => exact ⟨Nat.le_refl _, fun _ h => h⟩
  | accept access data allowed room =>
      rw [acceptedAt_accept]
      refine ⟨Nat.le_add_right _ _, ?_⟩
      intro hsame h w hw
      rcases List.mem_cons.mp ((k.bridge.work_accept access data).subset hw) with rfl | hw
      · intro (ha : access.addr = a)
        rw [if_pos ha] at hsame
        omega
      · exact h w hw
  | refuseOverlap => exact ⟨Nat.le_refl _, fun _ h => h⟩
  | refuseFull => exact ⟨Nat.le_refl _, fun _ h => h⟩
  | advance =>
      refine ⟨Nat.le_refl _, fun _ h w hw => h w ?_⟩
      exact (Bridge.advance_work hc).symm.subset (List.mem_append_right _ hw)
  | drain d b drains =>
      refine ⟨Nat.le_refl _, fun _ h w hw => h w ?_⟩
      exact drains.work.symm.subset (List.mem_cons_of_mem _ hw)

/-- Nothing is under way at an address, and every read accepted there handed over its reply. -/
structure SettledAt (k : Course σ) (a : Word) : Prop where
  pending : ∀ r ∈ k.bridge.frontend.pending, r.addr ≠ a
  inFlight : ∀ f ∈ k.bridge.engine.inFlight, f.request.addr ≠ a
  received : (k.deliveredAt a).length = (k.readsAt a).length

theorem settledAt_of_paired {k : Course σ} {a : Word} (hc : k.Conserved)
    (h : ∀ kind, k.PairedAt a kind) (hissues : k.bridge.ledger.issuesAt a = []) :
    k.SettledAt a := by
  have hnone : ∀ kind, k.bridge.work.count (a, kind) = 0 := by
    intro kind
    rw [← (h kind).queueAt_eq_nil_iff, Ledger.queueAt, hissues, List.filter_nil]
  have hwork : ¬ ∃ w ∈ k.bridge.work, w.1 = a := by
    rintro ⟨⟨_, kind⟩, hw, rfl⟩
    exact List.count_eq_zero.mp (hnone kind) hw
  rw [Bridge.exists_work_iff] at hwork
  constructor
  · exact fun r hr ha => hwork (.inl ⟨r, hr, ha⟩)
  · exact fun f hf ha => hwork (.inr (.inl ⟨f, hf, ha⟩))
  · rw [hc.length_readsAt, hnone, Nat.add_zero]

/-- Where all addresses are done, nothing is under way at all. -/
theorem rest_of_settledAt {k : Course σ} (h : ∀ a, k.SettledAt a) :
    k.bridge.frontend.pending = [] ∧ k.bridge.engine.inFlight = [] ∧
      (k.delivered.map (·.reply.addr)).Perm
        ((k.accepted.filter (·.access.kind = .read)).map (·.access.addr)) := by
  refine ⟨?_, ?_, ?_⟩
  · exact List.eq_nil_iff_forall_not_mem.mpr fun r hr => (h r.addr).pending r hr rfl
  · exact List.eq_nil_iff_forall_not_mem.mpr fun f hf => (h f.request.addr).inFlight f hf rfl
  · apply List.perm_iff_count.mpr
    intro a
    have hreceived := (h a).received
    rw [deliveredAt, readsAt, ← List.countP_eq_length_filter, ← List.countP_eq_length_filter]
      at hreceived
    simpa [List.count_eq_countP, List.countP_map, List.countP_filter, Function.comp_def, and_comm,
      beq_eq_decide] using hreceived

end Course

namespace Bridge

variable {σ : Type} [LatencyModel σ] {b : Bridge σ}

/-- At some moment of the run nothing was under way at the address, and one access at most was
accepted there since. -/
def ApartAt (b : Bridge σ) (calls : List Call) (a : Word) : Prop :=
  ∃ before, before <+: calls ∧ (∀ w ∈ (b.after before).work, w.1 ≠ a) ∧
    (b.course calls).acceptedAt a ≤ (b.course before).acceptedAt a + 1

theorem course_tidy (hb : b.IsNew) (calls : List Call) : (b.course calls).bridge.ledger.Tidy := by
  by_cases hr : b.ledger.rule = .overwrite
  · exact (course_displaced hb hr calls).tidy
  · exact (course_matched hb hr calls).tidy

/-- Under the track and the reject rule every address is paired. -/
theorem course_pairedAt_of_ne (hb : b.IsNew) (hr : b.ledger.rule ≠ .overwrite) (calls : List Call)
    (a : Word) (kind : AccessKind) : (b.course calls).PairedAt a kind := by
  have hm := course_matched hb hr calls
  rw [Course.PairedAt, Ledger.queueAt, ← List.countP_eq_length_filter, ← Ledger.count_keys hm.tidy]
  exact hm.keys.count_eq _

/-- Under the overwrite rule an address stays paired as long as its accesses do not overlap. -/
theorem course_pairedAt_of_apart (hb : b.IsNew) (hr : b.ledger.rule = .overwrite)
    {calls : List Call} {a : Word} (h : b.ApartAt calls a) (kind : AccessKind) :
    (b.course calls).PairedAt a kind := by
  obtain ⟨before, ⟨rest, rfl⟩, hnone, hle⟩ := h
  have hissues : ∀ front, (∀ w ∈ (b.course front).bridge.work, w.1 ≠ a) →
      (b.course front).bridge.ledger.issuesAt a = [] := by
    intro front hfront
    apply List.eq_nil_iff_forall_not_mem.mpr
    intro i hi
    exact hfront _ ((course_displaced hb hr front).live a i hi) rfl
  rw [← course_bridge] at hnone
  -- as long as no access was accepted since, there is still nothing under way
  suffices hall : (b.course (before ++ rest)).PairedAt a kind ∧
      (b.course before).acceptedAt a ≤ (b.course (before ++ rest)).acceptedAt a ∧
      ((b.course (before ++ rest)).acceptedAt a = (b.course before).acceptedAt a →
        ∀ w ∈ (b.course (before ++ rest)).bridge.work, w.1 ≠ a) from hall.1
  induction rest using List.reverseRecOn with
  | nil =>
      rw [List.append_nil]
      refine ⟨?_, Nat.le_refl _, fun _ => hnone⟩
      rw [Course.PairedAt, Ledger.queueAt, hissues before hnone, List.filter_nil, List.length_nil]
      exact (List.count_eq_zero.mpr fun hw => hnone _ hw rfl).symm
  | append_singleton rest c ih =>
      rw [← List.append_assoc] at hle ⊢
      have hc := course_conserved hb (before ++ rest)
      have hs := (b.course (before ++ rest)).step_extend c
      rw [← course_snoc] at hs
      obtain ⟨hgrows, hquiet⟩ := Course.work_step (a := a) hc hs
      obtain ⟨hpaired, hsince, hstill⟩ := ih (by omega)
      refine ⟨?_, by omega, ?_⟩
      · apply Course.pairedAt_step hc hpaired _ hs
        intro _ hnew
        rw [Ledger.queueAt, hissues _ (hstill (by omega)), List.filter_nil]
      · intro hsame
        exact hquiet (by omega) (hstill (by omega))

theorem issuesAt_of_idle (hb : b.IsNew) {calls : List Call} (h : (b.after calls).isIdle = true)
    (a : Word) : (b.course calls).bridge.ledger.issuesAt a = [] := by
  have hopen : (b.after calls).openCount = 0 := (of_decide_eq_true h).1
  rw [openCount, Ledger.size_eq_length_keys, List.length_eq_zero_iff, ← course_bridge] at hopen
  apply List.eq_nil_iff_forall_not_mem.mpr
  intro i hi
  have hkey := (Ledger.mem_keys_iff (course_tidy hb calls)).mpr ⟨i, hi, rfl⟩
  rw [hopen] at hkey
  exact List.not_mem_nil hkey

/-- A bridge that is idle is done at each address where nothing was displaced. -/
theorem settledAt_of_idle (hb : b.IsNew) {calls : List Call} {a : Word}
    (hapart : b.ledger.rule = .overwrite → b.ApartAt calls a)
    (h : (b.after calls).isIdle = true) : (b.course calls).SettledAt a := by
  apply Course.settledAt_of_paired (course_conserved hb calls) _ (issuesAt_of_idle hb h a)
  by_cases hr : b.ledger.rule = .overwrite
  · exact course_pairedAt_of_apart hb hr (hapart hr)
  · exact course_pairedAt_of_ne hb hr calls a

/-- The replies a stretch drained so far, where the run before it had drained some already. -/
def Continues (b : Bridge σ) (earlier : List Reply) (calls : List Call) (s : Stretch σ) : Prop :=
  s.bridge = b.after calls ∧
    (b.course calls).delivered.map (·.reply) = earlier ++ s.replies.toList

section Stretch

variable {earlier : List Reply} {calls : List Call} {s : Stretch σ}

theorem continues_advance (h : b.Continues earlier calls s) :
    b.Continues earlier (calls ++ [.advance]) s.advance := by
  obtain ⟨hbridge, hreplies⟩ := h
  constructor
  · rw [after_append, ← hbridge]
    rfl
  · rw [course_snoc]
    simpa [Course.extend, perform, Answer.delivery?, Stretch.advance] using hreplies

theorem continues_drainUpTo (h : b.Continues earlier calls s) (n : Nat) :
    ∃ more : List Call, (∀ c ∈ more, c.submission? = none) ∧
      b.Continues earlier (calls ++ more) (s.drainUpTo n) := by
  induction n generalizing calls s with
  | zero => exact ⟨[], by simp, by rwa [List.append_nil]⟩
  | succ n ih =>
      rw [Stretch.drainUpTo]
      split
      · exact ⟨[], by simp, by rwa [List.append_nil]⟩
      · next d b' hd =>
          obtain ⟨hbridge, hreplies⟩ := h
          have hd' : (b.course calls).bridge.drain? = some (d, b') := by
            rw [course_bridge, ← hbridge, hd]
          have hnext : b.Continues earlier (calls ++ [.drain])
              { replies := s.replies.push d.reply, events := s.events.push d.event, bridge := b' } := by
            constructor
            · rw [← course_bridge, course_snoc]
              simp [Course.extend, perform, hd']
            · rw [course_snoc]
              simp [Course.extend, perform, hd', Answer.delivery?, hreplies]
          obtain ⟨more, hquiet, hmore⟩ := ih hnext
          refine ⟨.drain :: more, ?_, ?_⟩
          · simpa [Call.submission?] using hquiet
          · rwa [List.append_assoc] at hmore

/-- Driving a bridge until it is idle is a run that submits nothing. -/
theorem continues_untilIdle (h : b.Continues earlier calls s) (rounds : Nat) :
    ∃ more : List Call, (∀ c ∈ more, c.submission? = none) ∧
      b.Continues earlier (calls ++ more) (s.untilIdle rounds) := by
  induction rounds generalizing calls s with
  | zero => exact ⟨[], by simp, by rwa [List.append_nil]⟩
  | succ n ih =>
      obtain ⟨drains, hdrains, hdrained⟩ := continues_drainUpTo h s.bridge.replies.size
      rw [Stretch.untilIdle]
      split
      · exact ⟨drains, hdrains, hdrained⟩
      · obtain ⟨more, hmore, hrest⟩ := ih (continues_advance hdrained)
        refine ⟨drains ++ .advance :: more, ?_, ?_⟩
        · intro c hc
          rcases List.mem_append.mp hc with hc | hc
          · exact hdrains c hc
          · rcases List.mem_cons.mp hc with rfl | hc
            · rfl
            · exact hmore c hc
        · rw [List.append_assoc, List.append_assoc] at hrest
          exact hrest

end Stretch

theorem ApartAt.of_quiet {calls more : List Call} {a : Word} (h : b.ApartAt calls a)
    (hquiet : ∀ c ∈ more, c.submission? = none) : b.ApartAt (calls ++ more) a := by
  obtain ⟨before, hbefore, hnone, hle⟩ := h
  refine ⟨before, hbefore.trans (List.prefix_append _ _), hnone, ?_⟩
  rwa [Course.acceptedAt, course_accepted_of_quiet b calls hquiet]

/-- A bridge that reports to be idle is idle. Where no access displaces another, under the track or
the reject rule, an empty ledger without waiting replies says that nothing waits in the frontend,
nothing is in flight, and each accepted read has handed over its reply. Under the overwrite rule it
says so of each address whose accesses do not overlap: since some moment at which nothing was under
way there, one access at most was accepted. So whoever drains and steps the clock until the bridge
reports to be idle has got the replies of all accepted reads. -/
theorem idle_leaves_nothing_under_way (hb : b.IsNew) (calls : List Call) :
    let s := b.after calls
    (∀ a, (b.ledger.rule = .overwrite → b.ApartAt calls a) → s.isIdle = true →
      (∀ r ∈ s.frontend.pending, r.addr ≠ a) ∧ (∀ f ∈ s.engine.inFlight, f.request.addr ≠ a) ∧
        ((b.course calls).deliveredAt a).length = ((b.course calls).readsAt a).length) ∧
    ((b.ledger.rule = .overwrite → ∀ a, b.ApartAt calls a) → s.isIdle = true →
      s.frontend.pending = [] ∧ s.engine.inFlight = [] ∧
        ((b.course calls).delivered.map (·.reply.addr)).Perm
          (((b.course calls).accepted.filter (·.access.kind = .read)).map (·.access.addr))) ∧
    (∀ rounds, (b.ledger.rule = .overwrite → ∀ a, b.ApartAt calls a) →
      let t := Stretch.untilIdle { bridge := s } rounds
      t.bridge.isIdle = true →
        t.bridge.frontend.pending = [] ∧ t.bridge.engine.inFlight = [] ∧
          ((b.course calls).delivered.map (·.reply.addr) ++ t.replies.toList.map (·.addr)).Perm
            (((b.course calls).accepted.filter (·.access.kind = .read)).map (·.access.addr))) := by
  intro s
  refine ⟨?_, ?_, ?_⟩
  · intro a hapart hidle
    obtain ⟨hpending, hinFlight, hreceived⟩ := settledAt_of_idle hb hapart hidle
    rw [course_bridge] at hpending hinFlight
    exact ⟨hpending, hinFlight, hreceived⟩
  · intro hapart hidle
    have hrest := Course.rest_of_settledAt fun a =>
      settledAt_of_idle hb (fun hr => hapart hr a) hidle
    rwa [course_bridge] at hrest
  · intro rounds hapart t hidle
    have hstart : b.Continues ((b.course calls).delivered.map (·.reply)) calls { bridge := s } :=
      ⟨rfl, by simp⟩
    obtain ⟨more, hquiet, hbridge, hreplies⟩ := continues_untilIdle hstart rounds
    change t.bridge = b.after (calls ++ more) at hbridge
    rw [hbridge] at hidle ⊢
    have hrest := Course.rest_of_settledAt fun a =>
      settledAt_of_idle hb (fun hr => (hapart hr a).of_quiet hquiet) hidle
    have haddrs := congrArg (List.map (·.addr)) hreplies
    rw [List.map_append, List.map_map, List.map_map] at haddrs
    rw [course_bridge, course_accepted_of_quiet b calls hquiet] at hrest
    refine ⟨hrest.1, hrest.2.1, ?_⟩
    exact (List.Perm.of_eq haddrs.symm).trans hrest.2.2

/-- Under the overwrite rule, a read at address 2 is through before the next one is accepted there;
under the track rule accesses overlap. Both bridges are driven until they are idle, and then every
reply was handed over. -/
theorem idle_leaves_nothing_under_way_crowd :
    let b := small ScriptedLatency.slowOne .overwrite
    let first : List Call := [.submit ⟨2, .read, 0⟩ 0, .advance, .advance, .drain]
    let calls := first ++ [.submit ⟨1, .write, 0⟩ 7, .submit ⟨2, .read, 1⟩ 0]
    let b' := small ScriptedLatency.slowOne .track
    b.IsNew ∧ b.ledger.rule = .overwrite ∧ (∀ a, b.ApartAt calls a) ∧
      (Stretch.untilIdle { bridge := b.after calls } 20).bridge.isIdle = true ∧
      (Stretch.untilIdle { bridge := b.after calls } 20).bridge.engine.inFlight = [] ∧
      b'.IsNew ∧ b'.ledger.rule ≠ .overwrite ∧
      (Stretch.untilIdle { bridge := b'.after Call.crowd } 20).bridge.isIdle = true ∧
      ((Stretch.untilIdle { bridge := b'.after Call.crowd } 20).replies.toList.map (·.addr)).Perm
        [2, 1] := by
  intro b first calls b'
  have hnew : b.IsNew := small_isNew _ _
  have hnew' : b'.IsNew := small_isNew _ _
  have hapart : ∀ a, b.ApartAt calls a := by
    intro a
    have hwork : (b.after first).work = [] := by decide
    refine ⟨first, List.prefix_append _ _, ?_, ?_⟩
    · rw [hwork]
      exact fun w hw => absurd hw List.not_mem_nil
    · have hfirst : (b.course first).accepted = [⟨⟨2, .read, 0⟩, 0, 0⟩] := by decide
      have hcalls : (b.course calls).accepted =
          [⟨⟨2, .read, 0⟩, 0, 0⟩, ⟨⟨1, .write, 0⟩, 7, 2⟩, ⟨⟨2, .read, 1⟩, 0, 2⟩] := by
        decide
      rw [Course.acceptedAt, Course.acceptedAt, hfirst, hcalls]
      by_cases h2 : a = 2
      · subst h2
        decide
      · by_cases h1 : a = 1
        · subst h1
          decide
        · simp [Ne.symm h1, Ne.symm h2]
  have hidle : (Stretch.untilIdle { bridge := b.after calls } 20).bridge.isIdle = true := by
    decide
  have hidle' : (Stretch.untilIdle { bridge := b'.after Call.crowd } 20).bridge.isIdle = true := by
    decide
  have htrack : b'.ledger.rule ≠ .overwrite := by decide
  obtain ⟨-, hinFlight, -⟩ :=
    (idle_leaves_nothing_under_way hnew calls).2.2 20 (fun _ => hapart) hidle
  obtain ⟨-, -, hreplies⟩ :=
    (idle_leaves_nothing_under_way hnew' Call.crowd).2.2 20 (fun hr => absurd hr htrack) hidle'
  have hnone : (b'.course Call.crowd).delivered.map (·.reply.addr) = [] := by decide
  have hreads : ((b'.course Call.crowd).accepted.filter (·.access.kind = .read)).map
      (·.access.addr) = [2, 1] := by
    decide
  rw [hnone, hreads, List.nil_append] at hreplies
  exact ⟨hnew, rfl, hapart, hidle, hinFlight, hnew', htrack, hidle', hreplies⟩

/-- Under the overwrite rule a bridge can report to be idle while accesses wait: a write displaces
the read before it, and the end of an earlier write settles the later one. Whoever stops then has
not got the reply of the read. -/
theorem idle_with_overlapping_accesses :
    let b := small (⟨2⟩ : FixedLatency) .overwrite
    let calls : List Call := [.submit ⟨64, .write, 0⟩ 1, .advance, .advance,
      .submit ⟨64, .read, 0⟩ 0, .submit ⟨64, .write, 0⟩ 2, .advance]
    let t := Stretch.untilIdle { bridge := b.after calls } 100
    b.IsNew ∧ (b.after calls).isIdle = true ∧
      (b.after calls).frontend.pending.map (·.toAccess) = [⟨64, .read, 0⟩, ⟨64, .write, 0⟩] ∧
      t.bridge.isIdle = true ∧ t.bridge.frontend.pending.length = 2 ∧ t.replies = #[] ∧
      (b.course calls).delivered = [] := by
  intro b calls t
  exact ⟨small_isNew _ _, by decide, by decide, by decide, by decide, by decide, by decide⟩

end Bridge

end CycleBridge
