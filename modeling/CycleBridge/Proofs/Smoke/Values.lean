import CycleBridge.CommandLine.Command
import CycleBridge.Proofs.Course.Exclusion
import CycleBridge.Proofs.Smoke.Agreement

/-!
# What the reads of a smoke run find

The pattern writes an address before it reads it, and every write at an address stores the same
data. So a read finds the same value whenever it ends, and that is the value fixed for it when it
was accepted: no reply ever differs from what is expected of it.
-/

namespace CycleBridge

/-- Where all writes at an address store one value, and there is such a write, it is the last one
written. -/
theorem Submission.lastWritten_eq {list : List Submission} {a value : Word}
    (hsome : ∃ t ∈ list, t.access.kind = .write ∧ t.access.addr = a)
    (hall : ∀ t ∈ list, t.access.kind = .write → t.access.addr = a → t.data = value) :
    lastWritten list a = value := by
  obtain ⟨t, ht, htwrite, hta⟩ := hsome
  cases hlast : (list.filter fun s => s.access.kind = .write ∧ s.access.addr = a).getLast? with
  | none =>
      have hempty := List.filter_eq_nil_iff.mp (List.getLast?_eq_none_iff.mp hlast) t ht
      exact absurd (decide_eq_true ⟨htwrite, hta⟩) hempty
  | some last =>
      obtain ⟨hmem, hkey⟩ := List.mem_filter.mp (List.mem_of_getLast? hlast)
      obtain ⟨hwrite, haddr⟩ := of_decide_eq_true hkey
      rw [lastWritten, hlast]
      exact hall last hmem hwrite haddr

namespace SmokeRun

variable {σ : Type} {p : SmokeSetup} {k : Course σ} {s : SmokeRun σ}

theorem Agrees.exists_access (h : Agrees p k s) {t : Submission} (ht : t ∈ k.accepted) :
    ∃ i < s.next, t.access = p.access i ∧ t.data = SmokeSetup.data (p.access i) := by
  have hmem := List.mem_map_of_mem (f := fun t => (t.access, t.data)) ht
  rw [h.pattern] at hmem
  obtain ⟨i, hi, he⟩ := List.mem_map.mp hmem
  obtain ⟨haccess, hdata⟩ := Prod.mk.inj he
  exact ⟨i, List.mem_range.mp hi, haccess.symm, hdata.symm⟩

theorem Agrees.exists_submission (h : Agrees p k s) {i : Nat} (hi : i < s.next) :
    ∃ t ∈ k.accepted, t.access = p.access i := by
  have hmem := List.mem_map_of_mem (f := fun i => (p.access i, SmokeSetup.data (p.access i)))
    (List.mem_range.mpr hi)
  rw [← h.pattern] at hmem
  obtain ⟨t, ht, he⟩ := List.mem_map.mp hmem
  exact ⟨t, ht, (Prod.mk.inj he).1⟩

/-- When a read of the pattern comes up or has been accepted, the last value written at its address
is the one it should find. -/
theorem Agrees.lastWritten_eq (h : Agrees p k s) (hp : p.Fits) {i : Nat} (hi : i < p.requests)
    (hle : i ≤ s.next) (hread : (p.access i).kind = .read) :
    Submission.lastWritten k.accepted (p.access i).addr = p.valueAt (p.access i).addr := by
  by_cases hw : p.Writes (p.access i).addr
  · obtain ⟨j, hj, hwrite, haddr⟩ := hw
    obtain ⟨n, hn, hwrite', haddr'⟩ := SmokeSetup.exists_write_before hp hi hread hj hwrite haddr
    rw [SmokeSetup.valueAt, if_pos ⟨j, hj, hwrite, haddr⟩]
    apply Submission.lastWritten_eq
    · obtain ⟨t, ht, haccess⟩ := h.exists_submission (Nat.lt_of_lt_of_le hn hle)
      exact ⟨t, ht, by rw [haccess, hwrite'], by rw [haccess, haddr']⟩
    · intro t ht htwrite hta
      obtain ⟨m, -, haccess, hdata⟩ := h.exists_access ht
      rw [haccess] at htwrite hta
      rw [hdata, SmokeSetup.data, htwrite, hta]
  · rw [SmokeSetup.valueAt, if_neg hw]
    have hnone : ∀ t ∈ k.accepted, t.access.kind = .write →
        t.access.addr ≠ (p.access i).addr := by
      intro t ht htwrite hta
      obtain ⟨m, hm, haccess, -⟩ := h.exists_access ht
      rw [haccess] at htwrite hta
      exact hw ⟨m, Nat.lt_of_lt_of_le hm h.next_le, htwrite, hta⟩
    rw [← List.nil_append k.accepted, Submission.lastWritten_append hnone]
    rfl

/-- The replies that wait carry the values of the pattern, these are what the run expects, and every
reply compared so far was right. -/
structure Verified (p : SmokeSetup) (k : Course σ) (s : SmokeRun σ) : Prop where
  waiting : ∀ r ∈ k.bridge.replies.waiting, r.value = p.valueAt r.addr
  expected : ∀ a value, s.expected[a]? = some value → value = p.valueAt a
  verified : s.counts.readsVerified = s.counts.readsCompleted

theorem verified_start {b : Bridge σ} (hb : b.IsNew) : Verified p { bridge := b } (start p b) := by
  obtain ⟨clock, ratio, ratio', depth, capacity, model, rule, rfl⟩ := hb.exists_eq
  refine ⟨fun r hr => absurd hr List.not_mem_nil, ?_, rfl⟩
  intro a value h
  simp [start] at h

theorem verified_receive (h : Verified p k s) {d : Delivery} {b : Bridge σ}
    (drains : k.bridge.Drains d b) : Verified p (k.drain d b) (s.receive d b) := by
  have hwaiting : ∀ r ∈ b.replies.waiting, r.value = p.valueAt r.addr := by
    intro r hr
    apply h.waiting
    rw [drains.waiting]
    exact List.mem_cons_of_mem _ hr
  by_cases hd : d.reply.addr ∈ s.expected
  · obtain ⟨value, hvalue⟩ := Option.isSome_iff_exists.mp
      (Std.TreeMap.mem_iff_isSome_getElem?.mp hd)
    obtain ⟨hexpected, hcounts⟩ := s.receive_of_expected d b hvalue
    have hright : d.reply.value = value := by
      rw [h.expected _ _ hvalue]
      apply h.waiting
      rw [drains.waiting]
      exact List.mem_cons_self
    refine ⟨hwaiting, ?_, ?_⟩
    · intro a v hv
      rw [hexpected, Std.TreeMap.getElem?_erase] at hv
      split at hv
      · exact absurd hv (by simp)
      · exact h.expected a v hv
    · rw [hcounts, if_pos hright]
      exact congrArg (· + 1) h.verified
  · obtain ⟨hexpected, hcounts⟩ := s.receive_of_unexpected d b hd
    refine ⟨hwaiting, ?_, ?_⟩
    · rw [hexpected]
      exact h.expected
    · rw [hcounts]
      exact h.verified

theorem verified_accept (h : Verified p k s) (ha : Agrees p k s) (hp : p.Fits)
    (may : s.mayIssue p = true) :
    Verified p (k.accept (p.access s.next) (SmokeSetup.data (p.access s.next))) (s.acceptNext p) := by
  refine ⟨?_, ?_, ?_⟩
  · rw [Course.accept_bridge, Bridge.accept_replies]
    exact h.waiting
  · intro a value hv
    rw [acceptNext_expected] at hv
    split at hv
    · next hread =>
        rw [Std.TreeMap.getElem?_insert] at hv
        split at hv
        · next he =>
            rw [← Option.some.inj hv, ha.written, ← Std.compare_eq_iff_eq.mp he]
            exact ha.lastWritten_eq hp (next_lt_of_mayIssue may) (Nat.le_refl _) hread
        · exact h.expected a value hv
    · exact h.expected a value hv
  · rw [acceptNext_counts]
    exact h.verified

variable [LatencyModel σ]

theorem verified_advance (h : Verified p k s) (ha : Agrees p k s) (hp : p.Fits) (hc : k.Conserved)
    (hc' : k.advance.Conserved)
    (hmemory : ∀ a, k.bridge.memory.read a = Submission.lastWritten k.accepted a) :
    Verified p k.advance s.advance := by
  refine ⟨?_, h.expected, h.verified⟩
  intro r hr
  rw [Course.advance_bridge, Bridge.advance_replies hc] at hr
  rcases List.mem_append.mp hr with hr | hr
  · exact h.waiting r hr
  · obtain ⟨f, hf, rfl⟩ := List.mem_map.mp hr
    -- the read that ended was accepted, so it is an access of the pattern
    have hserved : f ∈ Flight.reads k.advance.served := by
      rw [Course.advance_served, Flight.reads, List.filter_append]
      exact List.mem_append_right _ hf
    obtain ⟨t, ht, hrequest⟩ := hc'.exists_accepted (hc'.forwarded_of_reads hserved)
    obtain ⟨i, hi, haccess, -⟩ := ha.exists_access (List.mem_of_getElem? ht)
    have hkind : (p.access i).kind = .read := by
      rw [← haccess]
      have hfkind : f.request.kind = .read := by simpa using (List.mem_filter.mp hserved).2
      rwa [← hrequest] at hfkind
    have haddr : f.request.addr = (p.access i).addr := by rw [← hrequest, ← haccess]; rfl
    simp only [haddr, hmemory]
    exact ha.lastWritten_eq hp (Nat.lt_of_lt_of_le hi ha.next_le) hi.le hkind

theorem Along.verified {b : Bridge σ} (hb : b.IsNew) (hp : p.Fits) (h : Along p b k s) :
    Verified p k s := by
  induction h with
  | start => exact verified_start hb
  | step h next ih =>
      have hafter := h.step next
      cases next with
      | receive d b drained => exact verified_receive ih (Bridge.drains_of_drain? drained)
      | accept may allowed room => exact verified_accept ih (h.agrees hb) hp may
      | refuse verdict overlaps full one turnsAway => exact ⟨ih.waiting, ih.expected, ih.verified⟩
      | advance =>
          exact verified_advance ih (h.agrees hb) hp (h.conserved hb) (hafter.conserved hb)
            (h.read_eq hb)
      | stalled => exact ⟨ih.waiting, ih.expected, ih.verified⟩

end SmokeRun

/-- Where every completed read was right, the verdict is a failure only if nothing was accepted. -/
theorem SmokeVerdict.ofCounts_of_verified {t : SmokeCounts}
    (h : t.readsVerified = t.readsCompleted) : ofCounts t =
      if t.accepted = 0 then .nothingAccepted
      else if t.readsCompleted = 0 then .unverified else .passed := by
  rw [ofCounts, if_neg (not_not.mpr h)]

theorem SmokeVerdict.isSuccess_ofCounts {t : SmokeCounts} (h : t.readsVerified = t.readsCompleted) :
    (ofCounts t).isSuccess = true ↔ 0 < t.accepted := by
  rw [ofCounts_of_verified h]
  split
  · next hnone => simp [isSuccess, hnone]
  · next hsome => split <;> simp [isSuccess, Nat.pos_of_ne_zero hsome]

theorem SmokeVerdict.ofCounts_ne_wrongData {t : SmokeCounts}
    (h : t.readsVerified = t.readsCompleted) (wrong completed : Nat) :
    ofCounts t ≠ .wrongData wrong completed := by
  rw [ofCounts_of_verified h]
  split
  · simp
  · split <;> simp

open CommandLine in
theorem CommandLine.Command.runSmoke_code {p : SmokeSetup} {c : Settings} {b : Bridge Controller}
    (h : c.build = .ok b) :
    (Command.runSmoke p c).code = 0 ↔ (SmokeResult.ofBridge p b).verdict.isSuccess = true := by
  simp only [Command.runSmoke, h]
  split
  · next hsuccess => simp [hsuccess]
  · next hfailure => simp [hfailure]

namespace SmokeRun

theorem Along.next_reply {σ : Type} [LatencyModel σ] {p : SmokeSetup} {b : Bridge σ} {k : Course σ}
    {s : SmokeRun σ} (hb : b.IsNew) (hp : p.Fits) (h : Along p b k s) {d : Delivery} {b' : Bridge σ}
    {value : Word} (drained : s.bridge.drain? = some (d, b'))
    (hvalue : s.expected[d.reply.addr]? = some value) : d.reply.value = value := by
  have hverified := h.verified hb hp
  rw [hverified.expected _ _ hvalue]
  rw [h.bridge_eq] at drained
  apply hverified.waiting
  rw [(Bridge.drains_of_drain? drained).waiting]
  exact List.mem_cons_self

/-- A smoke run never fails on its own pattern, whatever the settings, as long as its addresses fit
into a word. At every point of every cycle, while replies are drained as well as in between, all
replies that were expected carried the right value, and so does the next one. No verdict ever tells
of wrong data, and the exit code is that of a success exactly if there was an access to submit, a
cycle to submit it in, and a read was allowed to be outstanding. -/
theorem smoke_never_fails {c : Settings} {b : Bridge Controller} (h : c.build = .ok b)
    {p : SmokeSetup} (hp : p.Fits) :
    (∀ s ∈ start p b :: (made p p.maxCycles (start p b)).map (·.2), ∀ n,
      let t := s.collectUpTo n
      t.counts.readsVerified = t.counts.readsCompleted ∧
        ∀ d b' value, t.bridge.drain? = some (d, b') → t.expected[d.reply.addr]? = some value →
          d.reply.value = value) ∧
    (∀ wrong completed, (SmokeResult.ofBridge p b).verdict ≠ .wrongData wrong completed) ∧
    ((CommandLine.Command.runSmoke p c).code = 0 ↔
      0 < p.requests ∧ 0 < p.maxCycles ∧ 0 < p.maxInFlight) := by
  obtain ⟨hb, room, -⟩ := c.isNew_of_build h
  obtain ⟨k, hend⟩ := passes_ofBridge p b
  have hverified := (hend.verified hb hp).verified
  refine ⟨?_, ?_, ?_⟩
  · intro s hs n t
    have hpasses : Passes p b s := by
      rcases List.mem_cons.mp hs with rfl | hs
      · exact passes_start
      · obtain ⟨o, ho, rfl⟩ := List.mem_map.mp hs
        exact passes_of_made passes_start ho
    obtain ⟨k, hcollected⟩ := passes_collectUpTo hpasses n
    exact ⟨(hcollected.verified hb hp).verified, fun d b' value => hcollected.next_reply hb hp⟩
  · exact SmokeVerdict.ofCounts_ne_wrongData hverified
  · rw [CommandLine.Command.runSmoke_code h, ← next_ofBridge_pos_iff hb room,
      ← (hend.agrees hb).accepted]
    exact SmokeVerdict.isSuccess_ofCounts hverified

/-- A run whose accesses all go to one address displaces its own reads, and passes. Without a read
outstanding it does not get anywhere. -/
theorem smoke_never_fails_one_address :
    let c : Settings := {}
    let p : SmokeSetup := { requests := 9, stride := 0 }
    let q : SmokeSetup := { requests := 9, maxInFlight := 0 }
    p.Fits ∧ (CommandLine.Command.runSmoke p c).code = 0 ∧
      q.Fits ∧ (CommandLine.Command.runSmoke q c).code ≠ 0 := by
  intro c p q
  have hp : p.Fits := by decide
  have hq : q.Fits := by decide
  obtain ⟨b, hb⟩ : ∃ b, c.build = .ok b := ⟨_, rfl⟩
  refine ⟨hp, (smoke_never_fails hb hp).2.2.mpr (by decide), hq, ?_⟩
  rw [Ne, (smoke_never_fails hb hq).2.2]
  decide

end SmokeRun

end CycleBridge
