import CycleBridge.Proofs.Course.Progress

/-!
# Which addresses are closed

The open accesses in the ledger are the outstanding work, address by address and kind by kind, so
under the reject rule an address is closed while there is work at it and no longer. As every access
is served in time, steps of the clock and drains open every address again.
-/

namespace CycleBridge.Bridge

open LatencyModel

variable {σ : Type} [LatencyModel σ] {b : Bridge σ}

/-- The ledger and the outstanding work correspond exactly under the track and the reject rule:
for each address, its open writes are the writes that wait in the frontend or are in flight, and
its open reads are those and the reads whose replies were not drained. So every drain finds its
open read, and the reject rule closes an address exactly while work at it is outstanding. None stays
closed for good: draining opens an address at which only replies are left, and if the engine has
room for a request and no latency is larger than `bound`, so many steps of the clock without a
submission leave no more than replies at any address, whatever is drained meanwhile. -/
theorem ledger_matches_work (hb : b.IsNew) (hr : b.ledger.rule ≠ .overwrite)
    (calls : List Call) :
    let s := b.after calls
    (∀ a, (s.ledger.issuesAt a).countP (·.kind = .write) =
      s.frontend.pending.countP (fun r => r.addr = a ∧ r.kind = .write) +
        s.engine.inFlight.countP (fun f => f.request.addr = a ∧ f.request.kind = .write)) ∧
    (∀ a, (s.ledger.issuesAt a).countP (·.kind = .read) =
      s.frontend.pending.countP (fun r => r.addr = a ∧ r.kind = .read) +
        s.engine.inFlight.countP (fun f => f.request.addr = a ∧ f.request.kind = .read) +
        s.replies.waiting.countP (·.addr = a)) ∧
    s.counts.repliesUnmatched = 0 ∧
    (∀ d ∈ (b.course calls).delivered, d.latency.isSome) ∧
    s.openCount = s.frontend.pending.length + s.engine.inFlight.length + s.replies.size ∧
    (b.ledger.rule = .reject → ∀ a,
      (s.ledger.allows a = false ↔
        (∃ r ∈ s.frontend.pending, r.addr = a) ∨ (∃ f ∈ s.engine.inFlight, f.request.addr = a) ∨
          ∃ r ∈ s.replies.waiting, r.addr = a) ∧
      ((∀ r ∈ s.frontend.pending, r.addr ≠ a) → (∀ f ∈ s.engine.inFlight, f.request.addr ≠ a) →
        (s.after (List.replicate s.replies.size .drain)).ledger.allows a = true) ∧
      ∀ bound, 0 < b.engine.capacity → Always b.engine.model (·.toNat ≤ bound) →
        ∀ more : List Call, (∀ c ∈ more, c.submission? = none) →
          let stay := b.clock.frontendRatio.toNat * max bound 1
          s.frontend.pending.length * (stay + b.clock.engineRatio.toNat) + stay ≤
            more.count .advance →
          let s' := b.after (calls ++ more)
          (s'.after (List.replicate s'.replies.size .drain)).ledger.allows a = true) := by
  intro s
  have hs : (b.course calls).bridge = s := course_bridge b calls
  obtain ⟨htidy, hkeys, hunmatched, hdelivered⟩ := course_matched hb hr calls
  rw [hs] at htidy hkeys hunmatched
  have hcount : ∀ a kind, (s.ledger.issuesAt a).countP (·.kind = kind) = s.work.count (a, kind) :=
    fun a kind => (Ledger.count_keys htidy a kind).symm.trans (hkeys.count_eq _)
  refine ⟨?_, ?_, hunmatched, hdelivered, ?_, ?_⟩
  · intro a
    simp [hcount, count_work]
  · intro a
    simp [hcount, count_work]
  · rw [openCount, Ledger.size_eq_length_keys, hkeys.length_eq]
    simp [work, ReplyQueue.size, Nat.add_assoc]
  · intro hreject a
    refine ⟨?_, allows_of_drained hb hreject calls a, ?_⟩
    · rw [allows_eq_false_iff hb hreject calls a, exists_work_iff]
    · intro bound hcapacity hbound more hquiet stay hlong s'
      obtain ⟨hpending, hinFlight⟩ := idle_of_quiet hb hbound hcapacity hquiet hlong
      apply allows_of_drained hb hreject (calls ++ more) a
      · rw [hpending]
        exact List.forall_mem_nil _
      · rw [hinFlight]
        exact List.forall_mem_nil _

/-- Where overlaps are kept side by side, address 1 is open for a write in flight and for a read
that waits. Where they are refused, a reply closes address 2 until it is drained, and address 1 is
closed by its write, which takes three cycles of the engine; steps of the clock and a drain open
it. -/
theorem ledger_matches_work_crowd :
    let b := small ScriptedLatency.slowOne .track
    let s := b.after Call.crowd
    let b' := small ScriptedLatency.slowOne .reject
    let s' := b'.after Call.crowd
    let more := .drain :: List.replicate 3 .advance
    b.IsNew ∧ b.ledger.rule ≠ .overwrite ∧ s.openCount = 4 ∧
      (s.ledger.issuesAt 1).countP (·.kind = .read) = 1 ∧
      b'.IsNew ∧ b'.ledger.rule ≠ .overwrite ∧ b'.ledger.rule = .reject ∧
      s'.ledger.allows 2 = false ∧
      (s'.after (List.replicate s'.replies.size .drain)).ledger.allows 2 = true ∧
      0 < b'.engine.capacity ∧ Always b'.engine.model (·.toNat ≤ 3) ∧
      (∀ c ∈ more, c.submission? = none) ∧
      (b'.after Call.crowd).frontend.pending.length * (1 * max 3 1 + 2) + 1 * max 3 1 ≤
        more.count .advance ∧
      s'.ledger.allows 1 = false ∧
      ((b'.after (Call.crowd ++ more)).after
        (List.replicate (b'.after (Call.crowd ++ more)).replies.size .drain)).ledger.allows 1 =
          true := by
  intro b s b' s' more
  have hnew : b.IsNew := small_isNew _ _
  have hnew' : b'.IsNew := small_isNew _ _
  obtain ⟨-, hreads, -, -, hcount, -⟩ := ledger_matches_work hnew (by decide) Call.crowd
  obtain ⟨-, -, -, -, -, hreject⟩ := ledger_matches_work hnew' (by decide) Call.crowd
  obtain ⟨hclosed, hopened, -⟩ := hreject rfl 2
  obtain ⟨hclosed', -, hreopened⟩ := hreject rfl 1
  have hlisted : ∀ l ∈ ScriptedLatency.slowOne.table, l.2.toNat ≤ 3 := by
    simp [ScriptedLatency.slowOne]
  have hother : ScriptedLatency.slowOne.otherwise.toNat ≤ 3 := by simp [ScriptedLatency.slowOne]
  have hmodel : Always b'.engine.model (·.toNat ≤ 3) := always_scripted hlisted hother
  have hquiet : ∀ c ∈ more, c.submission? = none := by decide
  have hlong : (b'.after Call.crowd).frontend.pending.length * (1 * max 3 1 + 2) + 1 * max 3 1 ≤
      more.count .advance := by
    decide
  have hreopens := hreopened 3 (by decide) hmodel more hquiet hlong
  refine ⟨hnew, by decide, ?_, ?_, hnew', by decide, rfl, hclosed.mpr ?_, hopened ?_ ?_, by decide,
    hmodel, hquiet, hlong, hclosed'.mpr ?_, hreopens⟩
  · rw [hcount]
    decide
  · rw [hreads]
    decide
  · exact .inr (.inr ⟨⟨2, 2⟩, by decide, rfl⟩)
  · decide
  · decide
  · exact .inr (.inl (by decide))

end CycleBridge.Bridge
