import CycleBridge.Latency.Controller
import CycleBridge.Proofs.Engine.Order

/-!
# Latencies of one sort

What all answers of a latency model have in common, whatever it is asked: one latency for all
accesses, or a bound. It is shown for a model by an invariant of its states. Where all latencies are
the same, a flight that enters the engine is due no earlier than those before it, so it stands
behind them.
-/

namespace CycleBridge

theorem Word.clamp_le_self (n : Nat) : clamp n ≤ n := Nat.min_le_left _ _

theorem Word.clamp_mono {m n : Nat} (h : m ≤ n) : clamp m ≤ clamp n := by
  simp only [clamp]
  omega

namespace LatencyModel

variable {σ : Type} [LatencyModel σ]

/-- Every latency that the model answers from this state on is of one sort. -/
def Always (s : σ) (p : Word → Prop) : Prop := ∀ addrs, ∀ answer ∈ (run s addrs).1, p answer.1

/-- The answers are of a sort if those in certain states are and no access leaves these states. -/
theorem always_of_invariant {p : Word → Prop} (I : σ → Prop)
    (step : ∀ s a, I s → p (access s a).1 ∧ I (access s a).2) {s : σ} (h : I s) : Always s p := by
  intro addrs
  induction addrs generalizing s with
  | nil => simp [run]
  | cons a rest ih =>
      obtain ⟨hfirst, hlater⟩ := step s a h
      intro answer hanswer
      rcases List.mem_cons.mp hanswer with rfl | hrest
      · exact hfirst
      · exact ih hlater answer hrest

theorem Always.access {p : Word → Prop} {s : σ} (h : Always s p) (a : Word) :
    p (access s a).1 ∧ Always (access s a).2 p := by
  constructor
  · exact h [a] _ List.mem_cons_self
  · intro addrs answer hanswer
    exact h (a :: addrs) answer (List.mem_cons_of_mem _ hanswer)

/-- A model inside another that passes all accesses on to it. -/
theorem always_of_wrap {τ : Type} [LatencyModel τ] {p : Word → Prop} (wrap : σ → τ)
    (passes : ∀ s a, LatencyModel.access (wrap s) a = (LatencyModel.access s a).map id wrap)
    {s : σ} (h : Always s p) : Always (wrap s) p := by
  refine always_of_invariant (fun t => ∃ s, t = wrap s ∧ Always s p) ?_ ⟨s, rfl, h⟩
  rintro t a ⟨s, rfl, h⟩
  obtain ⟨hfirst, hlater⟩ := h.access a
  rw [passes]
  exact ⟨hfirst, (LatencyModel.access s a).2, rfl, hlater⟩

/-- A fixed latency is the only one. -/
theorem always_fixed (m : FixedLatency) : Always m (· = m.latency) := by
  refine always_of_invariant (· = m) ?_ rfl
  rintro s a rfl
  exact ⟨rfl, rfl⟩

theorem always_fixed_controller (m : FixedLatency) :
    Always (Controller.fixed m) (· = m.latency) :=
  always_of_wrap Controller.fixed (fun _ _ => rfl) (always_fixed m)

/-- A script answers the latencies that it lists and the one for all other addresses. -/
theorem always_scripted {m : ScriptedLatency} {p : Word → Prop} (hlisted : ∀ l ∈ m.table, p l.2)
    (hother : p m.otherwise) : Always m p := by
  refine always_of_invariant (fun s => s.table = m.table ∧ s.otherwise = m.otherwise) ?_ ⟨rfl, rfl⟩
  rintro s a ⟨htable, hotherwise⟩
  refine ⟨?_, htable, hotherwise⟩
  change p (s.latencyAt a)
  rw [ScriptedLatency.latencyAt, htable, hotherwise]
  cases hl : m.table.lookup a with
  | none => exact hother
  | some l =>
      obtain ⟨front, back, htable, -⟩ := List.lookup_eq_some_iff.mp hl
      exact hlisted (a, l) (by simp [htable])

/-- No access to a row buffer takes longer than to close a row, to open one and to use it. -/
theorem always_rowBuffer (m : RowBuffer) :
    Always m (·.toNat ≤ m.tPre.toNat + m.tRas.toNat + m.tCas.toNat) := by
  refine always_of_invariant
    (fun s => s.tPre = m.tPre ∧ s.tRas = m.tRas ∧ s.tCas = m.tCas) ?_ ⟨rfl, rfl, rfl⟩
  rintro s a ⟨hpre, hras, hcas⟩
  refine ⟨?_, hpre, hras, hcas⟩
  change (s.latencyOf (s.resultFor (s.rowOf a))).toNat ≤ _
  rw [← hpre, ← hras, ← hcas]
  have hopened := Word.clamp_le_self (s.tPre.toNat + s.tRas.toNat)
  cases s.resultFor (s.rowOf a) with
  | hit => exact Nat.le_add_left _ _
  | miss =>
      rw [RowBuffer.latencyOf, Word.addClamped_toNat]
      have hused := Word.clamp_le_self (s.tRas.toNat + s.tCas.toNat)
      omega
  | conflict =>
      rw [RowBuffer.latencyOf, Word.addClamped_toNat, Word.addClamped_toNat]
      have hused := Word.clamp_le_self
        (Word.clamp (s.tPre.toNat + s.tRas.toNat) + s.tCas.toNat)
      omega

theorem always_rowBuffer_controller (m : RowBuffer) :
    Always (Controller.rowBuffer m) (·.toNat ≤ m.tPre.toNat + m.tRas.toNat + m.tCas.toNat) :=
  always_of_wrap Controller.rowBuffer (fun _ _ => rfl) (always_rowBuffer m)

end LatencyModel

namespace Engine

/-- A flight that is due no earlier than any other is placed behind all of them. -/
theorem place_last {queue : List Flight} {f : Flight} (h : ∀ g ∈ queue, g.due ≤ f.due) :
    place queue f = queue ++ [f] := by
  have hsplit : queue.Pairwise fun g g' => decide (g'.due ≤ f.due) → decide (g.due ≤ f.due) := by
    apply List.pairwise_of_forall_mem_list
    intro g hg g' _ _
    exact decide_eq_true (h g hg)
  obtain ⟨ahead, behind, hqueue, hplace, _, hbehind⟩ := place_splits f hsplit
  have hnone : behind = [] := by
    apply List.eq_nil_iff_forall_not_mem.mpr
    intro g hg
    exact absurd (h g (hqueue ▸ List.mem_append_right _ hg)) (Nat.not_le_of_lt (hbehind g hg))
  rw [hplace, hqueue, hnone, List.append_nil]

end Engine

/-- Where all flights have one latency, what the frontend forwards stands behind what was in
flight, in the order in which it was forwarded. -/
theorem Frontend.forward_appends {σ : Type} [LatencyModel σ] {latency : Word} (rs : List Request)
    {e : Engine σ} (hdue : ∀ f ∈ e.inFlight, f.due ≤ Word.clamp (e.cycle + latency.toNat))
    (hnew : ∀ f ∈ (forward rs e).1, f.latency = latency) :
    (forward rs e).2.2.inFlight = e.inFlight ++ (forward rs e).1 := by
  induction rs generalizing e with
  | nil => simp [forward]
  | cons r rest ih =>
      rcases ho : e.offer r with ⟨_ | f, e'⟩
      · simp [forward, ho, (Engine.offer_refused_keeps ho).1]
      · obtain ⟨hplaced, -, hf, -⟩ := Engine.offer_taken_places ho
        have hcycle := (Engine.offer_taken ho).2.cycle
        simp only [forward, ho, List.mem_cons, forall_eq_or_imp] at hnew ⊢
        obtain ⟨hlatency, hnew⟩ := hnew
        rw [hlatency] at hf
        rw [Engine.place_last (hf ▸ hdue)] at hplaced
        have hdue' : ∀ g ∈ e'.inFlight, g.due ≤ Word.clamp (e'.cycle + latency.toNat) := by
          intro g hg
          rw [hplaced] at hg
          rw [hcycle]
          rcases List.mem_append.mp hg with hg | hg
          · exact hdue g hg
          · rw [List.mem_singleton.mp hg]
            exact Nat.le_of_eq hf
        rw [ih hdue' hnew, hplaced, List.append_assoc, List.singleton_append]

end CycleBridge
