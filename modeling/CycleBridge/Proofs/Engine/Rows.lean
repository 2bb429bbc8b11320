import CycleBridge.Proofs.Engine.Latencies
import Mathlib.Algebra.GroupWithZero.Nat

/-!
# What accesses meet in the row buffer

An engine counts what its latency model answered, and it asks the model for the requests that it
takes and for no others. `EngineCounts.Reflects` says that the row counters and the busy time are
those of a list of answers: a request that is taken adds its answer to the list, one that is refused
and one that is served leave it as it is. A row buffer with no row open misses once, at its first
access, and no more once a row is open.
-/

namespace CycleBridge

theorem Word.clamp_clamp_add (m n : Nat) : clamp (clamp m + n) = clamp (m + n) := by
  simp only [clamp]
  omega

/-- What the latency model answered for a flight. -/
def Flight.answer (f : Flight) : Word × Option RowResult := (f.latency, f.result)

namespace LatencyModel

variable {σ τ : Type} [LatencyModel σ] [LatencyModel τ]

theorem length_run (s : σ) (addrs : List Word) : (run s addrs).1.length = addrs.length := by
  induction addrs generalizing s with
  | nil => rfl
  | cons a rest ih => simp [run, ih]

/-- What is asked later changes no earlier answer. -/
theorem run_take (s : σ) (addrs : List Word) (n : Nat) :
    (run s (addrs.take n)).1 = (run s addrs).1.take n := by
  by_cases hn : n ≤ addrs.length
  · have hlen : (run s (addrs.take n)).1.length = n := by
      rw [length_run, List.length_take, Nat.min_eq_left hn]
    conv_rhs => rw [← List.take_append_drop n addrs, run_append]
    rw [List.take_left' hlen]
  · have hle : addrs.length ≤ n := Nat.le_of_not_le hn
    rw [List.take_of_length_le hle, List.take_of_length_le (by rwa [length_run])]

/-- Two models that give the same answers to the same accesses. -/
def Alike (s : σ) (t : τ) : Prop := ∀ addrs, (run s addrs).1 = (run t addrs).1

theorem Alike.refl (s : σ) : Alike s s := fun _ => rfl

/-- A model inside another that passes all accesses and their outcomes on. -/
theorem alike_of_wrap (wrap : σ → τ)
    (passes : ∀ s a, access (wrap s) a = (access s a).map id wrap)
    (shows : ∀ s, lastResult (wrap s) = lastResult s) (s : σ) : Alike (wrap s) s := by
  intro addrs
  induction addrs generalizing s with
  | nil => rfl
  | cons a rest ih =>
      have hrest := ih (access s a).2
      simp only [run, passes, Prod.map, id_eq, shows, hrest]

theorem alike_rowBuffer_controller (m : RowBuffer) : Alike (Controller.rowBuffer m) m :=
  alike_of_wrap Controller.rowBuffer (fun _ _ => rfl) (fun _ => rfl) m

/-- While a row is open no access misses. -/
theorem countP_miss_of_open {m : RowBuffer} (h : m.openRow.isSome) (addrs : List Word) :
    (run m addrs).1.countP (·.2 = some .miss) = 0 := by
  induction addrs generalizing m with
  | nil => rfl
  | cons a rest ih =>
      have hmet : m.resultFor (m.rowOf a) ≠ .miss := by
        obtain ⟨row, hrow⟩ := Option.isSome_iff_exists.mp h
        simp only [RowBuffer.resultFor, hrow]
        split <;> simp
      have hfirst : lastResult (access m a).2 = some (m.resultFor (m.rowOf a)) := rfl
      have hrest := ih (m := (access m a).2) rfl
      rw [run, List.countP_cons, hrest, hfirst]
      simp [hmet]

/-- With no row open the first access misses, and only the first. -/
theorem countP_miss_of_closed {m : RowBuffer} (h : m.openRow = none) (addrs : List Word) :
    (run m addrs).1.countP (·.2 = some .miss) = if addrs = [] then 0 else 1 := by
  cases addrs with
  | nil => rfl
  | cons a rest =>
      have hfirst : lastResult (access m a).2 = some .miss := by
        change some (m.resultFor (m.rowOf a)) = _
        rw [RowBuffer.resultFor, h]
      have hrest := countP_miss_of_open (m := (access m a).2) rfl rest
      rw [run, List.countP_cons, hrest, hfirst]
      simp

/-- Every access to a row buffer meets one of the three outcomes. -/
theorem countP_results_rowBuffer (m : RowBuffer) (addrs : List Word) :
    (run m addrs).1.countP (·.2 = some .hit) + (run m addrs).1.countP (·.2 = some .miss) +
      (run m addrs).1.countP (·.2 = some .conflict) = addrs.length := by
  induction addrs generalizing m with
  | nil => rfl
  | cons a rest ih =>
      have hfirst : lastResult (access m a).2 = some (m.resultFor (m.rowOf a)) := rfl
      have hrest := ih (access m a).2
      simp only [run, List.countP_cons, List.length_cons, hfirst]
      cases m.resultFor (m.rowOf a) <;> simp <;> omega

end LatencyModel

/-- The row counters and the busy time that some answers of a latency model amount to. -/
structure EngineCounts.Reflects (c : EngineCounts) (answers : List (Word × Option RowResult)) :
    Prop where
  hits : c.rowHits = answers.countP (·.2 = some .hit)
  misses : c.rowMisses = answers.countP (·.2 = some .miss)
  conflicts : c.rowConflicts = answers.countP (·.2 = some .conflict)
  busy : c.busyCycles = Word.clamp (answers.map (·.1.toNat)).sum

namespace EngineCounts.Reflects

variable {c : EngineCounts} {answers : List (Word × Option RowResult)}

theorem nil : Reflects {} [] := ⟨rfl, rfl, rfl, rfl⟩

theorem snoc (h : c.Reflects answers) (answer : Word × Option RowResult) :
    ((c.addRowResult answer.2).addBusy answer.1).Reflects (answers ++ [answer]) := by
  obtain ⟨latency, result⟩ := answer
  have hbusy : Word.clamp (c.busyCycles + latency.toNat) =
      Word.clamp ((answers ++ [(latency, result)]).map (·.1.toNat)).sum := by
    rw [h.busy, Word.clamp_clamp_add, List.map_append, List.sum_append]
    rfl
  rcases result with _ | _ | _ | _ <;>
    exact ⟨by simp [addRowResult, addBusy, h.hits], by simp [addRowResult, addBusy, h.misses],
      by simp [addRowResult, addBusy, h.conflicts], hbusy⟩

theorem addServed (h : c.Reflects answers) (kind : AccessKind) :
    (c.addServed kind).Reflects answers := by
  cases kind <;> exact { h with }

/-- The answers settle what was counted. -/
theorem counts_eq (h : c.Reflects answers) {c' : EngineCounts} (h' : c'.Reflects answers) :
    c.rowHits = c'.rowHits ∧ c.rowMisses = c'.rowMisses ∧ c.rowConflicts = c'.rowConflicts ∧
      c.busyCycles = c'.busyCycles :=
  ⟨h.hits.trans h'.hits.symm, h.misses.trans h'.misses.symm, h.conflicts.trans h'.conflicts.symm,
    h.busy.trans h'.busy.symm⟩

/-- A row buffer that starts closed misses at the first access alone. -/
theorem rowBuffer_counts {m : RowBuffer} (hm : m.openRow = none) {addrs : List Word}
    (h : c.Reflects (LatencyModel.run m addrs).1) :
    c.rowAccesses = addrs.length ∧ c.rowMisses = if addrs = [] then 0 else 1 := by
  rw [EngineCounts.rowAccesses, h.hits, h.misses, h.conflicts]
  exact ⟨LatencyModel.countP_results_rowBuffer m addrs, LatencyModel.countP_miss_of_closed hm addrs⟩

end EngineCounts.Reflects

namespace Engine

variable {σ : Type} {e : Engine σ} {answers : List (Word × Option RowResult)}

/-- What is served was counted when it was taken. -/
theorem tick_reflects (h : e.counts.Reflects answers) : e.tick.2.counts.Reflects answers := by
  have hall : ∀ (served : List Flight) (c : EngineCounts), c.Reflects answers →
      (served.foldl (fun c f => c.addServed f.request.kind) c).Reflects answers := by
    intro served
    induction served with
    | nil => exact fun _ h => h
    | cons f rest ih => exact fun c h => ih _ (h.addServed f.request.kind)
  exact hall e.tick.1 e.counts h

variable [LatencyModel σ]

/-- A refused request touches neither the latency model nor what was counted of its answers. -/
theorem refused_eq {r : Request} (h : (e.offer r).1 = none) :
    (e.offer r).2 = { e with counts := { e.counts with refused := e.counts.refused + 1 } } := by
  unfold offer at h ⊢
  split
  · rfl
  · next hroom => simp [hroom] at h

theorem offer_reflects (h : e.counts.Reflects answers) (r : Request) :
    (e.offer r).2.counts.Reflects (answers ++ (e.offer r).1.toList.map Flight.answer) := by
  let asked := LatencyModel.access e.model r.addr
  unfold offer
  split
  · simpa using { h with }
  · exact h.snoc (asked.1, LatencyModel.lastResult asked.2)

end Engine

/-- Each flight that is forwarded adds its answer to those that the engine's counters reflect. -/
theorem Frontend.forward_reflects {σ : Type} [LatencyModel σ] (rs : List Request) {e : Engine σ}
    {answers : List (Word × Option RowResult)} (h : e.counts.Reflects answers) :
    (forward rs e).2.2.counts.Reflects (answers ++ (forward rs e).1.map Flight.answer) := by
  induction rs generalizing e answers with
  | nil => simpa [forward] using h
  | cons r rest ih =>
      have hoffer := Engine.offer_reflects h r
      rcases ho : e.offer r with ⟨_ | f, e'⟩
      · simpa [forward, ho] using hoffer
      · rw [ho] at hoffer
        simpa [forward, ho] using ih hoffer

end CycleBridge
