import CycleBridge.Frontend
import Mathlib.Data.List.Perm.Basic

/-!
# What the engine takes in

`Engine.Takes` relates an engine to itself after it took a list of flights at one of its cycles.
An offer takes one flight or none, and whatever the frontend forwards is taken as one such list.
The latency model is asked once for each flight, in the order in which they are taken.
-/

namespace CycleBridge

theorem bisect_le {α : Type} (p : α → Bool) (xs : List α) (steps lo hi : Nat) (h : lo ≤ hi) :
    bisect p xs steps lo hi ≤ hi := by
  induction steps generalizing lo hi with
  | zero => exact h
  | succ steps ih =>
      simp only [bisect]
      split
      · split
        · apply ih
          omega
        · have hleft := ih lo ((lo + hi) / 2) (by omega)
          omega
      · exact h

theorem splitPoint_le {α : Type} (p : α → Bool) (xs : List α) : splitPoint p xs ≤ xs.length :=
  bisect_le p xs xs.length 0 xs.length (Nat.zero_le _)

namespace LatencyModel

variable {σ : Type} [LatencyModel σ]

theorem run_append (s : σ) (as bs : List Word) :
    run s (as ++ bs) = ((run s as).1 ++ (run (run s as).2 bs).1, (run (run s as).2 bs).2) := by
  induction as generalizing s with
  | nil => rfl
  | cons a rest ih => simp [run, ih]

theorem run_cons (s : σ) (a : Word) (as : List Word) :
    run s (a :: as) = ((run s [a]).1 ++ (run (run s [a]).2 as).1, (run (run s [a]).2 as).2) :=
  run_append s [a] as

end LatencyModel

namespace Engine

variable {σ : Type}

/-- Wherever a flight is placed, it is added and nothing else changes place with it. -/
theorem place_perm (queue : List Flight) (f : Flight) : (place queue f).Perm (f :: queue) :=
  List.perm_insertIdx f queue (splitPoint_le _ queue)

/-- The second engine is the first after it took the flights, in their order and without a step
of its clock. Every flight carries the number of requests taken before it. -/
structure Takes (e : Engine σ) (flights : List Flight) (e' : Engine σ) : Prop where
  inFlight : e'.inFlight.Perm (e.inFlight ++ flights)
  arrivals : flights.map (·.arrival) = List.range' e.taken flights.length
  capacity : e'.capacity = e.capacity
  room : e.inFlight.length ≤ e.capacity → e'.inFlight.length ≤ e.capacity
  cycle : e'.cycle = e.cycle
  reads : e'.counts.readsServed = e.counts.readsServed
  writes : e'.counts.writesServed = e.counts.writesServed

namespace Takes

variable {e e' e'' : Engine σ} {fs gs : List Flight}

theorem served (h : Takes e fs e') : e'.counts.served = e.counts.served := by
  simp only [EngineCounts.served, h.reads, h.writes]

theorem taken (h : Takes e fs e') : e'.taken = e.taken + fs.length := by
  have hlen := h.inFlight.length_eq
  simp only [Engine.taken, h.served, List.length_append] at hlen ⊢
  omega

theorem refl (e : Engine σ) : Takes e [] e :=
  ⟨by simp, rfl, rfl, id, rfl, rfl, rfl⟩

theorem trans (h : Takes e fs e') (h' : Takes e' gs e'') : Takes e (fs ++ gs) e'' where
  inFlight := by
    rw [← List.append_assoc]
    exact h'.inFlight.trans (h.inFlight.append_right gs)
  arrivals := by
    rw [List.map_append, h.arrivals, h'.arrivals, h.taken, List.length_append, ← List.range'_append_1]
  capacity := h'.capacity.trans h.capacity
  room := by
    intro hroom
    have hroom' := h.room hroom
    rw [← h.capacity] at hroom' ⊢
    exact h'.room hroom'
  cycle := h'.cycle.trans h.cycle
  reads := h'.reads.trans h.reads
  writes := h'.writes.trans h.writes

end Takes

variable [LatencyModel σ]

theorem addRowResult_reads (c : EngineCounts) (r : Option RowResult) :
    (c.addRowResult r).readsServed = c.readsServed := by
  rcases r with _ | r
  · rfl
  · cases r <;> rfl

theorem addRowResult_writes (c : EngineCounts) (r : Option RowResult) :
    (c.addRowResult r).writesServed = c.writesServed := by
  rcases r with _ | r
  · rfl
  · cases r <;> rfl

theorem offer_refused {e e' : Engine σ} {r : Request} (h : e.offer r = (none, e')) :
    Takes e [] e' := by
  unfold offer at h
  split at h
  · cases h
    exact ⟨by simp, rfl, rfl, id, rfl, rfl, rfl⟩
  · cases h

theorem offer_taken {e e' : Engine σ} {r : Request} {f : Flight} (h : e.offer r = (some f, e')) :
    f.request = r ∧ Takes e [f] e' := by
  unfold offer at h
  split at h
  · cases h
  · next hroom =>
      cases h
      refine ⟨rfl, ?_, rfl, rfl, fun _ => ?_, rfl, addRowResult_reads _ _, addRowResult_writes _ _⟩
      · exact (place_perm _ _).trans (List.perm_append_singleton _ _).symm
      · rw [(place_perm _ _).length_eq, List.length_cons]
        omega

theorem offer_refused_model {e e' : Engine σ} {r : Request} (h : e.offer r = (none, e')) :
    e'.model = e.model := by
  unfold offer at h
  split at h
  · cases h
    rfl
  · cases h

theorem offer_taken_asks {e e' : Engine σ} {r : Request} {f : Flight}
    (h : e.offer r = (some f, e')) :
    LatencyModel.run e.model [r.addr] = ([(f.latency, f.result)], e'.model) := by
  unfold offer at h
  split at h
  · cases h
  · cases h
    rfl

end Engine

namespace Frontend

variable {σ : Type} [LatencyModel σ]

/-- What the frontend forwards, the engine takes. -/
theorem forward_takes (rs : List Request) (e : Engine σ) :
    e.Takes (forward rs e).1 (forward rs e).2.2 := by
  induction rs generalizing e with
  | nil => exact .refl e
  | cons r rest ih =>
      simp only [forward]
      split
      · next h => exact Engine.offer_refused h
      · next h => exact (Engine.offer_taken h).2.trans (ih _)

/-- The model is asked for the latencies of the flights, in their order, and for nothing else. -/
theorem forward_asks (rs : List Request) (e : Engine σ) :
    LatencyModel.run e.model ((forward rs e).1.map (·.request.addr)) =
      ((forward rs e).1.map fun f => (f.latency, f.result), (forward rs e).2.2.model) := by
  induction rs generalizing e with
  | nil => rfl
  | cons r rest ih =>
      rcases ho : e.offer r with ⟨_ | f, e'⟩
      · simp [forward, ho, LatencyModel.run, Engine.offer_refused_model ho]
      · have hasks := Engine.offer_taken_asks ho
        have hrest := ih e'
        rw [← (Engine.offer_taken ho).1] at hasks
        simp only [forward, ho, List.map_cons]
        rw [LatencyModel.run_cons, hasks, hrest]
        rfl

end Frontend

end CycleBridge
