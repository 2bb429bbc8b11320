import CycleBridge.Frontend
import CycleBridge.Proofs.Engine.Service
import Mathlib.Data.List.InsertIdx

/-!
# An engine at a later time

The engine compares due cycles with each other and with its own clock, and it looks at the clock for
nothing else. With its clock and all due cycles moved on by one number of cycles it takes, keeps and
serves the same requests, as long as the later due cycles fit into a word.
-/

namespace CycleBridge

/-- The flight of a request that entered `n` engine cycles later. -/
def Flight.later (f : Flight) (n : Nat) : Flight := { f with due := f.due + n }

section Bisect

variable {α β : Type} (p : β → Bool) (g : α → β) (xs : List α)

theorem bisect_map (steps lo hi : Nat) :
    bisect p (xs.map g) steps lo hi = bisect (p ∘ g) xs steps lo hi := by
  induction steps generalizing lo hi with
  | zero => rfl
  | succ steps ih =>
      simp only [bisect, List.getElem?_map, Option.any_map, ih]
      rfl

theorem splitPoint_map : splitPoint p (xs.map g) = splitPoint (p ∘ g) xs := by
  rw [splitPoint, splitPoint, List.length_map, bisect_map]

end Bisect

namespace Engine

variable {σ : Type}

/-- The engine with its clock and all that is in flight `n` of its cycles later. -/
def later (e : Engine σ) (n : Nat) : Engine σ :=
  { e with cycle := e.cycle + n, inFlight := e.inFlight.map (·.later n) }

theorem length_inFlight_later (e : Engine σ) (n : Nat) :
    (e.later n).inFlight.length = e.inFlight.length :=
  List.length_map _

theorem place_later (queue : List Flight) (f : Flight) (n : Nat) :
    place (queue.map (·.later n)) (f.later n) = (place queue f).map (·.later n) := by
  have hdue : (fun g : Flight => decide (g.due ≤ (f.later n).due)) ∘ (Flight.later · n) =
      fun g => decide (g.due ≤ f.due) := by
    funext g
    exact decide_eq_decide.mpr Nat.add_le_add_iff_right
  rw [place, place, splitPoint_map, hdue, List.map_insertIdx]

theorem tick_later (e : Engine σ) (n : Nat) :
    (e.later n).tick = (e.tick.1.map (·.later n), e.tick.2.later n) := by
  have hdue : (fun g : Flight => decide (g.due ≤ (e.later n).cycle + 1)) ∘ (Flight.later · n) =
      fun g => decide (g.due ≤ e.cycle + 1) := by
    funext g
    apply decide_eq_decide.mpr
    simp only [Flight.later, later]
    omega
  have hflights : (e.later n).inFlight = e.inFlight.map (·.later n) := rfl
  simp only [tick, List.span_eq_takeWhile_dropWhile, hflights, List.takeWhile_map,
    List.dropWhile_map, hdue, List.foldl_map]
  simp only [later, Nat.add_right_comm]
  rfl

variable [LatencyModel σ] (e : Engine σ) (r : Request) (n : Nat)

/-- The flight that an engine with room makes of a request. -/
def flightOf : Flight where
  request := r
  latency := (LatencyModel.access e.model r.addr).1
  result := LatencyModel.lastResult (LatencyModel.access e.model r.addr).2
  due := Word.clamp (e.cycle + (LatencyModel.access e.model r.addr).1.toNat)
  arrival := e.taken

/-- The engine after it took a request. -/
def enter : Engine σ :=
  { e with
    model := (LatencyModel.access e.model r.addr).2
    inFlight := place e.inFlight (e.flightOf r)
    counts := (e.counts.addRowResult (e.flightOf r).result).addBusy (e.flightOf r).latency }

variable {e} in
theorem offer_of_room (h : e.inFlight.length < e.capacity) :
    e.offer r = (some (e.flightOf r), e.enter r) := by
  rw [offer, if_neg (by omega)]
  rfl

/-- What is due in time is due as many cycles later. -/
theorem flightOf_later (hfits : e.cycle + n + (e.flightOf r).latency.toNat < UInt64.size) :
    (e.later n).flightOf r = (e.flightOf r).later n := by
  have hdue : ((e.later n).flightOf r).due = (e.flightOf r).due + n := by
    change Word.clamp (e.cycle + n + (e.flightOf r).latency.toNat) =
      Word.clamp (e.cycle + (e.flightOf r).latency.toNat) + n
    rw [Word.clamp_of_lt hfits, Word.clamp_of_lt (by omega), Nat.add_right_comm]
  have harrival : ((e.later n).flightOf r).arrival = (e.flightOf r).arrival :=
    congrArg (e.counts.served + ·) (e.length_inFlight_later n)
  rw [Flight.later, ← hdue, ← harrival]
  rfl

theorem enter_later (hfits : e.cycle + n + (e.flightOf r).latency.toNat < UInt64.size) :
    (e.later n).enter r = (e.enter r).later n := by
  rw [enter, enter, e.flightOf_later r n hfits, later, later, place_later]
  rfl

end Engine

namespace Frontend

variable {σ : Type} [LatencyModel σ] {e : Engine σ} (r : Request) (rest : List Request)

theorem forward_of_room (h : e.inFlight.length < e.capacity) :
    forward (r :: rest) e =
      (e.flightOf r :: (forward rest (e.enter r)).1, (forward rest (e.enter r)).2) := by
  rw [forward, Engine.offer_of_room r h]

theorem forward_of_full (h : e.capacity ≤ e.inFlight.length) :
    forward (r :: rest) e =
      ([], r :: rest, { e with counts := { e.counts with refused := e.counts.refused + 1 } }) := by
  rw [forward, Engine.offer_of_full e r h]

/-- The engine's clock plays no part in what is forwarded, as long as all is due in time. -/
theorem forward_later (rs : List Request) (e : Engine σ) (n : Nat)
    (hfits : ∀ f ∈ (forward rs (e.later n)).1, e.cycle + n + f.latency.toNat < UInt64.size) :
    forward rs (e.later n) =
      ((forward rs e).1.map (·.later n), (forward rs e).2.1, (forward rs e).2.2.later n) := by
  induction rs generalizing e with
  | nil => rfl
  | cons r rest ih =>
      have hlen := e.length_inFlight_later n
      by_cases hroom : e.inFlight.length < e.capacity
      · rw [forward_of_room r rest (hlen ▸ hroom : _ < (e.later n).capacity)] at hfits ⊢
        -- That the first flight fits makes the engine that goes on a later one, too.
        have hfirst := hfits _ List.mem_cons_self
        rw [e.enter_later r n hfirst] at hfits ⊢
        rw [ih (e.enter r) fun f hf => hfits f (List.mem_cons_of_mem _ hf),
          e.flightOf_later r n hfirst, forward_of_room r rest hroom]
        rfl
      · have hfull := Nat.le_of_not_lt hroom
        rw [forward_of_full r rest (hlen ▸ hfull : (e.later n).capacity ≤ _),
          forward_of_full r rest hfull]
        rfl

end Frontend

end CycleBridge
