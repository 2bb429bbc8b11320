import CycleBridge.Latency.Scripted
import CycleBridge.Proofs.Engine.Later
import CycleBridge.Proofs.Engine.Order
import Mathlib.Data.List.Pairwise

/-!
# The engine as a set of timers

A set of timers holds what was taken without any order: each request with its due cycle and the
number of its arrival. It is full when it holds as many as it may, and a tick takes out all that are
due, by due cycle and then by arrival. The engine answers every sequence of offers and ticks as such
a set does. Its queue is the set in the one order of due cycles and arrivals, so it finds with a
bisection and at the head of the queue what the set has to search for.
-/

namespace CycleBridge

/-- A request that was taken, the cycle in which it is due and how many were taken before it. -/
structure Timer where
  request : Request
  due : Nat
  arrival : Nat

namespace Timer

/-- Whether a timer goes off no later than another: of two that are due at once the one that arrived
first goes off first. -/
def precedes (t u : Timer) : Bool := t.due < u.due ∨ t.due = u.due ∧ t.arrival ≤ u.arrival

theorem precedes_iff (t u : Timer) :
    t.precedes u ↔ t.due < u.due ∨ t.due = u.due ∧ t.arrival ≤ u.arrival :=
  decide_eq_true_iff

/-- What the books are after the requests of some timers ended, one after the other. -/
def completeAll (timers : List Timer) (b : Books) : Books :=
  timers.foldl (fun b t => t.request.complete b) b

end Timer

/-- The timers that are running, in no order, under a latency model and a clock. -/
structure TimerSet (σ : Type) where
  capacity : Nat
  model : σ
  running : List Timer := []
  cycle : Nat := 0
  arrivals : Nat := 0

namespace TimerSet

variable {σ : Type}

/-- Offers a request: a set that holds its capacity refuses it, any other asks its model how long
the request takes and holds it from then on. -/
def offer [LatencyModel σ] (s : TimerSet σ) (r : Request) : Option Timer × TimerSet σ :=
  if s.running.length = s.capacity then (none, s)
  else
    let (latency, model) := LatencyModel.access s.model r.addr
    let timer : Timer :=
      { request := r
        due := min (s.cycle + latency.toNat) (UInt64.size - 1)
        arrival := s.arrivals }
    (some timer, { s with model, running := timer :: s.running, arrivals := s.arrivals + 1 })

/-- Steps the clock: all timers that are due by now go off, by due cycle and then by arrival. -/
def tick (s : TimerSet σ) : List Timer × TimerSet σ :=
  let now := s.cycle + 1
  ((s.running.filter (·.due ≤ now)).mergeSort Timer.precedes,
    { s with cycle := now, running := s.running.filter (now < ·.due) })

end TimerSet

/-- One call of an engine's driver. A tick lends the books to the requests that end in it. -/
inductive EngineCall where
  | offer (request : Request)
  | tick (books : Books)

/-- What an engine answers: the timer it set, or that it is full, or which timers went off and what
the books are after it. -/
inductive EngineAnswer where
  | taken (timer : Timer)
  | refused
  | ended (timers : List Timer) (books : Books)

/-- A flight as a timer. -/
def Flight.timer (f : Flight) : Timer :=
  { request := f.request, due := f.due, arrival := f.arrival }

section Calls

variable {σ : Type} [LatencyModel σ]

/-- Answers one call. -/
def Engine.perform (e : Engine σ) : EngineCall → EngineAnswer × Engine σ
  | .offer r => ((e.offer r).1.elim .refused fun f => .taken f.timer, (e.offer r).2)
  | .tick b => (.ended (e.tick.1.map Flight.timer) (Engine.completeAll e.tick.1 b), e.tick.2)

/-- Answers one call. -/
def TimerSet.perform (s : TimerSet σ) : EngineCall → EngineAnswer × TimerSet σ
  | .offer r => ((s.offer r).1.elim .refused .taken, (s.offer r).2)
  | .tick b => (.ended s.tick.1 (Timer.completeAll s.tick.1 b), s.tick.2)

/-- The answers to all calls of a sequence, and the state they leave behind. -/
def performAll {S : Type} (perform : S → EngineCall → EngineAnswer × S) :
    S → List EngineCall → List EngineAnswer × S
  | s, [] => ([], s)
  | s, c :: rest =>
    let (answer, s') := perform s c
    let (later, last) := performAll perform s' rest
    (answer :: later, last)

end Calls

namespace Engine

variable {σ : Type}

/-- The engine's queue is the set in order, and both stand alike in all else. -/
structure Sorts (e : Engine σ) (s : TimerSet σ) : Prop where
  inOrder : e.InOrder
  running : (e.inFlight.map Flight.timer).Perm s.running
  room : e.inFlight.length ≤ e.capacity
  capacity : e.capacity = s.capacity
  model : e.model = s.model
  cycle : e.cycle = s.cycle
  arrivals : e.taken = s.arrivals

theorem completeAll_timers (flights : List Flight) (b : Books) :
    completeAll flights b = Timer.completeAll (flights.map Flight.timer) b := by
  rw [Timer.completeAll, List.foldl_map]
  rfl

/-- Flights in their order are what sorting makes of their timers, however these are mixed up. -/
theorem mergeSort_timers {flights : List Flight} {timers : List Timer}
    (hsorted : flights.Pairwise Flight.Before) (hperm : (flights.map Flight.timer).Perm timers) :
    timers.mergeSort Timer.precedes = flights.map Flight.timer := by
  have hstrict : (flights.map Flight.timer).Pairwise fun t u => t.precedes u ∧ ¬ u.precedes t := by
    apply List.pairwise_map.mpr
    apply hsorted.imp
    intro f g hfg
    simp only [Timer.precedes_iff, Flight.timer, Flight.Before] at hfg ⊢
    omega
  have hmerged : (timers.mergeSort Timer.precedes).Pairwise fun t u => t.precedes u := by
    apply List.pairwise_mergeSort
    · intro t u v
      simp only [Timer.precedes_iff]
      omega
    · intro t u
      simp only [Bool.or_eq_true, Timer.precedes_iff]
      omega
  have hall : (timers.mergeSort Timer.precedes).Perm (flights.map Flight.timer) :=
    (List.mergeSort_perm timers _).trans hperm.symm
  apply hall.eq_of_pairwise _ hmerged (hstrict.imp And.left)
  intro t u ht hu htu hut
  -- Two timers of one queue are in order both ways only if they are one.
  have hapart : (flights.map Flight.timer).Pairwise fun t u => ¬ (t.precedes u ∧ u.precedes t) :=
    hstrict.imp fun h h' => h.2 h'.2
  have hsymm : Std.Symm fun t u : Timer => ¬ (t.precedes u ∧ u.precedes t) :=
    ⟨fun _ _ h h' => h h'.symm⟩
  by_contra hne
  exact hapart.forall (hall.subset ht) hu hne ⟨htu, hut⟩

section Steps

variable {e : Engine σ} {s : TimerSet σ} (h : e.Sorts s)
include h

theorem Sorts.running_filter (p : Nat → Bool) :
    ((e.inFlight.filter fun f => p f.due).map Flight.timer).Perm
      (s.running.filter fun t => p t.due) := by
  have hfiltered := h.running.filter fun t => p t.due
  rwa [List.filter_map] at hfiltered

/-- What is due goes off in order, and the queue without it is the set without it. -/
theorem Sorts.tick : s.tick.1 = e.tick.1.map Flight.timer ∧ e.tick.2.Sorts s.tick.2 := by
  obtain ⟨hserved, hleft⟩ := h.inOrder.tick_eq
  have hdue : (e.inFlight.filter fun f => f.due ≤ e.cycle + 1).Pairwise Flight.Before :=
    h.inOrder.sorted.sublist List.filter_sublist
  have hlen : e.tick.2.inFlight.length ≤ e.inFlight.length := by
    rw [hleft]
    exact List.length_filter_le _ _
  constructor
  · rw [hserved, TimerSet.tick, ← h.cycle]
    exact mergeSort_timers hdue (h.running_filter (· ≤ e.cycle + 1))
  · refine ⟨h.inOrder.tick, ?_, Nat.le_trans hlen h.room, h.capacity, h.model, ?_, ?_⟩
    · rw [hleft, TimerSet.tick, ← h.cycle]
      exact h.running_filter (e.cycle + 1 < ·)
    · rw [tick_cycle, h.cycle]
      rfl
    · rw [e.tick_taken, h.arrivals]
      rfl

variable [LatencyModel σ]

/-- The timer that a set with room makes of a request is the flight of the engine. -/
theorem Sorts.timer_flightOf (r : Request) : (e.flightOf r).timer =
    { request := r
      due := min (s.cycle + (LatencyModel.access s.model r.addr).1.toNat) (UInt64.size - 1)
      arrival := s.arrivals } := by
  rw [← h.model, ← h.cycle, ← h.arrivals]
  rfl

/-- A full engine is a full set, and what either takes the other takes as well. -/
theorem Sorts.offer (r : Request) :
    (s.offer r).1 = (e.offer r).1.map Flight.timer ∧ (e.offer r).2.Sorts (s.offer r).2 := by
  have hlen : e.inFlight.length = s.running.length := by simpa using h.running.length_eq
  have hinOrder := h.inOrder.offer r
  by_cases hroom : e.inFlight.length < e.capacity
  · have hnot : s.running.length ≠ s.capacity := by
      rw [← hlen, ← h.capacity]
      exact Nat.ne_of_lt hroom
    rw [offer_of_room r hroom] at hinOrder ⊢
    rw [TimerSet.offer, if_neg hnot]
    refine ⟨congrArg some (h.timer_flightOf r).symm, hinOrder, ?_, ?_, h.capacity, ?_, h.cycle, ?_⟩
    · have hplaced := (place_perm e.inFlight (e.flightOf r)).map Flight.timer
      rw [List.map_cons, h.timer_flightOf r] at hplaced
      exact hplaced.trans (h.running.cons _)
    · rw [enter, (place_perm _ _).length_eq]
      exact hroom
    · rw [enter, h.model]
    · rw [(offer_taken (offer_of_room r hroom)).2.taken, h.arrivals]
      rfl
  · have hfull : s.running.length = s.capacity := by
      rw [← hlen, ← h.capacity]
      exact Nat.le_antisymm h.room (Nat.le_of_not_lt hroom)
    rw [offer_of_full e r (Nat.le_of_not_lt hroom)] at hinOrder ⊢
    rw [TimerSet.offer, if_pos hfull]
    exact ⟨rfl, { h with inOrder := hinOrder }⟩

/-- The engine and the set answer a call alike, and stand alike after it. -/
theorem Sorts.perform (c : EngineCall) :
    (e.perform c).1 = (s.perform c).1 ∧ (e.perform c).2.Sorts (s.perform c).2 := by
  cases c with
  | offer r =>
      obtain ⟨htimer, hafter⟩ := h.offer r
      refine ⟨?_, hafter⟩
      rw [Engine.perform, TimerSet.perform, htimer]
      cases (e.offer r).1 <;> rfl
  | tick b =>
      obtain ⟨htimers, hafter⟩ := h.tick
      refine ⟨?_, hafter⟩
      rw [Engine.perform, TimerSet.perform, htimers, completeAll_timers]

theorem Sorts.performAll (calls : List EngineCall) :
    (performAll Engine.perform e calls).1 = (performAll TimerSet.perform s calls).1 ∧
      (performAll Engine.perform e calls).2.Sorts (performAll TimerSet.perform s calls).2 := by
  induction calls generalizing e s with
  | nil => exact ⟨rfl, h⟩
  | cons c rest ih =>
      obtain ⟨hanswer, hafter⟩ := h.perform c
      obtain ⟨hlater, hlast⟩ := ih hafter
      exact ⟨congrArg₂ List.cons hanswer hlater, hlast⟩

end Steps

theorem sorts_new (ratio : UInt32) (capacity : Nat) (model : σ) :
    Sorts { ratio, capacity, model } { capacity, model } :=
  ⟨⟨.nil, by simp⟩, .refl _, Nat.zero_le _, rfl, rfl, rfl, rfl⟩

/-- The head of the queue is due first. -/
theorem InOrder.nextDue?_eq {e : Engine σ} (h : e.InOrder) :
    e.nextDue? = (e.inFlight.map (·.due)).min? := by
  rw [nextDue?, ← List.head?_map]
  symm
  apply List.min?_eq_head?
  apply List.pairwise_map.mpr
  apply h.sorted.imp
  intro f g hfg
  unfold Flight.Before at hfg
  omega

theorem Sorts.nextDue?_eq {e : Engine σ} {s : TimerSet σ} (h : e.Sorts s) :
    e.nextDue? = (s.running.map (·.due)).min? := by
  have hdues : (e.inFlight.map (·.due)).Perm (s.running.map (·.due)) := by
    have hmapped := h.running.map (·.due)
    rwa [List.map_map] at hmapped
  rw [h.inOrder.nextDue?_eq]
  apply Option.ext
  intro due
  simp only [List.min?_eq_some_iff, hdues.mem_iff]

/-- The engine refines a set of timers. Whatever its latency model, its capacity and what the
requests do at their end, it answers every sequence of offers and ticks as a set of timers does that
keeps no order: it takes and refuses the same requests, gives them the same due cycles and arrivals,
and ends them in the same order and on the same books. After every sequence the queue holds the
timers of the set and stands strictly in the order of due cycles and arrivals; so bisection finds for
every due cycle the place behind all that are due no later, the next due cycle is the least one of
the set, and after a tick all that is left is due later than the engine's cycle. -/
theorem queue_refines_timers [LatencyModel σ] (ratio : UInt32) (capacity : Nat) (model : σ)
    (calls : List EngineCall) :
    let run := performAll Engine.perform { ratio, capacity, model } calls
    let plain := performAll TimerSet.perform { capacity, model } calls
    let e := run.2
    let s := plain.2
    run.1 = plain.1 ∧
    (e.inFlight.map Flight.timer).Perm s.running ∧
    e.cycle = s.cycle ∧
    e.inFlight.Pairwise Flight.Before ∧
    (∀ due,
      let place := splitPoint (fun f => f.due ≤ due) e.inFlight
      (∀ f ∈ e.inFlight.take place, f.due ≤ due) ∧ ∀ f ∈ e.inFlight.drop place, due < f.due) ∧
    e.nextDue? = (s.running.map (·.due)).min? ∧
    ∀ f ∈ e.tick.2.inFlight, e.tick.2.cycle < f.due := by
  intro run plain e s
  obtain ⟨hanswers, h⟩ := (sorts_new ratio capacity model).performAll calls
  refine ⟨hanswers, h.running, h.cycle, h.inOrder.sorted, ?_, h.nextDue?_eq, ?_⟩
  · intro due place
    obtain ⟨hahead, hbehind⟩ := splitPoint_separates (h.inOrder.due_le due)
    constructor
    · intro f hf
      exact of_decide_eq_true (hahead f hf)
    · intro f hf
      simpa using hbehind f hf
  · intro f hf
    rw [h.inOrder.tick_eq.2] at hf
    simpa using (List.mem_filter.mp hf).2

/-- A slow read, a quick write that overtakes it, a read for which there is no room, and after a tick
a quick read that comes to stand behind the slow one: they are due in the same cycle. The first tick
closes the open write, the second leaves the replies of both reads in the order of their arrival. -/
theorem queue_refines_timers_overtaken :
    let model : ScriptedLatency := { table := [(1, 2)] }
    let request (a : Access) : Request := { a with followup := some (Followup.standard a.kind) }
    let books : Books :=
      { memory := {}, replies := {}, ledger := Ledger.enter {} 2 0 .write, cycle := 5 }
    let calls : List EngineCall :=
      [.offer (request ⟨1, .read, 0⟩), .offer (request ⟨2, .write, 0⟩),
        .offer (request ⟨3, .read, 0⟩), .tick books, .offer (request ⟨4, .read, 0⟩)]
    let run := performAll Engine.perform { ratio := 1, capacity := 2, model } calls
    let plain := performAll TimerSet.perform { capacity := 2, model } calls
    let whole := performAll TimerSet.perform { capacity := 2, model } (calls ++ [.tick books])
    let left : EngineAnswer → Option (List Reply × Bool × List Event)
      | .ended _ b => some (b.replies.waiting, b.ledger.isEmpty, b.log)
      | _ => none
    run.1 = plain.1 ∧
    run.2.inFlight.Pairwise Flight.Before ∧
    run.2.inFlight.map (fun f => (f.due, f.arrival)) = [(2, 0), (2, 2)] ∧
    plain.2.running.map (fun t => (t.due, t.arrival)) = [(2, 2), (2, 0)] ∧
    run.2.nextDue? = some 2 ∧
    whole.1.filterMap left =
      [([], true, [.writeRetired 2 5]),
        ([⟨1, 1⟩, ⟨4, 4⟩], false, [.replyQueued 1 5, .replyQueued 4 5])] := by
  intro model request books calls run plain whole left
  obtain ⟨hanswers, -, -, hsorted, -, hdue, -⟩ := queue_refines_timers 1 2 model calls
  obtain ⟨hwhole, -⟩ := queue_refines_timers 1 2 model (calls ++ [.tick books])
  have hleast : (plain.2.running.map (·.due)).min? = some 2 := by decide
  have hleft := congrArg (List.filterMap left) hwhole
  exact ⟨hanswers, hsorted, by decide, by decide, hdue.trans hleast, hleft.symm.trans (by decide)⟩

end Engine

end CycleBridge
