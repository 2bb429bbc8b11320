import CycleBridge.Latency.Fixed
import CycleBridge.Proofs.Engine.Later
import CycleBridge.Proofs.Engine.Order
import Mathlib.Logic.Function.Iterate

/-!
# What one turn of the frontend hands over

A tick of the frontend takes out the oldest request, offers it to the engine and goes on with the
next one, until the queue is empty or the engine refuses; a refused request is put back in front.
`Forwarding.round` is one such round. The rounds end by themselves with what `Frontend.forward`
returns: the engine has taken as many of the oldest requests as it had room for.
-/

namespace CycleBridge

/-- The frontend between two offers: what the engine took so far, what is pending, and whether
another round follows. -/
structure Forwarding (σ : Type) where
  flights : List Flight := []
  pending : List Request
  engine : Engine σ
  running : Bool := true

/-- One round: the oldest request is taken out and offered, and put back if the engine refuses it.
The rounds end with a refusal or an empty queue. -/
def Forwarding.round {σ : Type} [LatencyModel σ] (s : Forwarding σ) : Forwarding σ :=
  if s.running then
    match s.pending with
    | [] => { s with running := false }
    | r :: rest =>
      match s.engine.offer r with
      | (some f, engine) => { s with flights := s.flights ++ [f], pending := rest, engine }
      | (none, engine) => { s with pending := r :: rest, engine, running := false }
  else s

namespace Frontend

variable {σ : Type} [LatencyModel σ]

/-- The rounds are over after one more than there are requests that the engine took, and not before;
what they leave is what forwarding returns. -/
theorem rounds_eq_forward (rs : List Request) (e : Engine σ) (flights : List Flight) :
    let out := forward rs e
    let start : Forwarding σ := { flights, pending := rs, engine := e }
    (Forwarding.round^[out.1.length] start).running = true ∧
      Forwarding.round^[out.1.length + 1] start =
        { flights := flights ++ out.1
          pending := out.2.1
          engine := out.2.2
          running := false } := by
  induction rs generalizing e flights with
  | nil => simp [forward, Forwarding.round]
  | cons r rest ih =>
      rcases ho : e.offer r with ⟨_ | f, e'⟩
      · simp [forward, ho, Forwarding.round]
      · have hround : Forwarding.round { flights, pending := r :: rest, engine := e } =
            { flights := flights ++ [f], pending := rest, engine := e' } := by
          simp [Forwarding.round, ho]
        obtain ⟨hrunning, hover⟩ := ih e' (flights ++ [f])
        simp only [forward, ho, List.length_cons, Function.iterate_succ_apply, hround]
        rw [List.append_assoc, List.singleton_append] at hover
        exact ⟨hrunning, hover⟩

/-- The engine takes requests as long as there are any and it has room. -/
theorem length_forward (rs : List Request) {e : Engine σ} (h : e.inFlight.length ≤ e.capacity) :
    (forward rs e).1.length = min rs.length (e.capacity - e.inFlight.length) := by
  induction rs generalizing e with
  | nil => simp [forward]
  | cons r rest ih =>
      by_cases hroom : e.inFlight.length < e.capacity
      · have hlen : (e.enter r).inFlight.length = e.inFlight.length + 1 :=
          (Engine.place_perm e.inFlight (e.flightOf r)).length_eq
        have hcapacity : (e.enter r).capacity = e.capacity := rfl
        rw [forward_of_room r rest hroom, List.length_cons, List.length_cons,
          ih (by omega), hlen, hcapacity]
        omega
      · rw [forward_of_full r rest (Nat.le_of_not_lt hroom), List.length_nil]
        omega

/-- What the engine takes is the beginning of the queue, and the rest of the queue stays. -/
theorem forward_eq_take_drop (rs : List Request) (e : Engine σ) :
    (forward rs e).1.map (·.request) = rs.take (forward rs e).1.length ∧
      (forward rs e).2.1 = rs.drop (forward rs e).1.length := by
  have hall := forward_requests rs e
  have hlen : ((forward rs e).1.map (·.request)).length = (forward rs e).1.length :=
    List.length_map _
  constructor
  · exact (List.take_left' hlen).symm.trans (congrArg (List.take _) hall)
  · exact (List.drop_left' hlen).symm.trans (congrArg (List.drop _) hall)

/-- One tick of the frontend hands over what fits, in order. Of the pending requests the engine
takes the oldest ones, as many as it has room for; the others stay as they are and in their order.
The frontend counts a cycle and the requests that it forwarded, the engine counts a refusal if
requests are left over, and nothing else about its clock and its service changes: all that was in
flight still is, and so is all that it took. The rounds of which the tick consists come to an end,
one after the last request that is taken. -/
theorem tick_forwards_what_fits (q : Frontend) (e : Engine σ)
    (room : e.inFlight.length ≤ e.capacity) :
    let n := min q.pending.length (e.capacity - e.inFlight.length)
    let t := q.tick e
    let start : Forwarding σ := { pending := q.pending, engine := e }
    t.flights.map (·.request) = q.pending.take n ∧
    t.frontend =
      { q with
        pending := q.pending.drop n
        counts :=
          { q.counts with
            cycles := q.counts.cycles + 1
            forwarded := q.counts.forwarded + n } } ∧
    t.engine.counts.refused =
      e.counts.refused + (if e.capacity - e.inFlight.length < q.pending.length then 1 else 0) ∧
    t.engine.cycle = e.cycle ∧
    t.engine.inFlight.Perm (e.inFlight ++ t.flights) ∧
    t.engine.counts.readsServed = e.counts.readsServed ∧
    t.engine.counts.writesServed = e.counts.writesServed ∧
    (Forwarding.round^[n] start).running = true ∧
    Forwarding.round^[n + 1] start =
      { flights := t.flights
        pending := t.frontend.pending
        engine := t.engine
        running := false } := by
  intro n t start
  have hlen : (forward q.pending e).1.length = n := length_forward q.pending room
  have htakes : e.Takes t.flights t.engine := forward_takes q.pending e
  have hrefused := forward_refused q.pending e
  obtain ⟨hrequests, hleft⟩ := forward_eq_take_drop q.pending e
  obtain ⟨hrunning, hover⟩ := rounds_eq_forward q.pending e []
  rw [hlen] at hrequests hleft hrunning hover
  refine ⟨hrequests, ?_, ?_, htakes.cycle, htakes.inFlight, htakes.reads, htakes.writes, hrunning,
    hover⟩
  · change { q with pending := (forward q.pending e).2.1, counts := _ } = _
    rw [hleft, hlen]
  · change (forward q.pending e).2.2.counts.refused = _
    have hnone : q.pending.drop n = [] ↔ ¬ e.capacity - e.inFlight.length < q.pending.length := by
      rw [List.drop_eq_nil_iff]
      omega
    rw [hrefused, hleft]
    simp only [hnone, ite_not]

/-- An engine with one request in flight and room for one more, and three pending requests, each
with what follows it: the first is forwarded, the second is refused and stays ahead of the third. -/
theorem tick_forwards_what_fits_one :
    let e : Engine FixedLatency :=
      (Engine.offer { ratio := 1, capacity := 2, model := ⟨3⟩ } ⟨⟨1, .read, 0⟩, none⟩).2
    let pending : List Request :=
      [⟨⟨2, .write, 0⟩, some .retire⟩, ⟨⟨3, .read, 1⟩, some .reply⟩, ⟨⟨2, .write, 2⟩, none⟩]
    let t := Frontend.tick { ratio := 1, depth := 4, pending } e
    e.inFlight.length ≤ e.capacity ∧ t.flights.map (·.request) = pending.take 1 ∧
      t.frontend.pending = pending.drop 1 ∧ t.engine.counts.refused = 1 := by
  intro e pending t
  have room : e.inFlight.length ≤ e.capacity := by decide
  obtain ⟨hrequests, hfrontend, hrefused, -⟩ :=
    tick_forwards_what_fits { ratio := 1, depth := 4, pending } e room
  exact ⟨room, hrequests, congrArg (·.pending) hfrontend, hrefused⟩

end Frontend

end CycleBridge
