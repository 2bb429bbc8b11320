import CycleBridge.Engine.Basic

/-!
# The frontend queue

The frontend takes requests up to its depth and, each time it is driven, forwards them in order to
the engine until the engine refuses one. The refused request stays at the head of the queue.
-/

namespace CycleBridge

/-- The requests accepted and not yet forwarded, oldest first. -/
structure Frontend where
  ratio : UInt32
  depth : Nat
  pending : List Request := []
  counts : FrontendCounts := {}

/-- What a frontend tick did: the requests that are in flight now, and both sides afterwards. -/
structure Transfer (σ : Type) where
  flights : List Flight
  frontend : Frontend
  engine : Engine σ

namespace Frontend

/-- Offers a request; a full queue refuses it and counts the refusal. -/
def offer (q : Frontend) (r : Request) : Bool × Frontend :=
  if q.pending.length ≥ q.depth then
    (false, { q with counts := { q.counts with rejected := q.counts.rejected + 1 } })
  else
    (true,
      { q with
        pending := q.pending ++ [r]
        counts := { q.counts with accepted := q.counts.accepted + 1 } })

/-- Sends requests to the engine in order until it refuses one: what it took, the requests that are
left over, and the engine afterwards. -/
def forward {σ : Type} [LatencyModel σ] :
    List Request → Engine σ → List Flight × List Request × Engine σ
  | [], e => ([], [], e)
  | r :: rest, e =>
    match e.offer r with
    | (none, e') => ([], r :: rest, e')
    | (some f, e') =>
      let (flights, left, e'') := forward rest e'
      (f :: flights, left, e'')

/-- Steps the frontend's clock and forwards what the engine takes. -/
def tick {σ : Type} [LatencyModel σ] (q : Frontend) (e : Engine σ) : Transfer σ :=
  let (flights, left, engine) := forward q.pending e
  { flights
    frontend :=
      { q with
        pending := left
        counts :=
          { q.counts with
            cycles := q.counts.cycles + 1
            forwarded := q.counts.forwarded + flights.length } }
    engine }

/-- Closes the frontend: what was never forwarded is given up and counted. -/
def close (q : Frontend) : Frontend :=
  { q with
    pending := []
    counts := { q.counts with abandoned := q.pending.length } }

/-- What the frontend reports when it is closed. -/
def closingEvents (q : Frontend) : List Event :=
  (if q.pending.isEmpty then [] else [.frontendLeftOver q.pending.length]) ++
    [.frontendClosed q.counts.cycles]

/-- Forwarding neither loses nor reorders: what the engine took, followed by what is left, is what
there was. -/
theorem forward_requests {σ : Type} [LatencyModel σ] (rs : List Request) (e : Engine σ) :
    (forward rs e).1.map (·.request) ++ (forward rs e).2.1 = rs := by
  induction rs generalizing e with
  | nil => rfl
  | cons r rest ih =>
    simp only [forward]
    rcases h : e.offer r with ⟨f, e'⟩
    cases f with
    | none => rfl
    | some f =>
      have hr : f.request = r := by
        unfold Engine.offer at h
        split at h
        · simp at h
        · simp only [Prod.mk.injEq, Option.some.injEq] at h
          exact h.1 ▸ rfl
      simp [hr, ih e']

end Frontend

end CycleBridge
