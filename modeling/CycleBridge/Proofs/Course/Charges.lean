import CycleBridge.Proofs.Course.Correlation
import CycleBridge.Proofs.Course.Sequence

/-!
# Which read is charged

A drained reply is charged to the oldest open read at its address, which need not be the read that
the reply stems from: an engine may serve two reads of one address out of their order. What is
charged is then the time since another read of the address was accepted. Where the replies of an
address stem from its reads in turn, each of them is charged to its own read, and so it is wherever
the latency model knows one latency only. The extremes that a bridge counts are those of what was
charged.
-/

namespace CycleBridge

open Flight

theorem min?_snoc (xs : List Nat) (x : Nat) :
    (xs ++ [x]).min? = some (xs.min?.elim x (min · x)) := by
  cases xs with
  | nil => rfl
  | cons y rest => simp [List.min?]

theorem max?_snoc (xs : List Nat) (x : Nat) :
    (xs ++ [x]).max?.getD 0 = max (xs.max?.getD 0) x := by
  cases xs with
  | nil => simp
  | cons y rest => simp [List.max?]

/-- What stands second in a zip is the beginning of the second list. -/
theorem prefix_snd_zip {α β : Type} (xs : List α) (ys : List β) :
    (xs.zip ys).map (·.2) <+: ys := by
  induction xs generalizing ys with
  | nil => exact List.nil_prefix
  | cons x xs ih =>
      cases ys with
      | nil => exact List.nil_prefix
      | cons y ys => simpa using ih ys

theorem filterMap_range_getElem? {α : Type} (xs : List α) (n : Nat) :
    (List.range n).filterMap (xs[·]?) = xs.take n := by
  induction n with
  | zero => rfl
  | succ n ih =>
      rw [List.range_succ, List.filterMap_append, ih, List.take_add_one]
      cases h : xs[n]? <;> simp [h]

theorem Bridge.advance_extremes {σ : Type} [LatencyModel σ] (b : Bridge σ) :
    b.advance.bridge.counts.latencyMin = b.counts.latencyMin ∧
      b.advance.bridge.counts.latencyMax = b.counts.latencyMax := by
  rw [advance_bridge, passEngine, midway, passFrontend]
  split <;> split <;> exact ⟨rfl, rfl⟩

namespace Course

variable {σ : Type}

/-- The accesses that the replies stem from, drained or waiting: each reply was left by a flight,
and the flight's arrival number is the place of its access in the order of acceptance. -/
def owners (k : Course σ) : List Submission :=
  (reads k.served).filterMap fun f => k.accepted[f.arrival]?

/-- The drained replies, each with the access that it stems from. -/
def settled (k : Course σ) : List (Delivery × Submission) := k.delivered.zip k.owners

/-- The replies drained for an address, each with the access that it stems from. -/
def settledAt (k : Course σ) (a : Word) : List (Delivery × Submission) :=
  k.settled.filter (·.1.reply.addr = a)

/-- The replies drained for an address stem from the reads accepted there in their order. -/
def InTurn (k : Course σ) (a : Word) : Prop := (k.settledAt a).map (·.2) <+: k.readsAt a

instance (k : Course σ) (a : Word) : Decidable (k.InTurn a) :=
  inferInstanceAs (Decidable (_ <+: _))

/-- How long the drained replies took since the accesses were accepted that they stem from. -/
def ownLatencies (k : Course σ) : List Nat := k.settled.map fun p => p.1.cycle - p.2.cycle

namespace Conserved

variable {k : Course σ} (h : k.Conserved)
include h

theorem mem_forwarded_of_reads {f : Flight} (hf : f ∈ reads k.served) : f ∈ k.forwarded :=
  h.inEngine.subset (List.mem_append_left _ (List.mem_of_mem_filter hf))

theorem owners_requests :
    k.owners.map (·.access.request) = (reads k.served).map (·.request) := by
  have hat : ∀ f ∈ reads k.served,
      (k.accepted[f.arrival]?).map (·.access.request) = some f.request := by
    intro f hf
    exact h.accepted_at (h.mem_forwarded_of_reads hf)
  rw [owners, List.map_filterMap, List.filterMap_congr hat]
  exact congrFun List.filterMap_eq_map _

theorem delivered_le_owners : k.delivered.length ≤ k.owners.length := by
  have hlen := congrArg List.length h.owners_requests
  have hreads := h.length_reads
  rw [List.length_map, List.length_map] at hlen
  omega

/-- A reply stems from a read at its address. -/
theorem owner_reads {n : Nat} {d : Delivery} {s : Submission} (hd : k.delivered[n]? = some d)
    (hs : k.owners[n]? = some s) : s.access.kind = .read ∧ s.access.addr = d.reply.addr := by
  have hrequest := congrArg (·[n]?) h.owners_requests
  have hreply := congrArg (·[n]?) h.replies
  have hlt := (List.getElem?_eq_some_iff.mp hd).1
  simp only [List.getElem?_map, hs, Option.map_some] at hrequest
  obtain ⟨f, hf, hfs⟩ := Option.map_eq_some_iff.mp hrequest.symm
  rw [List.getElem?_append_left (by simpa using hlt), List.getElem?_map, List.getElem?_map, hd, hf,
    Option.map_some, Option.map_some, Option.some.injEq] at hreply
  have hkind : f.request.kind = .read :=
    of_decide_eq_true (List.mem_filter.mp (List.mem_of_getElem? hf)).2
  rw [hfs] at hkind hreply
  exact ⟨hkind, hreply.symm⟩

theorem entered_of_owner {s : Submission} (hs : s ∈ k.owners) :
    s ∈ k.accepted.take k.forwarded.length := by
  obtain ⟨f, hf, hat⟩ := List.mem_filterMap.mp hs
  have hforwarded := h.forwarded_at (h.mem_forwarded_of_reads hf)
  have hlt := (List.getElem?_eq_some_iff.mp hforwarded).1
  apply List.mem_of_getElem? (i := f.arrival)
  rwa [List.getElem?_take_of_lt hlt]

theorem owners_accept (a : Access) (data : Word) : (k.accept a data).owners = k.owners := by
  apply List.filterMap_congr
  intro f hf
  have hat := h.accepted_at (h.mem_forwarded_of_reads hf)
  obtain ⟨s, hs, -⟩ := Option.map_eq_some_iff.mp hat
  exact List.getElem?_append_left (List.getElem?_eq_some_iff.mp hs).1

end Conserved

theorem owners_advance [LatencyModel σ] (k : Course σ) :
    k.advance.owners = k.owners ++
      (reads k.bridge.advance.served).filterMap fun f => k.accepted[f.arrival]? := by
  rw [owners, advance_served, reads_append, List.filterMap_append]
  rfl

/-- What a course says of the charges: a read is accepted before its reply is drained, and the
extremes are those of what was charged. -/
structure Charged (k : Course σ) : Prop where
  before : ∀ (n : Nat) (d : Delivery) (s : Submission), k.delivered[n]? = some d →
    k.owners[n]? = some s → s.cycle < d.cycle
  least : k.bridge.counts.latencyMin = k.latencies.min?
  greatest : k.bridge.counts.latencyMax = k.latencies.max?.getD 0

theorem charged_of_isNew {b : Bridge σ} (hb : b.IsNew) : Charged { bridge := b } := by
  obtain ⟨clock, ratio, ratio', depth, capacity, model, rule, rfl⟩ := hb.exists_eq
  exact ⟨by simp, rfl, rfl⟩

theorem charged_accept {k : Course σ} (hc : k.Conserved) (h : k.Charged) (a : Access)
    (data : Word) : (k.accept a data).Charged := by
  constructor
  · rw [hc.owners_accept]
    exact h.before
  · rw [accept_bridge, Bridge.accept_counts]
    exact h.least
  · rw [accept_bridge, Bridge.accept_counts]
    exact h.greatest

theorem charged_advance [LatencyModel σ] {k : Course σ} (hc : k.Conserved) (h : k.Charged) :
    k.advance.Charged := by
  obtain ⟨hmin, hmax⟩ := k.bridge.advance_extremes
  constructor
  · intro n d s hd hs
    have hlt : n < k.owners.length :=
      Nat.lt_of_lt_of_le (List.getElem?_eq_some_iff.mp hd).1 hc.delivered_le_owners
    rw [owners_advance, List.getElem?_append_left hlt] at hs
    exact h.before n d s hd hs
  · rw [advance_bridge, hmin]
    exact h.least
  · rw [advance_bridge, hmax]
    exact h.greatest

theorem charged_drain {k : Course σ} (hc : k.Conserved) (hd : k.Dated) (h : k.Charged)
    {d : Delivery} {b : Bridge σ} (drains : k.bridge.Drains d b) : (k.drain d b).Charged := by
  have hlatencies := k.latencies_drain d b
  constructor
  · intro n d' s hn hs
    rcases getElem?_snoc hn with hold | ⟨rfl, rfl⟩
    · exact h.before n d' s hold hs
    -- The read of the new delivery entered the engine, so it was accepted before this cycle.
    · rw [drains.cycle]
      exact hd.entered s (hc.entered_of_owner (List.mem_of_getElem? hs))
  · rw [hlatencies, drain_bridge, drains.counts]
    cases d.latency with
    | none => simpa using h.least
    | some latency =>
        rw [Option.toList_some, min?_snoc, ← h.least]
        rfl
  · rw [hlatencies, drain_bridge, drains.counts]
    cases d.latency with
    | none => simpa using h.greatest
    | some latency =>
        rw [Option.toList_some, max?_snoc, ← h.greatest]
        rfl

theorem charged_step [LatencyModel σ] {k k' : Course σ} {news : List Occurrence}
    (hc : k.Conserved) (hd : k.Dated) (h : k.Charged) (hs : k.Step news k') : k'.Charged := by
  cases hs with
  | stay => exact h
  | accept a data allowed room => exact charged_accept hc h a data
  | refuseOverlap => exact { h with }
  | refuseFull => exact { h with }
  | advance => exact charged_advance hc h
  | drain d b drains => exact charged_drain hc hd h drains

section Settled

variable {k : Course σ} (hc : k.Conserved)
include hc

theorem settled_deliveries : k.settled.map (·.1) = k.delivered :=
  List.map_fst_zip hc.delivered_le_owners

theorem settledAt_deliveries (a : Word) : (k.settledAt a).map (·.1) = k.deliveredAt a := by
  rw [settledAt, deliveredAt, ← settled_deliveries hc, List.filter_map]
  rfl

theorem settled_reads (hch : k.Charged) {p : Delivery × Submission} (hp : p ∈ k.settled) :
    p.2 ∈ k.accepted ∧ p.2.access.kind = .read ∧ p.2.access.addr = p.1.reply.addr ∧
      p.2.cycle < p.1.cycle := by
  obtain ⟨n, hn⟩ := List.mem_iff_getElem?.mp hp
  obtain ⟨hdelivery, howner⟩ := List.getElem?_zip_eq_some.mp hn
  obtain ⟨hkind, haddr⟩ := hc.owner_reads hdelivery howner
  have haccepted := hc.entered_of_owner (List.mem_of_getElem? howner)
  exact ⟨List.mem_of_mem_take haccepted, hkind, haddr, hch.before n _ _ hdelivery howner⟩

theorem settledAt_owners (hch : k.Charged) (a : Word) :
    (k.settledAt a).map (·.2) <+: k.owners.filter (·.access.addr = a) := by
  have hsame : k.settledAt a = k.settled.filter (·.2.access.addr = a) := by
    apply List.filter_congr
    intro p hp
    rw [(settled_reads hc hch hp).2.2.1]
  have hsecond : (k.settledAt a).map (·.2) =
      (k.settled.map (·.2)).filter (·.access.addr = a) := by
    rw [hsame, List.filter_map]
    rfl
  rw [hsecond]
  exact (prefix_snd_zip _ _).filter _

/-- A drained reply is charged to the read that was accepted at its address after as many others as
were drained there before it. -/
theorem charged_to (hch : k.Charged) (hco : k.Correlated) {a : Word} {n : Nat} {d : Delivery}
    {own : Submission} (hn : (k.settledAt a)[n]? = some (d, own)) :
    ∃ r, (k.readsAt a)[n]? = some r ∧ r.cycle < d.cycle ∧ d.latency = some (d.cycle - r.cycle) ∧
      (d.latency = some (d.cycle - own.cycle) ↔ r.cycle = own.cycle) := by
  have hdelivered : (k.deliveredAt a)[n]? = some d := by
    rw [← settledAt_deliveries hc, List.getElem?_map, hn]
    rfl
  have hsettled : (d, own) ∈ k.settled := List.mem_of_mem_filter (List.mem_of_getElem? hn)
  obtain ⟨r, hread, hlt, hlatency⟩ := hco.charged a n d hdelivered
  obtain ⟨-, -, -, hlt'⟩ := settled_reads hc hch hsettled
  refine ⟨r, hread, hlt, hlatency, ?_⟩
  rw [hlatency, Option.some.injEq]
  omega

/-- Where the replies of an address stem from its reads in turn, each is charged to its own. -/
theorem charged_of_inTurn (hch : k.Charged) (hco : k.Correlated) {p : Delivery × Submission}
    (hp : p ∈ k.settled) (hturn : k.InTurn p.1.reply.addr) :
    p.1.latency = some (p.1.cycle - p.2.cycle) := by
  have hat : p ∈ k.settledAt p.1.reply.addr := by simpa [settledAt] using hp
  obtain ⟨n, hn⟩ := List.mem_iff_getElem?.mp hat
  obtain ⟨r, hread, -, -, hown⟩ := charged_to hc hch hco hn
  obtain ⟨rest, hrest⟩ := hturn
  have hlt := (List.getElem?_eq_some_iff.mp hn).1
  rw [← hrest, List.getElem?_append_left (by simpa using hlt), List.getElem?_map, hn,
    Option.map_some, Option.some.injEq] at hread
  exact hown.mpr (congrArg (·.cycle) hread.symm)

theorem latencies_of_inTurn (hch : k.Charged) (hco : k.Correlated)
    (hturn : ∀ d ∈ k.delivered, k.InTurn d.reply.addr) : k.latencies = k.ownLatencies := by
  have hown : ∀ p ∈ k.settled, p.1.latency = some (p.1.cycle - p.2.cycle) := by
    intro p hp
    apply charged_of_inTurn hc hch hco hp
    apply hturn
    rw [← settled_deliveries hc]
    exact List.mem_map_of_mem hp
  rw [latencies, ← settled_deliveries hc, List.filterMap_map]
  refine (List.filterMap_congr hown).trans ?_
  exact congrFun List.filterMap_eq_map _

end Settled

end Course

namespace Bridge

variable {σ : Type} [LatencyModel σ] {b : Bridge σ}

theorem course_charged (hb : b.IsNew) (calls : List Call) : (b.course calls).Charged := by
  apply journal_induction (I := fun _ k => k.Charged) (Course.charged_of_isNew hb)
  intro calls c news h hs
  exact Course.charged_step (course_conserved hb calls) (course_dated hb calls) h hs

/-- With one latency, replies stem from the accepted reads in their order. -/
theorem owners_of_always (hb : b.IsNew) {latency : Word}
    (h : LatencyModel.Always b.engine.model (· = latency)) (calls : List Call) :
    let k := b.course calls
    k.owners = (k.accepted.take k.served.length).filter (·.access.kind = .read) := by
  intro k
  have hc : k.Conserved := course_conserved hb calls
  have hline : k.served ++ k.bridge.engine.inFlight = k.forwarded := course_inSequence hb h calls
  -- What was served is the beginning of what was forwarded, so its arrival numbers count from zero.
  have harrivals : k.served.map (·.arrival) = List.range k.served.length := by
    have hlen := hc.length_forwarded
    have hserved : k.served = k.forwarded.take k.served.length := by rw [← hline, List.take_left]
    rw [hserved, List.map_take, hc.arrivals, List.take_range, List.length_take]
  rw [← filterMap_range_getElem?, ← harrivals, List.filterMap_map, List.filter_filterMap,
    Course.owners, reads, List.filterMap_filter]
  apply List.filterMap_congr
  intro f hf
  have hforwarded : f ∈ k.forwarded := hline ▸ List.mem_append_left _ hf
  obtain ⟨s, hs, hrequest⟩ := Option.map_eq_some_iff.mp (hc.accepted_at hforwarded)
  have hkind : s.access.kind = f.request.kind := congrArg (·.kind) hrequest
  simp [hs, ← hkind, Option.filter]

theorem inTurn_of_always (hb : b.IsNew) {latency : Word}
    (h : LatencyModel.Always b.engine.model (· = latency)) (calls : List Call) (a : Word) :
    (b.course calls).InTurn a := by
  have howners := Course.settledAt_owners (course_conserved hb calls) (course_charged hb calls) a
  rw [owners_of_always hb h calls, List.filter_filter] at howners
  have hreads := (List.take_prefix (b.course calls).served.length
    (b.course calls).accepted).filter fun s => s.access.kind = .read ∧ s.access.addr = a
  rw [Course.InTurn, Course.readsAt]
  simp only [Bool.decide_and, Bool.and_comm] at hreads ⊢
  exact howners.trans hreads

/-- What the latencies under the track rule are, with any latency model. Every drained reply stems
from one accepted read at its address. It is charged the cycles since the read was accepted that is
next in the order of acceptance there: as many reads were accepted at the address before that one as
replies were drained there before. That is the time of its own read exactly if both were accepted in
one cycle. The extremes that the bridge counts are those of what was charged. Where the replies of
each address stem from its reads in turn, every one is charged to its own read and the extremes are
those of the true times; so it is whenever the model knows one latency only. -/
theorem replies_charged_in_order_of_acceptance (hb : b.IsNew) (hr : b.ledger.rule = .track)
    (calls : List Call) :
    let k := b.course calls
    let counts := (b.after calls).counts
    k.settled.map (·.1) = k.delivered ∧
    (∀ d own, (d, own) ∈ k.settled → own ∈ k.accepted ∧ own.access.kind = .read ∧
      own.access.addr = d.reply.addr ∧ own.cycle < d.cycle) ∧
    (∀ a (n : Nat) d own, (k.settledAt a)[n]? = some (d, own) →
      ∃ r, (k.readsAt a)[n]? = some r ∧ r.cycle < d.cycle ∧
        d.latency = some (d.cycle - r.cycle) ∧
        (d.latency = some (d.cycle - own.cycle) ↔ r.cycle = own.cycle)) ∧
    counts.latencyMin = k.latencies.min? ∧ counts.latencyMax = k.latencies.max?.getD 0 ∧
    (∀ d own, (d, own) ∈ k.settled → k.InTurn d.reply.addr →
      d.latency = some (d.cycle - own.cycle)) ∧
    ((∀ d ∈ k.delivered, k.InTurn d.reply.addr) →
      counts.latencyMin = k.ownLatencies.min? ∧
        counts.latencyMax = k.ownLatencies.max?.getD 0) ∧
    ∀ latency, LatencyModel.Always b.engine.model (· = latency) → ∀ a, k.InTurn a := by
  intro k counts
  have hrule : b.ledger.rule ≠ .overwrite := by simp [hr]
  have hc : k.Conserved := course_conserved hb calls
  have hch : k.Charged := course_charged hb calls
  have hco : k.Correlated := course_correlated hb hrule calls
  have hcounts : counts = k.bridge.counts := congrArg (·.counts) (course_bridge b calls).symm
  have hleast : counts.latencyMin = k.latencies.min? := hcounts ▸ hch.least
  have hgreatest : counts.latencyMax = k.latencies.max?.getD 0 := hcounts ▸ hch.greatest
  refine ⟨Course.settled_deliveries hc, ?_, ?_, hleast, hgreatest, ?_, ?_, ?_⟩
  · intro d own hp
    exact Course.settled_reads hc hch hp
  · intro a n d own hn
    exact Course.charged_to hc hch hco hn
  · intro d own hp hturn
    exact Course.charged_of_inTurn hc hch hco hp hturn
  · intro hturn
    rw [hleast, hgreatest, Course.latencies_of_inTurn hc hch hco hturn]
    exact ⟨rfl, rfl⟩
  · intro latency h a
    exact inTurn_of_always hb h calls a

/-- Two reads of one address, the second accepted while the first, a row miss, is in flight, and too
late to overtake it: both are charged to their own reads, and both extremes are true. -/
theorem replies_charged_in_order_of_acceptance_small :
    let b := small (RowBuffer.ofTimings 1 4 2) .track
    let calls := .submit ⟨5, .read, 0⟩ 0 :: List.replicate 5 .advance ++
      .submit ⟨5, .read, 1⟩ 0 :: List.replicate 3 .advance ++ [.drain, .drain]
    let k := b.course calls
    b.IsNew ∧ b.ledger.rule = .track ∧ (∀ d ∈ k.delivered, k.InTurn d.reply.addr) ∧
      (∀ p ∈ k.settled, p.1.latency = some (p.1.cycle - p.2.cycle)) ∧
      (b.after calls).counts.latencyMin = some 3 ∧ (b.after calls).counts.latencyMax = 8 := by
  intro b calls k
  have hnew : b.IsNew := small_isNew _ _
  obtain ⟨hdeliveries, -, -, -, -, hown, hextremes, -⟩ :=
    replies_charged_in_order_of_acceptance hnew rfl calls
  have hturn : ∀ d ∈ k.delivered, k.InTurn d.reply.addr := by decide
  obtain ⟨hleast, hgreatest⟩ := hextremes hturn
  have htimes : k.ownLatencies = [8, 3] := by decide
  rw [htimes] at hleast hgreatest
  refine ⟨hnew, rfl, hturn, ?_, hleast, hgreatest⟩
  rintro ⟨d, own⟩ hp
  apply hown d own hp
  apply hturn
  rw [← hdeliveries]
  exact List.mem_map_of_mem hp

/-- Two reads of one row, accepted in cycles 0 and 1: the second finds the row open and is served
first. The replies are drained in cycles 2 and 6. They are charged 2 and 5 cycles, but the reads that
they stem from took 1 and 6, so neither extreme is the true one. -/
theorem charged_to_another_read :
    let b := small (RowBuffer.ofTimings 1 4 2) .track
    let calls := [.submit ⟨5, .read, 0⟩ 0, .advance, .submit ⟨5, .read, 1⟩ 0, .advance, .drain] ++
      List.replicate 4 .advance ++ [.drain]
    let k := b.course calls
    b.IsNew ∧ b.ledger.rule = .track ∧
      k.settled =
        [(⟨⟨5, 5⟩, 2, some 2⟩, ⟨⟨5, .read, 1⟩, 0, 1⟩),
          (⟨⟨5, 5⟩, 6, some 5⟩, ⟨⟨5, .read, 0⟩, 0, 0⟩)] ∧
      ¬ (∀ d own, (d, own) ∈ k.settled → d.latency = some (d.cycle - own.cycle)) ∧
      k.ownLatencies = [1, 6] ∧
      (b.after calls).counts.latencyMin = some 2 ∧ (b.after calls).counts.latencyMax = 5 := by
  intro b calls k
  have hsettled : k.settled =
      [(⟨⟨5, 5⟩, 2, some 2⟩, ⟨⟨5, .read, 1⟩, 0, 1⟩),
        (⟨⟨5, 5⟩, 6, some 5⟩, ⟨⟨5, .read, 0⟩, 0, 0⟩)] := by
    decide
  refine ⟨small_isNew _ _, rfl, hsettled, ?_, by decide, by decide, by decide⟩
  intro h
  have hfirst := h ⟨⟨5, 5⟩, 2, some 2⟩ ⟨⟨5, .read, 1⟩, 0, 1⟩ (by simp [hsettled])
  exact absurd hfirst (by decide)

end Bridge

end CycleBridge
