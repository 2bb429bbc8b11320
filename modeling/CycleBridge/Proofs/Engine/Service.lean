import CycleBridge.Engine.Basic
import CycleBridge.Proofs.Ledger.Keys
import Mathlib.Data.List.TakeDrop

/-!
# What the engine lets go

A tick splits the requests in flight into those it serves and those that stay. Where every request
carries the follow-up of its kind, serving a list of flights leaves one reply for each read, with
what the memory holds then, and settles one open write for each write.
-/

namespace CycleBridge

/-- A request that does at its end what an access of its kind calls for. -/
def Request.Standard (r : Request) : Prop := r.followup = some (Followup.standard r.kind)

namespace Ledger

/-- The ledger after a write at an address ran its course. -/
def retire (l : Ledger) (addr : Word) : Ledger :=
  match l.settle? addr .write with
  | some (_, m) => m
  | none => l

theorem Tidy.retire {l : Ledger} (h : l.Tidy) (a : Word) : (l.retire a).Tidy := by
  unfold Ledger.retire
  split
  · next hs => exact h.settle? hs
  · exact h

theorem settle?_rule {l m : Ledger} {a : Word} {k : AccessKind} {i : Issue}
    (h : l.settle? a k = some (i, m)) : m.rule = l.rule := by
  obtain ⟨_, _, he⟩ := Option.map_eq_some_iff.1 h
  cases he
  exact putIssues_rule l a _

theorem retire_rule (l : Ledger) (a : Word) : (l.retire a).rule = l.rule := by
  unfold retire
  split
  · next hs => exact settle?_rule hs
  · rfl

/-- An open write at the address is closed. -/
theorem keys_retire {l : Ledger} (h : l.Tidy) {a : Word} (hm : (a, .write) ∈ l.keys) :
    l.keys.Perm ((a, .write) :: (l.retire a).keys) := by
  obtain ⟨i, m, hs⟩ := exists_settle? h hm
  simp only [retire, hs]
  exact keys_settle? h hs

/-- The ledger after writes at some addresses ran their course, one after the other. -/
def retireAll (l : Ledger) (addrs : List Word) : Ledger := addrs.foldl retire l

theorem retireAll_cons (l : Ledger) (a : Word) (as : List Word) :
    l.retireAll (a :: as) = (l.retire a).retireAll as := rfl

theorem Tidy.retireAll {l : Ledger} (h : l.Tidy) (as : List Word) : (l.retireAll as).Tidy := by
  induction as generalizing l with
  | nil => exact h
  | cons a as ih => exact ih (h.retire a)

theorem retireAll_rule (l : Ledger) (as : List Word) : (l.retireAll as).rule = l.rule := by
  induction as generalizing l with
  | nil => rfl
  | cons a as ih => rw [retireAll_cons, ih, retire_rule]

/-- If all of the writes are open, all of them are closed and nothing else is. -/
theorem keys_retireAll {l : Ledger} (h : l.Tidy) {as : List Word}
    {rest : List (Word × AccessKind)} (hk : l.keys.Perm (as.map (·, .write) ++ rest)) :
    (l.retireAll as).keys.Perm rest := by
  induction as generalizing l with
  | nil => exact hk
  | cons a as ih =>
      have hm : (a, AccessKind.write) ∈ l.keys := hk.symm.subset (by simp)
      have hstep : ((a, .write) :: (l.retire a).keys).Perm
          ((a, .write) :: (as.map (·, AccessKind.write) ++ rest)) :=
        (keys_retire h hm).symm.trans hk
      exact ih (h.retire a) hstep.cons_inv

end Ledger

namespace Request

variable {r : Request} (h : r.Standard) (b : Books)
include h

theorem complete_memory : (r.complete b).memory = b.memory := by
  obtain ⟨⟨addr, kind, source⟩, followup⟩ := r
  obtain rfl : followup = some (Followup.standard kind) := h
  cases kind with
  | read => rfl
  | write =>
      simp only [complete, Followup.standard, Followup.retire, Books.settle]
      cases b.ledger.settle? addr .write <;> rfl

/-- The end of a read leaves what the memory holds then, the end of a write leaves nothing. -/
theorem complete_replies : (r.complete b).replies.waiting =
    b.replies.waiting ++ if r.kind = .read then [⟨r.addr, b.memory.read r.addr⟩] else [] := by
  obtain ⟨⟨addr, kind, source⟩, followup⟩ := r
  obtain rfl : followup = some (Followup.standard kind) := h
  cases kind with
  | read => rfl
  | write =>
      simp only [complete, Followup.standard, Followup.retire, Books.settle]
      cases b.ledger.settle? addr .write <;> simp [Books.report]

theorem complete_ledger : (r.complete b).ledger =
    if r.kind = .write then b.ledger.retire r.addr else b.ledger := by
  obtain ⟨⟨addr, kind, source⟩, followup⟩ := r
  obtain rfl : followup = some (Followup.standard kind) := h
  cases kind with
  | read => rfl
  | write =>
      simp only [complete, Followup.standard, Followup.retire, Books.settle, Ledger.retire]
      cases b.ledger.settle? addr .write <;> rfl

end Request

/-- The reads among some flights. -/
def Flight.reads (flights : List Flight) : List Flight := flights.filter (·.request.kind = .read)

/-- The writes among some flights. -/
def Flight.writes (flights : List Flight) : List Flight := flights.filter (·.request.kind = .write)

theorem Flight.reads_append (flights more : List Flight) :
    reads (flights ++ more) = reads flights ++ reads more :=
  List.filter_append _ _

theorem Flight.writes_append (flights more : List Flight) :
    writes (flights ++ more) = writes flights ++ writes more :=
  List.filter_append _ _

theorem Flight.writes_cons_of_read {f : Flight} (h : f.request.kind = .read)
    (rest : List Flight) : writes (f :: rest) = writes rest := by
  simp [writes, h]

theorem Flight.writes_cons_of_write {f : Flight} (h : f.request.kind = .write)
    (rest : List Flight) : writes (f :: rest) = f :: writes rest := by
  simp [writes, h]

theorem Flight.length_reads_add_writes (flights : List Flight) :
    (reads flights).length + (writes flights).length = flights.length := by
  induction flights with
  | nil => rfl
  | cons f rest ih =>
      simp only [reads, writes, List.filter_cons, List.length_cons] at ih ⊢
      cases f.request.kind <;> simp <;> omega

namespace Engine

open Flight

variable {σ : Type}

theorem tick_served_append (e : Engine σ) : e.tick.1 ++ e.tick.2.inFlight = e.inFlight := by
  simp only [tick, List.span_eq_takeWhile_dropWhile]
  exact List.takeWhile_append_dropWhile

theorem addServed_all (served : List Flight) (c : EngineCounts) :
    let c' := served.foldl (fun c f => c.addServed f.request.kind) c
    c'.readsServed = c.readsServed + (reads served).length ∧
      c'.writesServed = c.writesServed + (writes served).length := by
  induction served generalizing c with
  | nil => simp [reads, writes]
  | cons f rest ih =>
      obtain ⟨hr, hw⟩ := ih (c.addServed f.request.kind)
      simp only [List.foldl_cons, hr, hw, reads, writes, List.filter_cons]
      cases f.request.kind <;> simp [EngineCounts.addServed] <;> omega

theorem tick_readsServed (e : Engine σ) :
    e.tick.2.counts.readsServed = e.counts.readsServed + (reads e.tick.1).length :=
  (addServed_all e.tick.1 e.counts).1

theorem tick_writesServed (e : Engine σ) :
    e.tick.2.counts.writesServed = e.counts.writesServed + (writes e.tick.1).length :=
  (addServed_all e.tick.1 e.counts).2

/-- What a tick serves was taken before, so the number of requests taken stays. -/
theorem tick_taken (e : Engine σ) : e.tick.2.taken = e.taken := by
  have hreads := e.tick_readsServed
  have hwrites := e.tick_writesServed
  have hserved := length_reads_add_writes e.tick.1
  have hlen := congrArg List.length e.tick_served_append
  rw [List.length_append] at hlen
  simp only [taken, EngineCounts.served]
  omega

section Completion

variable {served : List Flight} (h : ∀ f ∈ served, f.request.Standard) (b : Books)
include h

theorem completeAll_replies : (completeAll served b).replies.waiting =
    b.replies.waiting ++
      (reads served).map fun f => ⟨f.request.addr, b.memory.read f.request.addr⟩ := by
  induction served generalizing b with
  | nil => simp [completeAll, reads]
  | cons f rest ih =>
      have hf : f.request.Standard := h f List.mem_cons_self
      have hrest := ih (fun g hg => h g (List.mem_cons_of_mem f hg)) (f.request.complete b)
      simp only [completeAll, List.foldl_cons] at hrest ⊢
      rw [hrest, Request.complete_replies hf, Request.complete_memory hf]
      by_cases hk : f.request.kind = .read <;> simp [reads, hk]

theorem completeAll_ledger : (completeAll served b).ledger =
    b.ledger.retireAll ((writes served).map (·.request.addr)) := by
  induction served generalizing b with
  | nil => rfl
  | cons f rest ih =>
      have hf : f.request.Standard := h f List.mem_cons_self
      have hrest := ih (fun g hg => h g (List.mem_cons_of_mem f hg)) (f.request.complete b)
      simp only [completeAll, List.foldl_cons] at hrest ⊢
      rw [hrest, Request.complete_ledger hf]
      by_cases hk : f.request.kind = .write <;> simp [writes, hk, Ledger.retireAll_cons]

end Completion

end Engine

end CycleBridge
