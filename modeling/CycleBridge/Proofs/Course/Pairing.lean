import CycleBridge.Proofs.Course.Steps

/-!
# Open accesses and work under way

The open accesses of a kind at an address are paired if they are as many as the accesses of that
kind that are under way there. They stay paired in every step, except that under the overwrite rule
an access must not be accepted at an address where one of that kind is open, for it would displace
it.
-/

namespace CycleBridge

open Flight

/-- Writes at some addresses count as writes only, each at its address. -/
theorem count_writes (addrs : List Word) (a : Word) (kind : AccessKind) :
    (addrs.map (·, AccessKind.write)).count (a, kind) =
      if kind = .write then addrs.count a else 0 := by
  induction addrs with
  | nil => simp
  | cons x rest ih =>
      rw [List.map_cons, List.count_cons, List.count_cons, ih]
      cases kind <;> simp

/-- An access that displaces none of a kind at an address leaves the queue there, and joins it if it
is of that kind. -/
theorem Ledger.queueAt_enter_of_none {l : Ledger} {a b : Word} {k' : AccessKind}
    (h : l.rule = .overwrite → b = a → l.queueAt b k' = []) (c : Nat) (k : AccessKind) :
    (l.enter a c k).queueAt b k' =
      l.queueAt b k' ++ if b = a ∧ k = k' then [⟨c, k⟩] else [] := by
  by_cases hr : l.rule = .overwrite
  · by_cases hb : b = a
    · rw [h hr hb, queueAt, issuesAt_enter, if_pos hb, if_pos hr]
      by_cases hk : k = k' <;> simp [hb, hk]
    · rw [queueAt, issuesAt_enter, if_neg hb, if_neg (fun he => hb he.1), List.append_nil, queueAt]
  · exact queueAt_enter hr a b c k k'

namespace Course

variable {σ : Type} {k : Course σ} {a : Word} {kind : AccessKind}

/-- At an address, the open accesses of a kind are as many as are under way. -/
def PairedAt (k : Course σ) (a : Word) (kind : AccessKind) : Prop :=
  (k.bridge.ledger.queueAt a kind).length = k.bridge.work.count (a, kind)

theorem PairedAt.queueAt_eq_nil_iff (h : k.PairedAt a kind) :
    k.bridge.ledger.queueAt a kind = [] ↔ k.bridge.work.count (a, kind) = 0 := by
  rw [← List.length_eq_zero_iff, h]

theorem pairedAt_accept (h : k.PairedAt a kind) (access : Access) (data : Word)
    (alone : k.bridge.ledger.rule = .overwrite → a = access.addr →
      k.bridge.ledger.queueAt a kind = []) :
    (k.accept access data).PairedAt a kind := by
  have hwork := (k.bridge.work_accept access data).count_eq (a, kind)
  rw [PairedAt, accept_bridge, hwork, Bridge.accept_ledger, Ledger.queueAt_enter_of_none alone,
    List.length_append, h, List.count_cons, Access.key]
  by_cases ha : a = access.addr
  · by_cases hk : access.kind = kind <;> simp [ha, hk]
  · simp [ha, Ne.symm ha]

theorem pairedAt_advance [LatencyModel σ] (hc : k.Conserved) (h : k.PairedAt a kind) :
    k.advance.PairedAt a kind := by
  have hwork := (Bridge.advance_work hc).count_eq (a, kind)
  rw [PairedAt] at h ⊢
  rw [List.count_append, count_writes] at hwork
  rw [advance_bridge, Bridge.advance_ledger hc]
  cases kind with
  | read =>
      rw [if_neg (by decide)] at hwork
      rw [Ledger.readsAt_retireAll, h]
      omega
  | write =>
      rw [if_pos rfl] at hwork
      rw [Ledger.writesAt_retireAll, List.length_drop, h]
      omega

/-- A drain that finds the reads at its address paired settles one of them. -/
theorem PairedAt.settles {d : Delivery} {b : Bridge σ} (drains : k.bridge.Drains d b)
    (h : k.PairedAt d.reply.addr .read) :
    ∃ i, k.bridge.ledger.settle? d.reply.addr .read = some (i, b.ledger) ∧
      d.latency = some (k.bridge.cycle - i.cycle) := by
  have hwork := drains.work.count_eq (d.reply.addr, .read)
  rw [List.count_cons_self] at hwork
  have hopen : k.bridge.ledger.settle? d.reply.addr .read ≠ none := by
    rw [Ne, Ledger.settle?_eq_none_iff, h.queueAt_eq_nil_iff]
    omega
  obtain ⟨⟨i, m⟩, hs⟩ := Option.ne_none_iff_exists'.mp hopen
  obtain ⟨hlatency, rfl⟩ := drains.settled i m hs
  exact ⟨i, hs, hlatency⟩

theorem pairedAt_drain (h : k.PairedAt a kind) {d : Delivery} {b : Bridge σ}
    (drains : k.bridge.Drains d b) : (k.drain d b).PairedAt a kind := by
  have hwork := drains.work.count_eq (a, kind)
  rw [List.count_cons] at hwork
  by_cases he : a = d.reply.addr ∧ kind = .read
  · obtain ⟨rfl, rfl⟩ := he
    obtain ⟨i, hs, -⟩ := h.settles drains
    rw [PairedAt, Ledger.queueAt_settle? hs, List.length_cons] at h
    rw [if_pos (beq_self_eq_true _)] at hwork
    rw [PairedAt, drain_bridge]
    omega
  · have hne : ¬ ((d.reply.addr, AccessKind.read) == (a, kind)) = true := by
      rw [beq_iff_eq, Prod.mk.injEq]
      exact fun hkey => he ⟨hkey.1.symm, hkey.2.symm⟩
    have hqueue : b.ledger.queueAt a kind = k.bridge.ledger.queueAt a kind := by
      cases hs : k.bridge.ledger.settle? d.reply.addr .read with
      | none => rw [(drains.missed hs).2]
      | some settled => rw [(drains.settled _ _ hs).2, Ledger.queueAt_settle?_of_ne hs he]
    rw [if_neg hne] at hwork
    rw [PairedAt, drain_bridge, hqueue, h]
    exact hwork

end Course

end CycleBridge
