import CycleBridge.Proofs.Engine.Service
import Mathlib.Algebra.GroupWithZero.Nat

/-!
# The open accesses of a ledger as queues

At each address the open accesses of one kind form a queue, oldest first. Settling takes the head
of one queue and leaves all others alone, so what a ledger answers depends on the order of the
accesses of one kind at one address and on nothing else.
-/

namespace CycleBridge.Ledger

/-- The open accesses of a kind at an address, oldest first. -/
def queueAt (l : Ledger) (a : Word) (k : AccessKind) : List Issue :=
  (l.issuesAt a).filter (·.kind = k)

theorem mem_queueAt {l : Ledger} {a : Word} {k : AccessKind} {i : Issue} :
    i ∈ l.queueAt a k ↔ i ∈ l.issuesAt a ∧ i.kind = k := by
  simp [queueAt]

/-- Under the track and the reject rule an accepted access joins the queue of its kind at its
address. -/
theorem queueAt_enter {l : Ledger} (hr : l.rule ≠ .overwrite) (a b : Word) (c : Nat)
    (k k' : AccessKind) :
    (l.enter a c k).queueAt b k' =
      l.queueAt b k' ++ if b = a ∧ k = k' then [⟨c, k⟩] else [] := by
  rw [queueAt, issuesAt_enter, if_neg hr]
  by_cases hb : b = a
  · subst hb
    by_cases hk : k = k' <;> simp [queueAt, hk]
  · simp [queueAt, hb]

theorem settle?_eq_none_iff {l : Ledger} {a : Word} {k : AccessKind} :
    l.settle? a k = none ↔ l.queueAt a k = [] := by
  simp [settle?, queueAt]

section Settle

variable {l m : Ledger} {a : Word} {k : AccessKind} {i : Issue} (h : l.settle? a k = some (i, m))
include h

/-- The settled access is the oldest of its kind at its address; only it is gone afterwards. -/
theorem settle?_splits : ∃ older newer, l.issuesAt a = older ++ i :: newer ∧ i.kind = k ∧
    (∀ j ∈ older, j.kind ≠ k) ∧ m.issuesAt a = older ++ newer := by
  obtain ⟨j, hfind, he⟩ := Option.map_eq_some_iff.1 h
  obtain ⟨hj, older, newer, hsplit, holder⟩ := List.find?_eq_some_iff_append.mp hfind
  obtain rfl : j = i := (Prod.mk.inj he).1
  have hnone : ∀ j ∈ older, ¬ decide (j.kind = k) = true := fun j hj => by simpa using holder j hj
  refine ⟨older, newer, hsplit, of_decide_eq_true hj, ?_, ?_⟩
  · intro j hj
    simpa using hnone j hj
  · rw [issuesAt_settle? h, if_pos rfl, hsplit, List.eraseP_append_right _ hnone]
    simp [hj]

theorem settle?_mem : i ∈ l.issuesAt a ∧ i.kind = k := by
  obtain ⟨older, newer, hsplit, hkind, -⟩ := settle?_splits h
  exact ⟨by simp [hsplit], hkind⟩

theorem issuesAt_settle?_sublist (b : Word) : (m.issuesAt b).Sublist (l.issuesAt b) := by
  rw [issuesAt_settle? h]
  split
  · next hb =>
      rw [hb]
      exact List.eraseP_sublist
  · exact .refl _

/-- Settling takes the head of one queue. -/
theorem queueAt_settle? : l.queueAt a k = i :: m.queueAt a k := by
  obtain ⟨older, newer, hsplit, hi, holder, hleft⟩ := settle?_splits h
  have hnone : older.filter (·.kind = k) = [] := by simpa using holder
  simp [queueAt, hsplit, hleft, hnone, hi]

theorem queueAt_settle?_of_ne {b : Word} {k' : AccessKind} (hne : ¬ (b = a ∧ k' = k)) :
    m.queueAt b k' = l.queueAt b k' := by
  by_cases hb : b = a
  · subst hb
    obtain ⟨older, newer, hsplit, hi, holder, hleft⟩ := settle?_splits h
    have hk : ¬ i.kind = k' := fun hik => hne ⟨rfl, hik.symm.trans hi⟩
    simp [queueAt, hsplit, hleft, hk]
  · rw [queueAt, issuesAt_settle? h, if_neg hb, queueAt]

end Settle

section Retire

theorem issuesAt_retire_sublist (l : Ledger) (a b : Word) :
    ((l.retire a).issuesAt b).Sublist (l.issuesAt b) := by
  unfold retire
  split
  · next hs => exact issuesAt_settle?_sublist hs b
  · exact .refl _

theorem issuesAt_retireAll_sublist (l : Ledger) (as : List Word) (b : Word) :
    ((l.retireAll as).issuesAt b).Sublist (l.issuesAt b) := by
  induction as generalizing l with
  | nil => exact .refl _
  | cons a as ih => exact (ih (l.retire a)).trans (l.issuesAt_retire_sublist a b)

/-- The end of a write takes the head of the writes at its address, if one is open there. -/
theorem queueAt_retire (l : Ledger) (a b : Word) (k : AccessKind) :
    (l.retire a).queueAt b k =
      if b = a ∧ k = .write then (l.queueAt b k).tail else l.queueAt b k := by
  unfold retire
  split
  · next hs =>
      split
      · next hb =>
          obtain ⟨rfl, rfl⟩ := hb
          rw [queueAt_settle? hs, List.tail_cons]
      · next hb => exact queueAt_settle?_of_ne hs hb
  · next hs =>
      split
      · next hb =>
          obtain ⟨rfl, rfl⟩ := hb
          rw [settle?_eq_none_iff.mp hs, List.tail_nil]
      · rfl

theorem readsAt_retireAll (l : Ledger) (as : List Word) (b : Word) :
    (l.retireAll as).queueAt b .read = l.queueAt b .read := by
  induction as generalizing l with
  | nil => rfl
  | cons a as ih => rw [retireAll_cons, ih, queueAt_retire, if_neg (by simp)]

/-- Writes that ran their course take as many from the head of the writes at their address. -/
theorem writesAt_retireAll (l : Ledger) (as : List Word) (b : Word) :
    (l.retireAll as).queueAt b .write = (l.queueAt b .write).drop (as.count b) := by
  induction as generalizing l with
  | nil => rfl
  | cons a as ih =>
      rw [retireAll_cons, ih, queueAt_retire, List.count_cons]
      by_cases hb : b = a
      · subst hb
        simp
      · simp [hb, Ne.symm hb]

end Retire

section Issues

/-- All open accesses, address by address. -/
def issues (l : Ledger) : List Issue := l.slots.flatMap (·.2)

/-- The open accesses of one address are all that a change there can touch. -/
theorem issues_perm {l : Ledger} (h : l.Tidy) (a : Word) :
    l.issues.Perm (l.issuesAt a ++ (l.slots.filter (·.1 != a)).flatMap (·.2)) := by
  obtain ⟨rule, slots⟩ := l
  have hn : (slots.map Prod.fst).Nodup := h.nodup
  clear h
  simp only [issues, issuesAt]
  induction slots with
  | nil => exact .refl _
  | cons s rest ih =>
      obtain ⟨b, is⟩ := s
      obtain ⟨hb, hn⟩ := List.nodup_cons.mp hn
      by_cases hab : a = b
      · subst hab
        have hrest : rest.filter (·.1 != a) = rest := by
          apply List.filter_eq_self.mpr
          intro s hs
          have hne : s.1 ≠ a := fun he => hb (List.mem_map.mpr ⟨s, hs, he⟩)
          simpa using hne
        simp [hrest]
      · have hba : (b != a) = true := by simpa using Ne.symm hab
        have hperm := (ih hn).append_left is
        simp only [List.flatMap_cons, List.lookup_cons, beq_eq_false_iff_ne.mpr hab,
          List.filter_cons, hba, if_true]
        exact hperm.trans (List.perm_append_comm_assoc _ _ _)

theorem issues_putIssues (l : Ledger) (a : Word) (is : List Issue) :
    (l.putIssues a is).issues = is ++ (l.slots.filter (·.1 != a)).flatMap (·.2) := by
  cases is <;> rfl

theorem issues_enter {l : Ledger} (h : l.Tidy) (hr : l.rule ≠ .overwrite) (a : Word) (c : Nat)
    (k : AccessKind) : (l.enter a c k).issues.Perm (⟨c, k⟩ :: l.issues) := by
  rw [enter, issues_putIssues, if_neg hr, List.append_assoc]
  exact List.perm_middle.trans ((issues_perm h a).symm.cons _)

theorem issues_settle? {l m : Ledger} {a : Word} {k : AccessKind} {i : Issue} (h : l.Tidy)
    (hs : l.settle? a k = some (i, m)) : l.issues.Perm (i :: m.issues) := by
  obtain ⟨older, newer, hsplit, -, -, hleft⟩ := settle?_splits hs
  have hm : m.issues = m.issuesAt a ++ (l.slots.filter (·.1 != a)).flatMap (·.2) := by
    obtain ⟨_, _, he⟩ := Option.map_eq_some_iff.1 hs
    cases he
    rw [issues_putIssues, issuesAt_putIssues, if_pos rfl]
  have hl := issues_perm h a
  rw [hsplit, List.append_assoc] at hl
  rw [hm, hleft, List.append_assoc]
  exact hl.trans List.perm_middle

/-- The sum of the cycles at which the open reads were accepted. -/
def readCycles (l : Ledger) : Nat :=
  ((l.issues.filter (·.kind = .read)).map (·.cycle)).sum

theorem readCycles_of_perm {l m : Ledger} (is : List Issue) (h : l.issues.Perm (is ++ m.issues)) :
    l.readCycles = ((is.filter (·.kind = .read)).map (·.cycle)).sum + m.readCycles := by
  rw [readCycles, ((h.filter _).map _).sum_nat, List.filter_append, List.map_append,
    List.sum_append, readCycles]

theorem readCycles_enter {l : Ledger} (h : l.Tidy) (hr : l.rule ≠ .overwrite) (a : Word) (c : Nat)
    (k : AccessKind) :
    (l.enter a c k).readCycles = (if k = .read then c else 0) + l.readCycles := by
  rw [readCycles_of_perm [⟨c, k⟩] (issues_enter h hr a c k)]
  cases k <;> simp

theorem readCycles_settle? {l m : Ledger} {a : Word} {i : Issue} (h : l.Tidy)
    (hs : l.settle? a .read = some (i, m)) : l.readCycles = i.cycle + m.readCycles := by
  obtain ⟨-, -, -, hkind, -⟩ := settle?_splits hs
  rw [readCycles_of_perm [i] (issues_settle? h hs)]
  simp [hkind]

theorem readCycles_retireAll {l : Ledger} (h : l.Tidy) (as : List Word) :
    (l.retireAll as).readCycles = l.readCycles := by
  induction as generalizing l with
  | nil => rfl
  | cons a as ih =>
      rw [retireAll_cons, ih (h.retire a), retire]
      split
      · next hs =>
          obtain ⟨-, -, -, hkind, -⟩ := settle?_splits hs
          rw [readCycles_of_perm [_] (issues_settle? h hs)]
          simp [hkind]
      · rfl

end Issues

end CycleBridge.Ledger
