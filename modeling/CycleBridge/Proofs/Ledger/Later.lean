import CycleBridge.Proofs.Engine.Service

/-!
# A ledger at a later time

A ledger never looks at the cycles it keeps. With every open access dated later by one number of
cycles, it lets in the same accesses and settles the same ones, each with its later date.
-/

namespace CycleBridge

/-- The issue of an access that was accepted `n` cycles later. -/
def Issue.later (i : Issue) (n : Nat) : Issue := { i with cycle := i.cycle + n }

namespace Ledger

/-- The ledger with all open accesses accepted `n` cycles later. -/
def later (l : Ledger) (n : Nat) : Ledger :=
  { l with slots := l.slots.map fun s => (s.1, s.2.map (·.later n)) }

variable (l : Ledger) (n : Nat)

theorem issuesAt_later (a : Word) : (l.later n).issuesAt a = (l.issuesAt a).map (·.later n) := by
  obtain ⟨rule, slots⟩ := l
  simp only [issuesAt, later]
  induction slots with
  | nil => rfl
  | cons s rest ih =>
      rw [List.map_cons, List.lookup_cons, List.lookup_cons]
      cases a == s.1 with
      | true => rfl
      | false => exact ih

theorem allows_later (a : Word) : (l.later n).allows a = l.allows a := by
  rw [allows, allows, openCount, openCount, issuesAt_later, List.length_map]
  rfl

theorem putIssues_later (a : Word) (is : List Issue) :
    (l.later n).putIssues a (is.map (·.later n)) = (l.putIssues a is).later n := by
  have hothers : (l.later n).slots.filter (·.1 != a) =
      (l.slots.filter (·.1 != a)).map fun s => (s.1, s.2.map (·.later n)) := List.filter_map
  rw [putIssues, hothers]
  cases is <;> rfl

theorem enter_later (a : Word) (c : Nat) (k : AccessKind) :
    (l.later n).enter a (c + n) k = (l.enter a c k).later n := by
  rw [enter, enter, ← putIssues_later, issuesAt_later, List.map_append, apply_ite (List.map _)]
  rfl

/-- The oldest access of a kind stays the oldest. -/
theorem settle?_later (a : Word) (k : AccessKind) :
    (l.later n).settle? a k = (l.settle? a k).map fun s => (s.1.later n, s.2.later n) := by
  have hkind : (fun i : Issue => decide (i.kind = k)) ∘ (Issue.later · n) =
      fun i : Issue => decide (i.kind = k) := rfl
  rw [settle?, settle?, issuesAt_later, List.find?_map, List.eraseP_map, hkind, putIssues_later,
    Option.map_map, Option.map_map]
  rfl

theorem retire_later (a : Word) : (l.later n).retire a = (l.retire a).later n := by
  rw [retire, retire, settle?_later]
  cases l.settle? a .write <;> rfl

theorem retireAll_later (as : List Word) :
    (l.later n).retireAll as = (l.retireAll as).later n := by
  induction as generalizing l with
  | nil => rfl
  | cons a as ih => rw [retireAll_cons, retireAll_cons, retire_later, ih]

end Ledger

end CycleBridge
