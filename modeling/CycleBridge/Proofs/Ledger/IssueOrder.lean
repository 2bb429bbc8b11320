import CycleBridge.Proofs.Ledger.Keys

/-!
# The ledger as one list in the order of issue

An issue list holds all open accesses of all addresses in one list, in the order in which they were
entered. The ledger keeps them apart by address and removes from the middle of a slot; whatever is
entered and settled, it answers as the list does, and looks like the list at every address.
`Ledger.Refines` relates the two, and every call keeps it.
-/

namespace CycleBridge

/-- One call to a ledger. -/
inductive LedgerCall where
  | enter (addr : Word) (cycle : Nat) (kind : AccessKind)
  | settle (addr : Word) (kind : AccessKind)

/-- The address that a call is about. -/
def LedgerCall.addr : LedgerCall → Word
  | .enter addr .. => addr
  | .settle addr _ => addr

/-- The open accesses of all addresses in the order of issue, under one overlap rule. -/
structure IssueList where
  rule : OverlapRule := .overwrite
  entries : List (Word × Issue) := []

namespace IssueList

/-- Opens an access behind all others. Under the overwrite rule what is open at its address goes. -/
def enter (p : IssueList) (addr : Word) (cycle : Nat) (kind : AccessKind) : IssueList :=
  let kept := if p.rule = .overwrite then p.entries.filter (·.1 ≠ addr) else p.entries
  { p with entries := kept ++ [(addr, ⟨cycle, kind⟩)] }

/-- Takes out the first access of a kind at an address; where there is none, nothing changes. -/
def settle (p : IssueList) (addr : Word) (kind : AccessKind) : Option Issue × IssueList :=
  match p.entries.find? fun e => e.1 = addr ∧ e.2.kind = kind with
  | some entry =>
      (some entry.2, { p with entries := p.entries.eraseP fun e => e.1 = addr ∧ e.2.kind = kind })
  | none => (none, p)

/-- The open accesses of one address, in the order of issue. -/
def issuesAt (p : IssueList) (addr : Word) : List Issue :=
  (p.entries.filter (·.1 = addr)).map (·.2)

/-- How many accesses are open at an address. -/
def openCount (p : IssueList) (addr : Word) : Nat := p.entries.countP (·.1 = addr)

/-- Whether the rule lets an access to the address in. -/
def allows (p : IssueList) (addr : Word) : Bool := p.rule ≠ .reject ∨ p.openCount addr = 0

/-- Answers one call: an entered access is answered with nothing. -/
def perform (p : IssueList) : LedgerCall → Option Issue × IssueList
  | .enter addr cycle kind => (none, p.enter addr cycle kind)
  | .settle addr kind => p.settle addr kind

/-- The list that a sequence of calls leaves behind. -/
def after (rule : OverlapRule) (calls : List LedgerCall) : IssueList :=
  calls.foldl (fun p c => (p.perform c).2) { rule }

theorem length_issuesAt (p : IssueList) (addr : Word) :
    (p.issuesAt addr).length = p.openCount addr := by
  rw [issuesAt, List.length_map, openCount, List.countP_eq_length_filter]

theorem issuesAt_enter (p : IssueList) (a b : Word) (c : Nat) (k : AccessKind) :
    (p.enter a c k).issuesAt b =
      if b = a then (if p.rule = .overwrite then [] else p.issuesAt a) ++ [⟨c, k⟩]
      else p.issuesAt b := by
  by_cases hb : b = a
  · subst hb
    by_cases hr : p.rule = .overwrite <;> simp [enter, issuesAt, hr, List.filter_filter]
  · by_cases hr : p.rule = .overwrite
    · have hother : (p.entries.filter (·.1 ≠ a)).filter (·.1 = b) = p.entries.filter (·.1 = b) := by
        rw [List.filter_filter]
        apply List.filter_congr
        intro e _
        by_cases he : e.1 = b <;> simp [he, hb]
      simp only [enter, issuesAt, if_pos hr, List.filter_append, hother, if_neg hb]
      simp [Ne.symm hb]
    · simp [enter, issuesAt, hr, hb, Ne.symm hb]

/-- The first access of a kind at an address is the first of the kind among those of the address. -/
theorem find?_issuesAt (p : IssueList) (a : Word) (k : AccessKind) :
    (p.issuesAt a).find? (·.kind = k) =
      (p.entries.find? fun e => e.1 = a ∧ e.2.kind = k).map (·.2) := by
  rw [issuesAt, List.find?_map, List.find?_filter]
  simp

theorem issuesAt_erase (p : IssueList) (a b : Word) (k : AccessKind) :
    ((p.entries.eraseP fun e => e.1 = a ∧ e.2.kind = k).filter (·.1 = b)).map (·.2) =
      if b = a then (p.issuesAt a).eraseP (·.kind = k) else p.issuesAt b := by
  split
  · next hb =>
      rw [issuesAt, List.eraseP_map, List.eraseP_filter, hb]
      simp [Bool.and_comm]
  · next hb =>
      rcases List.exists_or_eq_self_of_eraseP (fun e => e.1 = a ∧ e.2.kind = k) p.entries with
        hsame | ⟨e, older, newer, -, he, hsplit, herase⟩
      · rw [hsame, issuesAt]
      · have hother : ¬ e.1 = b := fun h => hb (h.symm.trans (of_decide_eq_true he).1)
        rw [herase, issuesAt, hsplit]
        simp [hother]

end IssueList

namespace Ledger

/-- Answers one call: an entered access is answered with nothing, and where nothing can be settled
the ledger stays as it is. -/
def perform (l : Ledger) : LedgerCall → Option Issue × Ledger
  | .enter addr cycle kind => (none, l.enter addr cycle kind)
  | .settle addr kind =>
      match l.settle? addr kind with
      | some (issue, m) => (some issue, m)
      | none => (none, l)

/-- The ledger that a sequence of calls leaves behind. -/
def after (rule : OverlapRule) (calls : List LedgerCall) : Ledger :=
  calls.foldl (fun l c => (l.perform c).2) { rule }

/-- The ledger is tidy and shows at each address what the list shows there. -/
structure Refines (l : Ledger) (p : IssueList) : Prop where
  tidy : l.Tidy
  rule : l.rule = p.rule
  issues : ∀ a, l.issuesAt a = p.issuesAt a

theorem refines_empty (rule : OverlapRule) : Refines { rule } { rule } :=
  ⟨tidy_empty rule, rfl, fun _ => rfl⟩

section Perform

variable {l : Ledger} {p : IssueList} (h : l.Refines p)
include h

theorem Refines.enter (a : Word) (c : Nat) (k : AccessKind) :
    (l.enter a c k).Refines (p.enter a c k) := by
  refine ⟨h.tidy.enter a c k, h.rule, ?_⟩
  intro b
  rw [issuesAt_enter, IssueList.issuesAt_enter, h.rule, h.issues, h.issues]

/-- Both settle the same access or none. -/
theorem Refines.settle (a : Word) (k : AccessKind) :
    (l.perform (.settle a k)).1 = (p.settle a k).1 ∧
      (l.perform (.settle a k)).2.Refines (p.settle a k).2 := by
  have hfind := p.find?_issuesAt a k
  rw [← h.issues] at hfind
  cases he : p.entries.find? fun e => e.1 = a ∧ e.2.kind = k with
  | none =>
      have hnone : l.settle? a k = none := by
        rw [settle?, hfind, he]
        rfl
      rw [perform, hnone, IssueList.settle, he]
      exact ⟨rfl, h⟩
  | some entry =>
      have hsome : l.settle? a k =
          some (entry.2, l.putIssues a ((l.issuesAt a).eraseP (·.kind = k))) := by
        rw [settle?, hfind, he]
        rfl
      rw [perform, hsome, IssueList.settle, he]
      refine ⟨rfl, h.tidy.settle? hsome, h.rule, ?_⟩
      intro b
      rw [issuesAt_settle? hsome, h.issues, h.issues]
      exact (p.issuesAt_erase a b k).symm

theorem Refines.perform (c : LedgerCall) :
    (l.perform c).1 = (p.perform c).1 ∧ (l.perform c).2.Refines (p.perform c).2 := by
  cases c with
  | enter a cycle k => exact ⟨rfl, h.enter a cycle k⟩
  | settle a k => exact h.settle a k

end Perform

theorem refines_after (rule : OverlapRule) (calls : List LedgerCall) :
    (after rule calls).Refines (IssueList.after rule calls) := by
  have hall : ∀ (calls : List LedgerCall) (l : Ledger) (p : IssueList), l.Refines p →
      (calls.foldl (fun l c => (l.perform c).2) l).Refines
        (calls.foldl (fun p c => (p.perform c).2) p) := by
    intro calls
    induction calls with
    | nil => exact fun _ _ h => h
    | cons c rest ih => exact fun l p h => ih _ _ (h.perform c).2
  exact hall calls _ _ (refines_empty rule)

section Views

variable {l : Ledger} {p : IssueList} (h : l.Refines p)
include h

/-- Both name each address with each kind equally often. -/
theorem Refines.keys : l.keys.Perm (p.entries.map fun e => (e.1, e.2.kind)) := by
  apply List.perm_iff_count.mpr
  rintro ⟨a, k⟩
  rw [count_keys h.tidy, h.issues, IssueList.issuesAt, List.countP_map, List.countP_filter,
    List.count_eq_countP, List.countP_map]
  apply List.countP_congr
  rintro ⟨b, i⟩ _
  simp [and_comm]

theorem Refines.size : l.size = p.entries.length := by
  rw [size_eq_length_keys, h.keys.length_eq, List.length_map]

theorem Refines.isEmpty : l.isEmpty = p.entries.isEmpty := by
  rw [Bool.eq_iff_iff, h.tidy.isEmpty_iff, List.isEmpty_iff, ← List.length_eq_zero_iff,
    h.keys.length_eq, List.length_map, List.length_eq_zero_iff]

theorem Refines.openCount (a : Word) : l.openCount a = p.openCount a := by
  rw [Ledger.openCount, h.issues, p.length_issuesAt]

theorem Refines.allows (a : Word) : l.allows a = p.allows a := by
  rw [Ledger.allows, IssueList.allows, h.rule, h.openCount]

end Views

/-- What is entered or settled at one address leaves all other addresses alone. -/
theorem issuesAt_perform_of_ne (l : Ledger) {c : LedgerCall} {b : Word} (hb : b ≠ c.addr) :
    (l.perform c).2.issuesAt b = l.issuesAt b := by
  cases c with
  | enter a cycle k => exact (issuesAt_enter l a b cycle k).trans (if_neg hb)
  | settle a k =>
      cases hs : l.settle? a k with
      | none => simp only [perform, hs]
      | some settled =>
          obtain ⟨i, m⟩ := settled
          simp only [perform, hs]
          exact (issuesAt_settle? hs b).trans (if_neg hb)

/-- Where an access of the kind stands, it is the one at that place that is settled. -/
theorem settle?_of_findIdx? {l : Ledger} {a : Word} {k : AccessKind} {place : Nat}
    (h : (l.issuesAt a).findIdx? (·.kind = k) = some place) :
    ∃ i m, l.settle? a k = some (i, m) ∧ (l.issuesAt a)[place]? = some i ∧
      m.issuesAt a = (l.issuesAt a).eraseIdx place := by
  have hlt := (List.findIdx?_eq_some_iff_findIdx_eq.mp h).1
  have hfind : (l.issuesAt a).find? (·.kind = k) = some (l.issuesAt a)[place] := by
    rw [List.find?_eq_bind_findIdx?_getElem?, h, Option.bind_some, List.getElem?_eq_getElem hlt]
  have hs : l.settle? a k =
      some ((l.issuesAt a)[place], l.putIssues a ((l.issuesAt a).eraseP (·.kind = k))) := by
    rw [settle?, hfind]
    rfl
  refine ⟨_, _, hs, List.getElem?_eq_getElem hlt, ?_⟩
  rw [issuesAt_settle? hs, if_pos rfl, List.eraseP_eq_eraseIdx, h]

/-- The ledger refines one list in the order of issue. After any sequence of entering and settling,
whether the rule was asked before or not, it answers every further call as the list does, shows at
each address what the list holds for it, and agrees with it on how many accesses are open there and
altogether, on whether any is, and on what the rule lets in. No address has an empty slot, so the
ledger is empty exactly if nothing is open. A call touches no address but its own, a settling that
finds nothing changes nothing, and one that finds a place takes out the access at that place. -/
theorem refines_issue_order (rule : OverlapRule) (calls : List LedgerCall) :
    let l := after rule calls
    let p := IssueList.after rule calls
    (∀ c, (l.perform c).1 = (p.perform c).1) ∧
    (∀ a, l.issuesAt a = p.issuesAt a) ∧
    (∀ a, l.openCount a = p.openCount a) ∧
    (∀ a, l.allows a = p.allows a) ∧
    l.size = p.entries.length ∧ l.isEmpty = p.entries.isEmpty ∧
    (∀ slot ∈ l.slots, slot.2 ≠ []) ∧ (l.isEmpty = true ↔ l.size = 0) ∧
    (∀ c b, b ≠ c.addr → (l.perform c).2.issuesAt b = l.issuesAt b) ∧
    (∀ a k, (l.perform (.settle a k)).1 = none → (l.perform (.settle a k)).2 = l) ∧
    ∀ a k place, (l.issuesAt a).findIdx? (·.kind = k) = some place →
      ∃ i m, l.settle? a k = some (i, m) ∧ (l.issuesAt a)[place]? = some i ∧
        m.issuesAt a = (l.issuesAt a).eraseIdx place := by
  intro l p
  have h : l.Refines p := refines_after rule calls
  refine ⟨fun c => (h.perform c).1, h.issues, h.openCount, h.allows, h.size, h.isEmpty,
    h.tidy.filled, ?_, fun c b hb => l.issuesAt_perform_of_ne hb, ?_, ?_⟩
  · rw [h.isEmpty, h.size, List.isEmpty_iff, List.length_eq_zero_iff]
  · intro a k hnone
    cases hs : l.settle? a k with
    | none => simp only [perform, hs]
    | some settled => simp [perform, hs] at hnone
  · intro a k place hplace
    exact settle?_of_findIdx? hplace

/-- Reads and writes of two addresses under the track rule. The older write of address 1, between
its two reads, is settled; behind the reads stands the newer one. Address 2 has no read to
settle. -/
theorem refines_issue_order_middle :
    let calls : List LedgerCall :=
      [.enter 1 0 .read, .enter 2 0 .write, .enter 1 1 .write, .enter 1 2 .read, .enter 1 2 .write,
        .settle 1 .write]
    let l := after .track calls
    (l.issuesAt 1).findIdx? (·.kind = .write) = some 2 ∧
      (∃ i m, l.settle? 1 .write = some (i, m) ∧ (l.issuesAt 1)[2]? = some i ∧
        m.issuesAt 1 = (l.issuesAt 1).eraseIdx 2) ∧
      (1 : Word) ≠ (LedgerCall.settle 2 .write).addr ∧
      (l.perform (.settle 2 .write)).2.issuesAt 1 = l.issuesAt 1 ∧
      (l.perform (.settle 2 .read)).1 = none ∧ (l.perform (.settle 2 .read)).2 = l ∧
      l.size = 4 := by
  intro calls l
  obtain ⟨-, -, -, -, hsize, -, -, -, hother, hkept, hplace⟩ := refines_issue_order .track calls
  have hfound : (l.issuesAt 1).findIdx? (·.kind = .write) = some 2 := by decide
  have haddr : (1 : Word) ≠ (LedgerCall.settle 2 .write).addr := by decide
  have hnone : (l.perform (.settle 2 .read)).1 = none := by decide
  exact ⟨hfound, hplace 1 .write 2 hfound, haddr, hother _ 1 haddr, hnone, hkept 2 .read hnone,
    hsize.trans (by decide)⟩

end Ledger

end CycleBridge
