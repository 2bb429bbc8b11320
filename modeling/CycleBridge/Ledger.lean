import CycleBridge.Access

/-!
# The ledger of open accesses

The ledger keeps, for each address, the accesses accepted there and not yet settled, oldest first.
An overlap rule says what happens when an address is used again while it is open. Every operation
is described by what it does to `Ledger.issuesAt`, the open issues of one address: see
`issuesAt_enter` and `issuesAt_settle?`.

## Implementation notes

An address without an open access has no slot, so the ledger is empty exactly when no slot is left.
The slot touched last stands first; the order of the slots is visible nowhere.
-/

namespace CycleBridge

/-- What a ledger does with an address that is used again before its earlier access ended. -/
inductive OverlapRule where
  /-- The newest access displaces what was open at its address. -/
  | overwrite
  /-- Accesses to one address are kept side by side, oldest first. -/
  | track
  /-- An address is closed to further accesses until its open one is settled. -/
  | reject
  deriving DecidableEq, Repr

/-- The name of a rule in settings and in output. -/
def OverlapRule.name : OverlapRule → String
  | .overwrite => "Overwrite"
  | .track => "Track"
  | .reject => "Reject"

/-- When an open access was accepted, and its kind. -/
structure Issue where
  cycle : Nat
  kind : AccessKind
  deriving DecidableEq, Repr

/-- The open accesses by address, under one overlap rule. -/
structure Ledger where
  rule : OverlapRule := .overwrite
  slots : List (Word × List Issue) := []

namespace Ledger

/-- The open issues at an address, oldest first. -/
def issuesAt (l : Ledger) (addr : Word) : List Issue := (l.slots.lookup addr).getD []

/-- The ledger with other open issues at one address; no issues, no slot. -/
def putIssues (l : Ledger) (addr : Word) (issues : List Issue) : Ledger :=
  let others := l.slots.filter (·.1 != addr)
  { l with slots := if issues.isEmpty then others else (addr, issues) :: others }

/-- How many accesses are open at an address. -/
def openCount (l : Ledger) (addr : Word) : Nat := (l.issuesAt addr).length

/-- Whether the rule lets an access to the address in. -/
def allows (l : Ledger) (addr : Word) : Bool := l.rule ≠ .reject ∨ l.openCount addr = 0

/-- Opens an access. Under the overwrite rule it takes the place of all that was open there. -/
def enter (l : Ledger) (addr : Word) (cycle : Nat) (kind : AccessKind) : Ledger :=
  let kept := if l.rule = .overwrite then [] else l.issuesAt addr
  l.putIssues addr (kept ++ [⟨cycle, kind⟩])

/-- Closes the oldest access of a kind at an address, if there is one. -/
def settle? (l : Ledger) (addr : Word) (kind : AccessKind) : Option (Issue × Ledger) :=
  ((l.issuesAt addr).find? (·.kind = kind)).map fun issue =>
    (issue, l.putIssues addr ((l.issuesAt addr).eraseP (·.kind = kind)))

/-- The number of open accesses at all addresses together. -/
def size (l : Ledger) : Nat := (l.slots.flatMap (·.2)).length

/-- Whether no address is open. -/
def isEmpty (l : Ledger) : Bool := l.slots.isEmpty

@[simp] theorem putIssues_rule (l : Ledger) (a : Word) (is : List Issue) :
    (l.putIssues a is).rule = l.rule := rfl

/-- Removing the slots of one address hides that address and no other. -/
theorem lookup_filter_bne (slots : List (Word × List Issue)) (a b : Word) :
    (slots.filter (·.1 != a)).lookup b = if b = a then none else slots.lookup b := by
  induction slots with
  | nil => simp
  | cons s rest ih =>
    obtain ⟨c, is⟩ := s
    by_cases hc : c = a
    · subst hc
      by_cases hb : b = c
      · simpa [hb] using ih
      · have hbc : (b == c) = false := by simp [hb]
        simpa [hb, List.lookup_cons, hbc] using ih
    · by_cases hb : b = c
      · subst hb
        simp [hc]
      · have hbc : (b == c) = false := by simp [hb]
        simpa [hc, List.lookup_cons, hbc] using ih

/-- Replacing the issues of one address leaves every other address as it was. -/
theorem issuesAt_putIssues (l : Ledger) (a b : Word) (is : List Issue) :
    (l.putIssues a is).issuesAt b = if b = a then is else l.issuesAt b := by
  have hl := lookup_filter_bne l.slots a b
  unfold issuesAt putIssues
  by_cases hb : b = a
  · subst hb
    cases is with
    | nil => simp only [List.isEmpty_nil, if_true, hl, Option.getD_none]
    | cons i rest => simp
  · have hba : (b == a) = false := by simp [hb]
    simp only [hb, if_false] at hl
    cases is with
    | nil => simp only [List.isEmpty_nil, if_true, hl, hb, if_false]
    | cons i rest =>
      simp only [List.isEmpty_cons, List.lookup_cons, hba, hl, hb, if_false, Bool.false_eq_true]

/-- An accepted access stands last at its address; under the overwrite rule it stands alone. -/
theorem issuesAt_enter (l : Ledger) (a b : Word) (c : Nat) (k : AccessKind) :
    (l.enter a c k).issuesAt b =
      if b = a then (if l.rule = .overwrite then [] else l.issuesAt a) ++ [⟨c, k⟩]
      else l.issuesAt b :=
  issuesAt_putIssues l a b _

/-- Settling closes the oldest issue of the kind at the address and nothing else. -/
theorem issuesAt_settle? {l m : Ledger} {a : Word} {k : AccessKind} {i : Issue}
    (h : l.settle? a k = some (i, m)) (b : Word) :
    m.issuesAt b = if b = a then (l.issuesAt a).eraseP (·.kind = k) else l.issuesAt b := by
  obtain ⟨_, _, he⟩ := Option.map_eq_some_iff.1 h
  cases he
  exact issuesAt_putIssues l a b _

end Ledger

end CycleBridge
