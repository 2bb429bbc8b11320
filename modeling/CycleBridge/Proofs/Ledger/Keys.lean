import CycleBridge.Ledger
import Mathlib.Data.List.Nodup

/-!
# The open accesses of a ledger as one list

`Ledger.keys` lists the address and the kind of every open access. In a tidy ledger an access is
open at an address exactly as often as the list names the address with its kind, so what entering
and settling do to the whole ledger is one element more or one element less.
-/

namespace CycleBridge.Ledger

/-- The address and the kind of every open access. -/
def keys (l : Ledger) : List (Word × AccessKind) :=
  l.slots.flatMap fun s => s.2.map fun i => (s.1, i.kind)

/-- One slot for an address at most, and an open access in every slot. -/
structure Tidy (l : Ledger) : Prop where
  nodup : (l.slots.map Prod.fst).Nodup
  filled : ∀ s ∈ l.slots, s.2 ≠ []

theorem tidy_empty (rule : OverlapRule) : Tidy { rule } :=
  ⟨List.nodup_nil, by simp⟩

theorem size_eq_length_keys (l : Ledger) : l.size = l.keys.length := by
  simp [size, keys, List.length_flatMap]

theorem Tidy.isEmpty_iff {l : Ledger} (h : l.Tidy) : l.isEmpty = true ↔ l.keys = [] := by
  rw [isEmpty, List.isEmpty_iff]
  constructor
  · intro hslots
    simp [keys, hslots]
  · intro hkeys
    apply List.eq_nil_iff_forall_not_mem.mpr
    intro s hs
    have hnone := List.flatMap_eq_nil_iff.mp hkeys s hs
    exact h.filled s hs (List.map_eq_nil_iff.mp hnone)

theorem Tidy.putIssues {l : Ledger} (h : l.Tidy) (a : Word) (is : List Issue) :
    (l.putIssues a is).Tidy := by
  have hsub : (l.slots.filter (·.1 != a)).Sublist l.slots := List.filter_sublist
  cases is with
  | nil =>
      constructor
      · exact h.nodup.sublist (hsub.map _)
      · intro s hs
        exact h.filled s (hsub.subset hs)
  | cons i rest =>
      constructor
      · have hnew : a ∉ (l.slots.filter (·.1 != a)).map Prod.fst := by simp
        exact List.nodup_cons.mpr ⟨hnew, h.nodup.sublist (hsub.map _)⟩
      · intro s hs
        rcases List.mem_cons.mp hs with rfl | hs
        · simp
        · exact h.filled s (hsub.subset hs)

theorem Tidy.enter {l : Ledger} (h : l.Tidy) (a : Word) (c : Nat) (k : AccessKind) :
    (l.enter a c k).Tidy :=
  h.putIssues a _

theorem Tidy.settle? {l m : Ledger} {a : Word} {k : AccessKind} {i : Issue} (h : l.Tidy)
    (hs : l.settle? a k = some (i, m)) : m.Tidy := by
  obtain ⟨_, _, he⟩ := Option.map_eq_some_iff.1 hs
  cases he
  exact h.putIssues a _

/-- How often an address is named with a kind is counted in the slot of the address alone. -/
theorem count_keys {l : Ledger} (h : l.Tidy) (a : Word) (k : AccessKind) :
    l.keys.count (a, k) = (l.issuesAt a).countP (·.kind = k) := by
  obtain ⟨rule, slots⟩ := l
  have hn : (slots.map Prod.fst).Nodup := h.nodup
  clear h
  simp only [keys, issuesAt]
  induction slots with
  | nil => rfl
  | cons s rest ih =>
      obtain ⟨b, is⟩ := s
      obtain ⟨hb, hn⟩ := List.nodup_cons.mp hn
      have hhead : (is.map fun i => (b, i.kind)).count (a, k) =
          if a = b then is.countP (·.kind = k) else 0 := by
        rw [List.count_eq_countP, List.countP_map]
        split
        · next hab =>
            apply List.countP_congr
            intro i _
            simp [hab]
        · next hab =>
            apply List.countP_eq_zero.mpr
            intro i _
            simp [Ne.symm hab]
      rw [List.flatMap_cons, List.count_append, hhead, List.lookup_cons]
      by_cases hab : a = b
      · subst hab
        have hrest : (rest.flatMap fun s => s.2.map fun i => (s.1, i.kind)).count (a, k) = 0 := by
          apply List.count_eq_zero.mpr
          intro hmem
          apply hb
          obtain ⟨s, hs, hi⟩ := List.mem_flatMap.mp hmem
          obtain ⟨i, _, he⟩ := List.mem_map.mp hi
          exact List.mem_map.mpr ⟨s, hs, (Prod.mk.inj he).1⟩
        simp [hrest]
      · simp [hab, beq_eq_false_iff_ne.mpr hab, ih hn]

theorem mem_keys_iff {l : Ledger} (h : l.Tidy) {a : Word} {k : AccessKind} :
    (a, k) ∈ l.keys ↔ ∃ i ∈ l.issuesAt a, i.kind = k := by
  rw [← List.count_pos_iff, count_keys h, List.countP_pos_iff]
  simp

theorem openCount_eq_zero_iff {l : Ledger} (h : l.Tidy) (a : Word) :
    l.openCount a = 0 ↔ ∀ s ∈ l.keys, s.1 ≠ a := by
  rw [openCount, List.length_eq_zero_iff, List.eq_nil_iff_forall_not_mem]
  constructor
  · rintro hnone ⟨b, k⟩ hs rfl
    obtain ⟨i, hi, _⟩ := (mem_keys_iff h).mp hs
    exact hnone i hi
  · intro hkeys i hi
    exact hkeys (a, i.kind) ((mem_keys_iff h).mpr ⟨i, hi, rfl⟩) rfl

theorem count_kinds (keys : List (Word × AccessKind)) (a : Word) :
    (keys.map Prod.fst).count a = keys.count (a, .read) + keys.count (a, .write) := by
  induction keys with
  | nil => rfl
  | cons s rest ih =>
      obtain ⟨b, k⟩ := s
      by_cases hb : b = a <;> cases k <;> simp [hb, ih] <;> omega

theorem length_issuesAt {l : Ledger} (h : l.Tidy) (a : Word) :
    (l.issuesAt a).length = (l.keys.map Prod.fst).count a := by
  have hkinds : (l.issuesAt a).countP (fun i => ¬ decide (i.kind = .read) = true) =
      (l.issuesAt a).countP (·.kind = .write) := by
    apply List.countP_congr
    intro i _
    cases i.kind <;> simp
  rw [count_kinds, count_keys h, count_keys h,
    List.length_eq_countP_add_countP (fun i : Issue => decide (i.kind = .read)), hkinds]

/-- Beside what is open already, an accepted access is open once more. -/
theorem keys_enter {l : Ledger} (h : l.Tidy) (hr : l.rule ≠ .overwrite) (a : Word) (c : Nat)
    (k : AccessKind) : (l.enter a c k).keys.Perm ((a, k) :: l.keys) := by
  apply List.perm_iff_count.mpr
  rintro ⟨b, k'⟩
  rw [count_keys (h.enter a c k), issuesAt_enter, List.count_cons, count_keys h]
  by_cases hb : b = a
  · subst hb
    simp [hr, List.countP_append, List.countP_singleton]
  · simp [hb, Ne.symm hb]

/-- Settling closes one access of the kind at the address and leaves all others open. -/
theorem keys_settle? {l m : Ledger} {a : Word} {k : AccessKind} {i : Issue} (h : l.Tidy)
    (hs : l.settle? a k = some (i, m)) : l.keys.Perm ((a, k) :: m.keys) := by
  obtain ⟨first, hfind, _⟩ := Option.map_eq_some_iff.1 hs
  obtain ⟨j, before, after, _, hj, hsplit, herase⟩ :=
    List.exists_of_eraseP (List.mem_of_find?_eq_some hfind) (List.find?_some hfind)
  apply List.perm_iff_count.mpr
  rintro ⟨b, k'⟩
  rw [List.count_cons, count_keys h, count_keys (h.settle? hs), issuesAt_settle? hs]
  by_cases hb : b = a
  · subst hb
    rw [if_pos rfl, herase, hsplit]
    have hjk : j.kind = k := by simpa using hj
    simp [List.countP_append, List.countP_cons, hjk, Nat.add_assoc]
  · simp [hb, Ne.symm hb]

/-- An access can be settled when one of its kind is open at its address. -/
theorem exists_settle? {l : Ledger} (h : l.Tidy) {a : Word} {k : AccessKind}
    (hm : (a, k) ∈ l.keys) : ∃ i m, l.settle? a k = some (i, m) := by
  obtain ⟨j, hj, hk⟩ := (mem_keys_iff h).mp hm
  have hfind : ((l.issuesAt a).find? (·.kind = k)).isSome := by
    rw [List.find?_isSome]
    exact ⟨j, hj, by simp [hk]⟩
  obtain ⟨i, hi⟩ := Option.isSome_iff_exists.mp hfind
  exact ⟨i, _, by rw [Ledger.settle?, hi]; rfl⟩

end CycleBridge.Ledger
