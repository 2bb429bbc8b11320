import CycleBridge.Smoke.Setup

/-!
# The pattern of a smoke run

Every access of the pattern goes to a multiple of the stride, its line. As long as the addresses fit
into a word, a positive stride keeps the lines apart: no access goes where a read went before it.
And whatever the stride, an address that is ever read and written is written before it is read, so
that what a read should find depends on its address alone.
-/

namespace CycleBridge.SmokeSetup

variable {p : SmokeSetup} {i j : Nat}

/-- The line of an access: a read that follows a write goes to the line of the write. -/
def line (i : Nat) : Nat := if i % 4 = 1 then i - 1 else i

/-- All addresses of the pattern fit into a word. -/
def Fits (p : SmokeSetup) : Prop := ∀ i < p.requests, line i * p.stride.toNat < UInt64.size

instance (p : SmokeSetup) : Decidable p.Fits :=
  inferInstanceAs (Decidable (∀ i < p.requests, line i * p.stride.toNat < UInt64.size))

theorem access_addr (p : SmokeSetup) (i : Nat) :
    (p.access i).addr = (line i).toUInt64 * p.stride := by
  unfold access line
  split
  · next h => rw [if_neg (by omega)]
  · next h => rw [if_pos h]
  · next h => rw [if_neg h]

theorem access_kind (p : SmokeSetup) (i : Nat) :
    (p.access i).kind = if i % 4 = 0 then .write else .read := by
  unfold access
  split
  · next h => rw [if_pos h]
  · next h => rw [if_neg (by omega)]
  · next h _ => rw [if_neg h]

theorem kind_eq_write_iff : (p.access i).kind = .write ↔ i % 4 = 0 := by
  rw [access_kind]
  split <;> simp_all

theorem kind_eq_read_iff : (p.access i).kind = .read ↔ i % 4 ≠ 0 := by
  rw [access_kind]
  split <;> simp_all

/-- No access of the pattern goes where a read went before it. -/
def LeavesReads (p : SmokeSetup) : Prop :=
  ∀ i j, i < j → j < p.requests → (p.access i).kind = .read →
    (p.access j).addr ≠ (p.access i).addr

/-- A pattern that ends with its first read has no access behind a read. -/
theorem leavesReads_of_short (h : p.requests ≤ 2) : p.LeavesReads := by
  intro i j hij hj hread
  rw [kind_eq_read_iff] at hread
  omega

section Fits

variable (h : p.Fits)
include h

/-- An address that fits is the product of the line and the stride. -/
theorem addr_toNat (hi : i < p.requests) :
    (p.access i).addr.toNat = line i * p.stride.toNat := by
  have hfits := h i hi
  rw [access_addr]
  rcases Nat.eq_zero_or_pos p.stride.toNat with hzero | hpos
  · rw [UInt64.toNat_mul, hzero, Nat.mul_zero, Nat.mul_zero, Nat.zero_mod]
  · have hline : line i < UInt64.size := Nat.lt_of_le_of_lt (Nat.le_mul_of_pos_right _ hpos) hfits
    have hword : (line i).toUInt64.toNat = line i := Nat.mod_eq_of_lt hline
    rw [UInt64.toNat_mul, hword, Nat.mod_eq_of_lt hfits]

/-- A positive stride keeps different lines apart. -/
theorem line_eq_of_addr_eq (hs : p.stride ≠ 0) (hi : i < p.requests) (hj : j < p.requests)
    (he : (p.access i).addr = (p.access j).addr) : line i = line j := by
  have hproduct := congrArg UInt64.toNat he
  rw [addr_toNat h hi, addr_toNat h hj] at hproduct
  have hpos : 0 < p.stride.toNat := by
    apply Nat.pos_of_ne_zero
    intro hzero
    exact hs (UInt64.toNat_inj.mp hzero)
  exact Nat.eq_of_mul_eq_mul_right hpos hproduct

theorem leavesReads_of_stride (hs : p.stride ≠ 0) : p.LeavesReads := by
  intro i j hij hj hread he
  have hline := line_eq_of_addr_eq h hs hj (by omega) he
  rw [kind_eq_read_iff] at hread
  unfold line at hline
  split at hline <;> split at hline <;> omega

/-- An address that is written at all is written before it is read. -/
theorem exists_write_before (hi : i < p.requests) (hread : (p.access i).kind = .read)
    (hj : j < p.requests) (hwrite : (p.access j).kind = .write)
    (he : (p.access j).addr = (p.access i).addr) :
    ∃ n < i, (p.access n).kind = .write ∧ (p.access n).addr = (p.access i).addr := by
  rw [kind_eq_read_iff] at hread
  by_cases hs : p.stride = 0
  · -- all accesses go to one address, and the first of them is a write
    refine ⟨0, by omega, rfl, ?_⟩
    rw [access_addr, access_addr, hs, UInt64.mul_zero, UInt64.mul_zero]
  · have hline := line_eq_of_addr_eq h hs hj hi he
    refine ⟨j, ?_, hwrite, he⟩
    rw [kind_eq_write_iff] at hwrite
    unfold line at hline
    split at hline <;> split at hline <;> omega

end Fits

/-- Whether the pattern writes at an address. -/
def Writes (p : SmokeSetup) (a : Word) : Prop :=
  ∃ i < p.requests, (p.access i).kind = .write ∧ (p.access i).addr = a

instance (p : SmokeSetup) (a : Word) : Decidable (p.Writes a) :=
  inferInstanceAs (Decidable (∃ i < p.requests, (p.access i).kind = .write ∧ (p.access i).addr = a))

/-- What a read of the pattern should find at an address, whenever it looks. -/
def valueAt (p : SmokeSetup) (a : Word) : Word := if p.Writes a then dataFor a else a

end CycleBridge.SmokeSetup
