/-!
# Machine words

Addresses, data and configured latencies are unsigned 64-bit words. Clock readings and counters are
natural numbers; `Word.ceiling` is the largest reading a due cycle can hold, and a sum of latencies
is kept modulo the size of a word.
-/

namespace CycleBridge

/-- An unsigned 64-bit word: an address, a stored value or a configured latency. -/
abbrev Word := UInt64

namespace Word

/-- The largest word, read as a number. -/
def ceiling : Nat := UInt64.size - 1

/-- A number kept from passing the largest word. -/
def clamp (n : Nat) : Nat := min n ceiling

/-- A number modulo the size of a word, which is what a word holds of it. -/
def wrap (n : Nat) : Nat := n % UInt64.size

/-- The sum of two words, held at the largest word when it does not fit. -/
def addClamped (a b : Word) : Word := UInt64.ofNat (clamp (a.toNat + b.toNat))

theorem clamp_le (n : Nat) : clamp n ≤ ceiling := Nat.min_le_right _ _

theorem clamp_of_lt {n : Nat} (h : n < UInt64.size) : clamp n = n := by
  simp only [clamp, ceiling]
  omega

/-- A clamped sum read as a number is the clamped sum of the readings. -/
theorem addClamped_toNat (a b : Word) :
    (addClamped a b).toNat = clamp (a.toNat + b.toNat) := by
  have h := clamp_le (a.toNat + b.toNat)
  simp only [ceiling, UInt64.size] at h
  simp only [addClamped, UInt64.toNat_ofNat', Nat.reducePow]
  omega

end Word

end CycleBridge
