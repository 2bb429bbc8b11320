import CycleBridge.Word
import Std.Data.TreeMap

/-!
# Memory contents

What every address holds, apart from any timing. An address that was never written holds its own
number, so a read has an answer before the first write. `read_write` and `contains_write` say what a
write changes.
-/

namespace CycleBridge

/-- The values written so far, by address. -/
structure Memory where
  cells : Std.TreeMap Word Word := ∅

namespace Memory

/-- The value at an address: the last one written there, else the address itself. -/
def read (m : Memory) (addr : Word) : Word := m.cells[addr]?.getD addr

/-- The memory after a value was written. -/
def write (m : Memory) (addr value : Word) : Memory := ⟨m.cells.insert addr value⟩

/-- Whether an address was ever written. -/
def contains (m : Memory) (addr : Word) : Bool := m.cells.contains addr

/-- How many addresses were written. -/
def size (m : Memory) : Nat := m.cells.size

/-- Whether nothing was written yet. -/
def isEmpty (m : Memory) : Bool := m.cells.isEmpty

@[simp] theorem read_empty (a : Word) : ({} : Memory).read a = a := by
  simp [read]

theorem read_write (m : Memory) (a b v : Word) :
    (m.write a v).read b = if b = a then v else m.read b := by
  simp only [read, write, Std.TreeMap.getElem?_insert, Std.compare_eq_iff_eq]
  by_cases h : a = b
  · simp [h]
  · simp [h, Ne.symm h]

theorem contains_write (m : Memory) (a b v : Word) :
    (m.write a v).contains b = (decide (a = b) || m.contains b) := by
  simp only [contains, write, Std.TreeMap.contains_insert]
  by_cases h : a = b <;> simp [h]

end Memory

end CycleBridge
