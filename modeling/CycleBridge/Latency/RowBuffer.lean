import CycleBridge.Latency.Model

/-!
# A memory with one row buffer

The memory keeps the row of its last access open. An access to the open row is quick; with no row
open the row has to be opened first; with another row open that one has to be closed before. The
row of an address is the address without its low `rowBits` bits.
-/

namespace CycleBridge

/-- Timings, the row mask, the open row and what the last access met. -/
structure RowBuffer where
  tCas : Word
  tRas : Word
  tPre : Word
  rowMask : Word
  openRow : Option Word := none
  last : Option RowResult := none
  deriving DecidableEq, Repr

namespace RowBuffer

/-- The usual number of address bits within a row. -/
def usualRowBits : UInt32 := 11

/-- The mask that clears the low `rowBits` bits; from 64 bits on nothing of an address is left. -/
def maskOf (rowBits : UInt32) : Word :=
  if 64 ≤ rowBits.toNat then 0 else ~~~((1 <<< rowBits.toUInt64) - 1)

/-- A memory with these timings, with no row open. -/
def ofTimings (tCas tRas tPre : Word) (rowBits : UInt32 := usualRowBits) : RowBuffer :=
  { tCas, tRas, tPre, rowMask := maskOf rowBits }

/-- The row of an address. -/
def rowOf (m : RowBuffer) (addr : Word) : Word := addr &&& m.rowMask

/-- What an access to a row meets. -/
def resultFor (m : RowBuffer) (row : Word) : RowResult :=
  match m.openRow with
  | some open' => if open' = row then .hit else .conflict
  | none => .miss

/-- How long an access with a given outcome takes; sums stay within a word. -/
def latencyOf (m : RowBuffer) : RowResult → Word
  | .hit => m.tCas
  | .miss => Word.addClamped m.tRas m.tCas
  | .conflict => Word.addClamped (Word.addClamped m.tPre m.tRas) m.tCas

/-- The memory after an access: its row is open and its outcome is the last one. -/
def touch (m : RowBuffer) (addr : Word) : RowBuffer :=
  { m with openRow := some (m.rowOf addr), last := some (m.resultFor (m.rowOf addr)) }

end RowBuffer

instance : LatencyModel RowBuffer where
  access m addr := (m.latencyOf (m.resultFor (m.rowOf addr)), m.touch addr)
  lastResult m := m.last

end CycleBridge
