import CycleBridge.Access

/-!
# The setup of a smoke run

A smoke run submits a fixed pattern of accesses, four at a time: a write, a read of the address just
written, and two reads of addresses of their own.
-/

namespace CycleBridge

/-- How many accesses to submit, and where the run stops at the latest. -/
structure SmokeSetup where
  requests : Nat := 128
  maxCycles : Nat := 50000
  maxInFlight : Nat := 64
  stride : Word := 64
  stallLimit : Nat := 10000
  deriving DecidableEq, Repr

namespace SmokeSetup

/-- The access with number `i` of the pattern. -/
def access (p : SmokeSetup) (i : Nat) : Access :=
  match i % 4 with
  | 0 => { addr := i.toUInt64 * p.stride, kind := .write, source := 0 }
  | 1 => { addr := (i - 1).toUInt64 * p.stride, kind := .read, source := 0 }
  | _ => { addr := i.toUInt64 * p.stride, kind := .read, source := 0 }

/-- What a write stores at its address. -/
def dataFor (addr : Word) : Word := addr ^^^ 0xDEADBEEFCAFEBABE

/-- The data that goes with an access. -/
def data (a : Access) : Word :=
  match a.kind with
  | .read => 0
  | .write => dataFor a.addr

end SmokeSetup

end CycleBridge
