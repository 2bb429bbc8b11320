/-!
# Bisection

The first place of a list from which on a test fails, for a list in which the test holds up to some
place and fails from there on. Only the middle of the remaining stretch is tested each time.
-/

namespace CycleBridge

/-- Narrows the stretch from `lo` to `hi`, halving it at most as often as the first number says. -/
def bisect {α : Type} (p : α → Bool) (xs : List α) : Nat → Nat → Nat → Nat
  | 0, lo, _ => lo
  | steps + 1, lo, hi =>
    if lo < hi then
      let mid := (lo + hi) / 2
      if xs[mid]?.any p then bisect p xs steps (mid + 1) hi else bisect p xs steps lo mid
    else lo

/-- The place where a list stops to satisfy a test. -/
def splitPoint {α : Type} (p : α → Bool) (xs : List α) : Nat :=
  bisect p xs xs.length 0 xs.length

end CycleBridge
