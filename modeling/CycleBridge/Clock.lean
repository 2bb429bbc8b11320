import CycleBridge.Word

/-!
# Two clocks on one counter

A bridge counts its own cycles. The frontend side and the engine side are each given a positive
ratio, and a side is driven on the cycles divisible by the ratio of the *other* side: over one
period, the product of both ratios, each side is driven as often as its own ratio says.
-/

namespace CycleBridge

/-- The two sides that a bridge drives. -/
inductive Side where
  | frontend
  | engine
  deriving DecidableEq, Repr

/-- How a side is called in messages. -/
def Side.label : Side → String
  | .frontend => "frontend"
  | .engine => "timing engine"

/-- Which sides one cycle drives. -/
structure Firing where
  frontend : Bool
  engine : Bool
  deriving DecidableEq, Repr

/-- A cycle counter with the ratios of both sides. A ratio of zero would leave the other side
without a clock, so both are positive. -/
structure DualClock where
  frontendRatio : UInt32
  engineRatio : UInt32
  now : Nat := 0
  frontendRatio_pos : 0 < frontendRatio.toNat
  engineRatio_pos : 0 < engineRatio.toNat

namespace DualClock

/-- A clock at cycle zero, or the side whose ratio is zero; the frontend is looked at first. -/
def start (frontendRatio engineRatio : UInt32) : Except Side DualClock :=
  if hf : 0 < frontendRatio.toNat then
    if he : 0 < engineRatio.toNat then
      .ok { frontendRatio, engineRatio, frontendRatio_pos := hf, engineRatio_pos := he }
    else .error .engine
  else .error .frontend

/-- The number of cycles after which the pattern of firings repeats. -/
def period (c : DualClock) : Nat := c.frontendRatio.toNat * c.engineRatio.toNat

/-- Which sides cycle `n` drives; only the place of `n` within the period counts. -/
def firingAt (c : DualClock) (n : Nat) : Firing :=
  let phase := n % c.period
  { frontend := phase % c.engineRatio.toNat = 0
    engine := phase % c.frontendRatio.toNat = 0 }

/-- The next cycle. -/
def advance (c : DualClock) : DualClock := { c with now := c.now + 1 }

/-- The sides that the present cycle drives. -/
def firing (c : DualClock) : Firing := c.firingAt c.now

@[simp] theorem advance_now (c : DualClock) : c.advance.now = c.now + 1 := rfl

/-- The period is at least one cycle long. -/
theorem period_pos (c : DualClock) : 0 < c.period :=
  Nat.mul_pos c.frontendRatio_pos c.engineRatio_pos

/-- A start fails exactly on a zero ratio. -/
theorem start_isOk_iff (f e : UInt32) :
    (start f e).isOk = true ↔ 0 < f.toNat ∧ 0 < e.toNat := by
  unfold start
  split
  · split <;> simp_all [Except.isOk, Except.toBool]
  · simp_all [Except.isOk, Except.toBool]

/-- The clock `n` cycles later. -/
def skip (c : DualClock) (n : Nat) : DualClock := { c with now := c.now + n }

/-- What the `n` cycles after the present one drive, in order. -/
def nextFirings (c : DualClock) (n : Nat) : List Firing :=
  (List.range' (c.now + 1) n).map c.firingAt

/-- How often the `n` cycles after the present one drive the frontend. -/
def frontendFirings (c : DualClock) (n : Nat) : Nat := (c.nextFirings n).countP (·.frontend)

/-- How often the `n` cycles after the present one drive the engine. -/
def engineFirings (c : DualClock) (n : Nat) : Nat := (c.nextFirings n).countP (·.engine)

/-- Stepping once and then `n` times more looks at the same cycles as stepping `n + 1` times. -/
theorem nextFirings_succ (c : DualClock) (n : Nat) :
    c.nextFirings (n + 1) = c.advance.firing :: c.advance.nextFirings n := rfl

end DualClock

end CycleBridge
