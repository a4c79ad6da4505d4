import Durability.Number.Rounding

/-! What throttling knows of the page memory, and the limits it derives from it: when the
checkpoint buffer is too full, how many dirty pages are too many, and how long one page may
take at a given speed. -/

namespace Durability

structure PageMemory where
  /-- The pages in the checkpoint buffer. -/
  bufferCount : Nat
  /-- The pages that the checkpoint buffer can hold. -/
  bufferSize : Nat
  totalPages : Nat
  /-- The dirty pages as a share of all pages. -/
  dirtyRatio : Float

def PageMemory.bufferOverflows (memory : PageMemory) (threshold : Float) : Bool :=
  truncate (nearest memory.bufferSize * threshold) < memory.bufferCount

/-- The dirty ratio above which writers are slowed when a checkpoint has written `written` of
`total` pages. It grows with the share written, starting a little above zero, up to seven
twelfths, and is three quarters once all pages are written. -/
def dirtyRatioThreshold (written total : Nat) : Float :=
  if total ≤ written then 3.0 / 4.0
  else (nearest written / nearest total * 0.95 + 0.05) * (7.0 / 12.0)

/-- How to divide by a speed. -/
structure SpeedDivision (m : Type → Type) where
  whole (number speed : Nat) : m Nat
  real (number : Float) (speed : Nat) : m Float

def SpeedDivision.plain : SpeedDivision Id :=
  { whole := fun number speed => number / speed
    real := fun number speed => number / nearest speed }

/-- The time one page may take if `threads` threads together mark `speed` pages per second,
`coefficient` times over. Without a speed or a positive coefficient it is zero. -/
def pageDelayBy {m : Type → Type} [Monad m] (division : SpeedDivision m) (speed threads : Nat)
    (coefficient : Float) : m Nat :=
  if coefficient ≤ 0.0 ∨ speed = 0 then pure 0
  else do
    let page ← division.whole (1000000000 * threads) speed
    return truncate (coefficient * nearest page)

def pageDelay (speed threads : Nat) (coefficient : Float) : Nat :=
  pageDelayBy .plain speed threads coefficient

end Durability
