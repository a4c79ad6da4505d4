import Durability.Number.Rounding

/-! Delays that grow by a constant ratio from one attempt to the next, shared by all callers that
run into the same obstacle, until it is out of the way and they start anew. -/

namespace Durability

/-- A backoff: its first delay in nanoseconds, its growth, and the delays given since the last
reset. -/
structure Backoff where
  starting : Nat
  ratio : Float
  attempts : UInt32

namespace Backoff

def new (starting : Nat) (ratio : Float) : Backoff := { starting, ratio, attempts := 0 }

def delay (backoff : Backoff) (attempt : Nat) : Nat :=
  truncate (nearest backoff.starting * power backoff.ratio (min attempt 0x7fffffff))

def next (backoff : Backoff) : Nat × Backoff :=
  (backoff.delay backoff.attempts.toNat, { backoff with attempts := backoff.attempts + 1 })

def take : (count : Nat) → Backoff → List Nat × Backoff
  | 0, backoff => ([], backoff)
  | count + 1, backoff =>
    let (delay, backoff) := backoff.next
    let (delays, backoff) := take count backoff
    (delay :: delays, backoff)

def skip (backoff : Backoff) (count : Nat) : Backoff :=
  { backoff with attempts := backoff.attempts + UInt32.ofNat count }

def started (backoff : Backoff) : Bool := backoff.attempts ≠ 0

def reset (backoff : Backoff) : Backoff := { backoff with attempts := 0 }

def bufferDefault : Backoff := new 4000 1.05

end Backoff

end Durability
