/-! The outcome of a decision on one writer. -/

namespace Durability

/-- How long a writer parks. That throttling does not apply is told apart from a decision not
to park: only the latter is counted. -/
inductive ParkTime where
  | noThrottling
  | measured (nanos : Nat)
  deriving DecidableEq, Repr

namespace ParkTime

def duration : ParkTime → Nat
  | noThrottling => 0
  | measured nanos => nanos

def isParked (time : ParkTime) : Bool := 0 < time.duration

end ParkTime

end Durability
