import Durability.KeyMap

/-! Signals that are given once, and the registry of parked callers. Whoever parks makes a signal
and puts it into the registry under the next id. There it stays until the caller goes on, whatever
ended its wait. -/

namespace Durability

structure Signals where
  given : List Bool
  deriving DecidableEq, Repr

namespace Signals

def empty : Signals := { given := [] }

def make (signals : Signals) : Nat × Signals :=
  (signals.given.length, { given := signals.given ++ [false] })

def give (signals : Signals) (signal : Nat) : Signals :=
  { given := signals.given.set signal true }

def isGiven (signals : Signals) (signal : Nat) : Bool := signals.given.getD signal false

end Signals

/-- The signals of the parked callers by their ids, and the next id. Ids are words of 64 bits and
wrap around. -/
structure Registry where
  nextId : UInt64
  parked : KeyMap UInt64 Nat
  deriving DecidableEq

namespace Registry

def empty : Registry := { nextId := 0, parked := .empty }

def enter (registry : Registry) (signal : Nat) : UInt64 × Registry :=
  (registry.nextId,
    { nextId := registry.nextId + 1
      parked := registry.parked.insert registry.nextId signal })

def leave (registry : Registry) (id : UInt64) : Registry :=
  { registry with parked := registry.parked.erase id }

end Registry

end Durability
