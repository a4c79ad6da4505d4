/-! Callers that sleep until a time or until they are woken. Waking only marks a sleeper; it goes
on when it is next looked at, which is also when it finds its time come. -/

namespace Durability

/-- A blocked caller: its number, the time it sleeps to at the latest, whether it was woken, and
what it is to go on with. -/
structure Sleeper (κ : Type) where
  number : Nat
  deadline : Option Nat
  woken : Bool
  task : κ
  deriving DecidableEq, Repr

namespace Sleeper

variable {κ : Type}

def canRun (clock : Nat) (sleeper : Sleeper κ) : Bool :=
  sleeper.woken || sleeper.deadline.any (· ≤ clock)

def wakeIf (meant : κ → Bool) (sleeper : Sleeper κ) : Sleeper κ :=
  { sleeper with woken := sleeper.woken || meant sleeper.task }

end Sleeper

end Durability
