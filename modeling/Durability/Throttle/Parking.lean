import Durability.Throttle.Registry

/-! Parking and waking. A parked caller is in the registry from before it waits until it goes on,
and waits for a signal of its own or for its time. Waking all gives the signals that are in the
registry at that moment, and no later one. Beside the registry there is a signal that, once given,
ends every wait for it. -/

namespace Durability

inductive ParkingTask where
  | park
  | wait
  deriving DecidableEq, Repr

/-- A blocked caller: its number, the time it waits to at the latest, the signal it waits for, and
its id in the registry if it parks. -/
structure Waiter where
  number : Nat
  deadline : Option Nat
  signal : Nat
  id : Option UInt64
  deriving DecidableEq

structure ParkingHost where
  clock : Nat
  signals : Signals
  token : Nat
  registry : Registry
  waiters : List Waiter
  started : Nat
  deriving DecidableEq

namespace ParkingHost

def new : ParkingHost :=
  { clock := 0, signals := Signals.empty.make.2, token := Signals.empty.make.1, registry := .empty,
    waiters := [], started := 0 }

def parked (host : ParkingHost) : Nat := host.registry.parked.size

def cancelled (host : ParkingHost) : Bool := host.signals.isGiven host.token

def cancel (host : ParkingHost) : ParkingHost :=
  { host with signals := host.signals.give host.token }

def unparkAll (host : ParkingHost) : Nat × ParkingHost :=
  let parked := host.registry.parked.values
  (parked.length, { host with signals := parked.foldl .give host.signals })

def advance (host : ParkingHost) (nanos : Nat) : ParkingHost :=
  { host with clock := host.clock + nanos }

/-- The caller that moves the clock waits for a signal: not at all if it was given, and otherwise
for the whole time, in which nobody else does anything. Gives whether the signal was given. -/
def waitFor (host : ParkingHost) (signal nanos : Nat) : Bool × ParkingHost :=
  let waited := if host.signals.isGiven signal then host else host.advance nanos
  (waited.signals.isGiven signal, waited)

def wait (host : ParkingHost) (nanos : Nat) : Bool × ParkingHost := host.waitFor host.token nanos

def enter (host : ParkingHost) : (UInt64 × Nat) × ParkingHost :=
  let (signal, signals) := host.signals.make
  let (id, registry) := host.registry.enter signal
  ((id, signal), { host with signals, registry })

def leave (host : ParkingHost) (id : UInt64) : ParkingHost :=
  { host with registry := host.registry.leave id }

def park (host : ParkingHost) (nanos : Nat) : Bool × ParkingHost :=
  let ((id, signal), entered) := host.enter
  let (woken, waited) := entered.waitFor signal nanos
  (woken, waited.leave id)

def block (host : ParkingHost) (signal : Nat) (id : Option UInt64) (nanos : Option Nat) :
    ParkingHost :=
  { host with
    waiters := host.waiters ++
      [{ number := host.started, deadline := nanos.map (host.clock + ·), signal, id }]
    started := host.started + 1 }

def start (host : ParkingHost) (task : ParkingTask) (nanos : Option Nat) : ParkingHost :=
  match task with
  | .wait => host.block host.token none nanos
  | .park =>
    let ((id, signal), entered) := host.enter
    entered.block signal (some id) nanos

def canRun (host : ParkingHost) (waiter : Waiter) : Bool :=
  host.signals.isGiven waiter.signal || waiter.deadline.any (· ≤ host.clock)

def release (host : ParkingHost) (waiter : Waiter) : ParkingHost :=
  match waiter.id with
  | none => host
  | some id => host.leave id

/-- Lets every caller that can go on finish. Gives for each of them its number and whether its
signal was given, in the order in which they were started. -/
def settle (host : ParkingHost) : ParkingHost × List (Nat × Bool) :=
  let finished := host.waiters.filter host.canRun
  let left := { host with waiters := host.waiters.filter (!host.canRun ·) }
  (finished.foldl release left,
    finished.map fun waiter => (waiter.number, host.signals.isGiven waiter.signal))

end ParkingHost

end Durability
