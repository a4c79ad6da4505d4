import Durability.Number.Rounding

/-! An interval of a measurement: the operations counted from its start to its end, and the
samples recorded in it. The count is kept as a running total and the total at the start, so that
a later interval takes up where an earlier one ended. -/

namespace Durability

structure Interval where
  start : Nat
  stop : Option Nat
  initial : Nat
  counter : Nat
  sum : Nat
  samples : Nat
  deriving DecidableEq, Repr

namespace Interval

def starting (now counter : Nat) : Interval :=
  { start := now, stop := none, initial := counter, counter, sum := 0, samples := 0 }

def operations (interval : Interval) : Nat := interval.counter - interval.initial

def duration (interval : Interval) (now : Nat) : Nat := interval.stop.getD now - interval.start

def count (interval : Interval) : Interval :=
  { interval with counter := wrap64 (interval.counter + 1) }

def addSample (interval : Interval) (value : Nat) : Interval :=
  { interval with sum := saturate (interval.sum + value), samples := interval.samples + 1 }

/-- The interval closed now, or at its start if that is later. -/
def close (interval : Interval) (now : Nat) : Interval :=
  { interval with stop := some (max now interval.start) }

end Interval

end Durability
