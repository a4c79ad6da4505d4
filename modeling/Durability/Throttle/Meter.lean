import Durability.Throttle.Interval

/-! A meter of operations per second and of the mean of samples, over the last few intervals of
a fixed length. An interval is closed by the first call at or after its end. The speed divides
by the time that the retained intervals cover, so time between a closed interval and a restart
does not count. -/

namespace Durability

structure Meter where
  intervalNanos : Nat
  maxIntervals : Nat
  current : Interval
  closed : List Interval
  deriving DecidableEq, Repr

namespace Meter

/-- A meter that starts now. An interval lasts at least one nanosecond, and at least one is
retained. -/
def new (intervalNanos maxIntervals now : Nat) : Meter :=
  { intervalNanos := max (saturate intervalNanos) 1
    maxIntervals := max maxIntervals 1
    current := .starting now 0
    closed := [] }

def manual (maxIntervals now : Nat) : Meter := new largest64 maxIntervals now

def finish (meter : Meter) (now : Nat) : Meter :=
  let closed := meter.closed ++ [meter.current.close now]
  { meter with
    current := .starting now meter.current.counter
    closed := closed.drop (closed.length - meter.maxIntervals) }

def rotate (meter : Meter) (now : Nat) : Meter :=
  if meter.intervalNanos ≤ now - meter.current.start then meter.finish now else meter

def increment (meter : Meter) (now : Nat) : Meter :=
  let meter := meter.rotate now
  { meter with current := meter.current.count }

def restart (meter : Meter) (value now : Nat) : Meter :=
  { meter with current := .starting now value }

/-- Sets the running total. A total that falls restarts the current interval. -/
def setCounter (meter : Meter) (value now : Nat) : Meter :=
  let meter := meter.rotate now
  if value < meter.current.counter then meter.restart value now
  else { meter with current := { meter.current with counter := value } }

def addSample (meter : Meter) (value now : Nat) : Meter :=
  let meter := meter.rotate now
  { meter with current := meter.current.addSample value }

def windowNanos (meter : Meter) : Nat := saturate (meter.intervalNanos * meter.maxIntervals)

/-- The intervals that a reading covers: the closed ones that ended within the window, and the
current one. -/
def covered (meter : Meter) (now : Nat) : List Interval :=
  let horizon := now - meter.windowNanos
  meter.closed.filter (fun interval => interval.stop.any (horizon ≤ ·)) ++ [meter.current]

def speedOver (intervals : List Interval) (now : Nat) : Nat :=
  let operations := intervals.foldl (fun sum interval => saturate (sum + interval.operations)) 0
  let elapsed := intervals.foldl (fun sum interval => saturate (sum + interval.duration now)) 0
  if elapsed = 0 then 0 else saturate (operations * 1000000000 / elapsed)

def readSpeed (meter : Meter) (now : Nat) : Nat × Meter :=
  let meter := meter.rotate now
  (speedOver (meter.covered now) now, meter)

def average (meter : Meter) : Nat :=
  let intervals := meter.closed ++ [meter.current]
  let samples := intervals.foldr (·.samples + ·) 0
  if samples = 0 then 0 else saturate (intervals.foldr (·.sum + ·) 0 / samples)

end Meter

end Durability
