import Durability.Throttle.SpeedBased
import Durability.Throttle.TargetRatio

/-! A throttling policy, whichever it is: what it decides when a writer is about to mark a page,
and what it does when a checkpoint begins or ends and when the checkpoint buffer has room
again. -/

namespace Durability

inductive ThrottleNotice where
  /-- A writer is about to park for more than ten seconds. -/
  | longPark (millis : Nat)
  | pressure (pressure : Pressure)

/-- How a writer parks: for how long at most, and whether in the registry, where it can be woken,
or by sleeping. -/
structure Park where
  nanos : Nat
  registered : Bool
  deriving DecidableEq, Repr

/-- A decision on a writer: the answer it gets, whether it parks first, whether the parked
writers are woken, and what is reported. -/
structure Decision where
  answer : ParkTime
  park : Option Park
  wakes : Bool
  notices : List ThrottleNotice

inductive Policy where
  | speed (throttle : SpeedThrottle)
  | ratio (throttle : RatioThrottle)

namespace Policy

def ofOptions (options : ThrottleOptions) (now : Nat) : Option Policy :=
  match options.policy with
  | .disabled => none
  | .targetRatio => some (ratio (.new false options))
  | .checkpointBufferOnly => some (ratio (.new true options))
  | .speedBased => some (speed (.new options now))

def bufferOverflows (policy : Policy) (memory : PageMemory) : Bool :=
  match policy with
  | speed throttle => throttle.bufferOverflows memory
  | ratio throttle => throttle.bufferOverflows memory

def quietParkNanos : Nat := 10 * 1000000000

def longPark (nanos : Nat) : List ThrottleNotice :=
  if quietParkNanos < nanos then [.longPark (nanos / 1000000)] else []

/-- The decision of the speed-based throttle. A writer that does not park still counts in the
mean time parked, which is why the answer is not final before `complete`. -/
def decideSpeed (throttle : SpeedThrottle) (memory : PageMemory)
    (progress : Option ProgressSnapshot) (inCheckpoint : Bool) (thread now : Nat) :
    Decision × SpeedThrottle :=
  match throttle.decide memory progress inCheckpoint thread now with
  | (.noThrottling, throttle) =>
    ({ answer := .noThrottling, park := none, wakes := false, notices := [] }, throttle)
  | (.measured nanos, throttle) =>
    if nanos = 0 then
      ({ answer := .measured 0, park := none, wakes := false, notices := [] }, throttle)
    else
      let (pressure, throttle) := throttle.warn memory progress now
      ({ answer := .measured nanos
         park := some { nanos, registered := true }
         wakes := false
         notices := (pressure.map .pressure).toList ++ longPark nanos }, throttle)

/-- The decision of the throttle by dirty ratio. A writer in the checkpoint that is not throttled
wakes the parked ones, if any delay was given since the last reset. -/
def decideRatio (throttle : RatioThrottle) (memory : PageMemory)
    (progress : Option ProgressSnapshot) (inCheckpoint : Bool) : Decision × RatioThrottle :=
  match throttle.exceeds? memory progress inCheckpoint with
  | none => ({ answer := .noThrottling, park := none, wakes := false, notices := [] }, throttle)
  | some false =>
    let backoff := throttle.backoff inCheckpoint
    ({ answer := .measured 0
       park := none
       wakes := inCheckpoint && backoff.started
       notices := [] }, throttle.withBackoff inCheckpoint backoff.reset)
  | some true =>
    let (nanos, backoff) := (throttle.backoff inCheckpoint).next
    ({ answer := .measured nanos
       park := some { nanos, registered := inCheckpoint }
       wakes := false
       notices := longPark nanos }, throttle.withBackoff inCheckpoint backoff)

def decide (policy : Policy) (memory : PageMemory) (progress : Option ProgressSnapshot)
    (inCheckpoint : Bool) (thread now : Nat) : Decision × Policy :=
  match policy with
  | speed throttle =>
    let (decision, throttle) := decideSpeed throttle memory progress inCheckpoint thread now
    (decision, speed throttle)
  | ratio throttle =>
    let (decision, throttle) := decideRatio throttle memory progress inCheckpoint
    (decision, ratio throttle)

/-- Whether a decision counts in the metrics: under the speed-based throttle every one to which
throttling applies, and otherwise those to park. -/
def counts (policy : Policy) (decision : Decision) : Bool :=
  match policy with
  | speed _ => decision.answer ≠ .noThrottling
  | ratio _ => decision.park.isSome

def complete (policy : Policy) (answer : ParkTime) (now : Nat) : Policy :=
  match policy, answer with
  | speed throttle, .measured nanos => speed (throttle.record nanos now)
  | policy, _ => policy

def begin (policy : Policy) (now : Nat) : Policy :=
  match policy with
  | speed throttle => speed (throttle.begin now)
  | ratio throttle => ratio throttle

def finish (policy : Policy) (now : Nat) : Policy :=
  match policy with
  | speed throttle => speed (throttle.finish now)
  | ratio throttle => ratio throttle.finish

def relax (policy : Policy) : Policy :=
  match policy with
  | speed throttle => speed throttle.relax
  | ratio throttle => ratio throttle.relax

end Policy

end Durability
