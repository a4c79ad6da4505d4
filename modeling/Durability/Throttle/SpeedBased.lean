import Durability.Options.Basic
import Durability.Throttle.Backoff
import Durability.Throttle.CleanPages

/-! The speed-based throttle. A writer of a page in the checkpoint parks with growing delays
while the checkpoint buffer is too full; every other writer is decided on by the protection of
clean pages. When writers spend much of their time parked, a warning says so, but not more often
than its least delay allows. -/

namespace Durability

structure SpeedThrottle where
  /-- The pages marked in the last second or so, and the mean time parked. -/
  marks : Meter
  /-- The time of the last warning, which is never zero; zero if there was none. -/
  lastWarning : Nat
  bufferBackoff : Backoff
  cleanPages : CleanPages
  bufferFillThreshold : Float
  warnThreshold : Float
  /-- The least time between two warnings. No clock reading lies further from another than the
  largest number of 64 bits, so that it need not be longer. -/
  warnMinDelay : Nat

structure Pressure where
  weight : Float
  markSpeed : Nat
  writeSpeed : Nat
  markAllSpeed : Nat
  currentRatio : Float
  targetRatio : Float
  averagePark : Nat
  progress : ProgressSnapshot
  bufferCount : Nat
  bufferSize : Nat

namespace SpeedThrottle

def markIntervalNanos : Nat := 250 * 1000000

def markIntervals : Nat := 3

def new (options : ThrottleOptions) (now : Nat) : SpeedThrottle :=
  { marks := .new markIntervalNanos markIntervals now
    lastWarning := 0
    bufferBackoff := .new options.startingParkNanos options.backoffRatio
    cleanPages := .new now
    bufferFillThreshold := options.bufferFillThreshold
    warnThreshold := options.warnThreshold
    warnMinDelay := saturate options.warnMinDelayNanos }

def bufferOverflows (throttle : SpeedThrottle) (memory : PageMemory) : Bool :=
  memory.bufferOverflows throttle.bufferFillThreshold

def readMarkSpeed (throttle : SpeedThrottle) (now : Nat) : Nat × SpeedThrottle :=
  let (speed, marks) := throttle.marks.readSpeed now
  (speed, { throttle with marks })

def readWriteSpeed (throttle : SpeedThrottle) (now : Nat) : Nat × SpeedThrottle :=
  let (speed, cleanPages) := throttle.cleanPages.readWriteSpeed now
  (speed, { throttle with cleanPages })

def averagePark (throttle : SpeedThrottle) : Nat := throttle.marks.average

section Divided

variable {m : Type → Type} [Monad m] (division : SpeedDivision m)

def readWeightBy (throttle : SpeedThrottle) (now : Nat) : m (Float × SpeedThrottle) :=
  let (speed, throttle) := throttle.readMarkSpeed now
  if speed = 0 then pure (0.0, throttle)
  else do
    let page ← pageDelayBy division speed throttle.cleanPages.threads.length 1.0
    return (if page = 0 then 0.0 else nearest throttle.averagePark / nearest page, throttle)

def decideBy (throttle : SpeedThrottle) (memory : PageMemory)
    (progress : Option ProgressSnapshot) (inCheckpoint : Bool) (thread now : Nat) :
    m (ParkTime × SpeedThrottle) :=
  if inCheckpoint && throttle.bufferOverflows memory then
    let (nanos, bufferBackoff) := throttle.bufferBackoff.next
    pure (.measured nanos, { throttle with bufferBackoff })
  else do
    let throttle := if inCheckpoint then
      { throttle with bufferBackoff := throttle.bufferBackoff.reset } else throttle
    let (time, cleanPages, marks) ←
      throttle.cleanPages.protectBy division throttle.marks memory progress thread now
    return (time, { throttle with cleanPages, marks })

end Divided

def readWeight (throttle : SpeedThrottle) (now : Nat) : Float × SpeedThrottle :=
  throttle.readWeightBy .plain now

def decide (throttle : SpeedThrottle) (memory : PageMemory)
    (progress : Option ProgressSnapshot) (inCheckpoint : Bool) (thread now : Nat) :
    ParkTime × SpeedThrottle :=
  throttle.decideBy .plain memory progress inCheckpoint thread now

theorem readWeight_snd (throttle : SpeedThrottle) (now : Nat) :
    (throttle.readWeight now).2 = (throttle.readMarkSpeed now).2 := by
  simp only [readWeight, readWeightBy]
  split <;> rfl

theorem decide_of_full {throttle : SpeedThrottle} {memory : PageMemory} {inCheckpoint : Bool}
    (full : (inCheckpoint && throttle.bufferOverflows memory) = true)
    (progress : Option ProgressSnapshot) (thread now : Nat) :
    throttle.decide memory progress inCheckpoint thread now =
      (.measured throttle.bufferBackoff.next.1,
        { throttle with bufferBackoff := throttle.bufferBackoff.next.2 }) :=
  if_pos full

theorem decide_of_room {throttle : SpeedThrottle} {memory : PageMemory} {inCheckpoint : Bool}
    (room : (inCheckpoint && throttle.bufferOverflows memory) = false)
    (progress : Option ProgressSnapshot) (thread now : Nat) :
    let guarded := throttle.cleanPages.protect throttle.marks memory progress thread now
    throttle.decide memory progress inCheckpoint thread now =
      (guarded.1,
        { throttle with
          bufferBackoff :=
            if inCheckpoint then throttle.bufferBackoff.reset else throttle.bufferBackoff
          cleanPages := guarded.2.1
          marks := guarded.2.2 }) := by
  intro guarded
  refine (if_neg (Bool.eq_false_iff.mp room)).trans ?_
  cases inCheckpoint <;> rfl

def record (throttle : SpeedThrottle) (nanos now : Nat) : SpeedThrottle :=
  { throttle with marks := throttle.marks.addSample nanos now }

def begin (throttle : SpeedThrottle) (now : Nat) : SpeedThrottle :=
  { throttle with cleanPages := throttle.cleanPages.reset now }

def finish (throttle : SpeedThrottle) (now : Nat) : SpeedThrottle :=
  { throttle with
    bufferBackoff := throttle.bufferBackoff.reset
    cleanPages := throttle.cleanPages.close now
    marks := throttle.marks.finish now }

def relax (throttle : SpeedThrottle) : SpeedThrottle :=
  { throttle with bufferBackoff := throttle.bufferBackoff.reset }

end SpeedThrottle

/-- Whether to warn is found out in four calls, between which other writers may make theirs. -/
inductive WarningCheck where
  /-- Looks up the time of the last warning. -/
  | start
  /-- Reads the clock. -/
  | timing (previous : Nat)
  /-- Compares the throttle weight with its threshold. -/
  | weighing (previous now : Nat)
  /-- Sets the time of the last warning, unless another writer has. -/
  | claiming (previous now : Nat) (weight : Float)
  /-- Has ended: if a warning is due, with its time and weight. -/
  | done (due : Option (Nat × Float))

namespace WarningCheck

/-- Makes the next call at time `clock`. A weight that is not a number is above the threshold. -/
def step (clock : Nat) (throttle : SpeedThrottle) : WarningCheck → WarningCheck × SpeedThrottle
  | start => (timing throttle.lastWarning, throttle)
  | timing previous =>
    if previous ≠ 0 ∧ clock - previous ≤ throttle.warnMinDelay then (done none, throttle)
    else (weighing previous clock, throttle)
  | weighing previous now =>
    let (weight, throttle) := throttle.readWeight clock
    if weight ≤ throttle.warnThreshold then (done none, throttle)
    else (claiming previous now weight, throttle)
  | claiming previous now weight =>
    if throttle.lastWarning = previous then
      (done (some (now, weight)), { throttle with lastWarning := max now 1 })
    else (done none, throttle)
  | done due => (done due, throttle)

def run (clock : Nat) (throttle : SpeedThrottle) : Option (Nat × Float) × SpeedThrottle :=
  let first := step clock throttle start
  let second := step clock first.2 first.1
  let third := step clock second.2 second.1
  let fourth := step clock third.2 third.1
  match fourth.1 with
  | done due => (due, fourth.2)
  | _ => (none, fourth.2)

end WarningCheck

namespace SpeedThrottle

def readPressure (throttle : SpeedThrottle) (memory : PageMemory)
    (progress : Option ProgressSnapshot) (weight : Float) (now : Nat) :
    Pressure × SpeedThrottle :=
  let (markSpeed, throttle) := throttle.readMarkSpeed now
  let (writeSpeed, throttle) := throttle.readWriteSpeed now
  ({ weight, markSpeed, writeSpeed
     markAllSpeed := throttle.cleanPages.markAllSpeed
     currentRatio := throttle.cleanPages.currentRatio
     targetRatio := throttle.cleanPages.targetRatio
     averagePark := throttle.averagePark
     progress := progress.getD .idle
     bufferCount := memory.bufferCount
     bufferSize := memory.bufferSize }, throttle)

def warn (throttle : SpeedThrottle) (memory : PageMemory)
    (progress : Option ProgressSnapshot) (now : Nat) : Option Pressure × SpeedThrottle :=
  match WarningCheck.run now throttle with
  | (none, throttle) => (none, throttle)
  | (some (_, weight), throttle) =>
    let (pressure, throttle) := throttle.readPressure memory progress weight now
    (some pressure, throttle)

end SpeedThrottle

end Durability
