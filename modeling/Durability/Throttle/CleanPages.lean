import Durability.Throttle.Memory
import Durability.Throttle.Meter
import Durability.Throttle.ParkTime
import Durability.Throttle.Progress

/-! The protection of clean pages. Writers must not use up the clean pages before the running
checkpoint completes. Two limits apply. Once the dirty ratio is above a target that grows with
the checkpoint's progress, pages may be marked only so fast that the clean ones last until its
end; and marking may be only a little faster than the checkpoint writes. The longer of the two
delays is the time to park. -/

namespace Durability

/-- The estimator's memory: how fast the checkpoints of late completed pages, the pages written
when this one was first seen writing (zero before that), the dirty ratio then, the dirty ratio
and target of the last decision, the speed that would use up the clean pages just at the end of
the checkpoint, and the threads that were decided on since the last checkpoint. -/
structure CleanPages where
  writes : Meter
  firstWritten : Nat
  initialRatio : Float
  currentRatio : Float
  targetRatio : Float
  markAllSpeed : Nat
  threads : List Nat

namespace CleanPages

def maxRatio : Float := 0.75

def minRatio : Float := 0.03

def new (now : Nat) : CleanPages :=
  { writes := .manual 3 now
    firstWritten := 0
    initialRatio := minRatio
    currentRatio := 0.0
    targetRatio := 0.0
    markAllSpeed := 0
    threads := [] }

def completedPages (written synced : Nat) : Nat := wrap64 (written + synced) / 2

def completedShare (completed total : Nat) : Float :=
  if total = 0 then 0.0 else nearest completed / nearest total

def targetFor (initialRatio : Float) (completed total : Nat) : Float :=
  (completedShare completed total * (1.0 - initialRatio) + initialRatio) * maxRatio

section Divided

variable {m : Type → Type} [Monad m] (division : SpeedDivision m)

def markAllSpeedBy (memoryPages : Nat) (dirtyRatio : Float) (completed total writeSpeed : Nat) :
    m Nat :=
  if writeSpeed = 0 ∨ total = 0 ∨ dirtyRatio ≥ maxRatio then pure 0
  else if total - completed = 0 then pure largest64
  else do
    let clean := (maxRatio - dirtyRatio) * nearest memoryPages
    let seconds ← division.real (nearest (total - completed)) writeSpeed
    return truncate (clean / seconds)

def allowanceBy (aboveTarget : Bool) (markAllSpeed markSpeed : Nat) : m Float :=
  if 0 < markAllSpeed ∧ 0 < markSpeed ∧ markSpeed < markAllSpeed then
    division.real (0.1 * nearest markAllSpeed) markSpeed
  else pure (if aboveTarget then 0.0 else 0.1)

def delayIf (exceeded : Bool) (speed threads : Nat) (slowdown : Float) : m Nat :=
  if exceeded then pageDelayBy division speed threads slowdown else pure 0

/-- The time to park by the two limits. Near the maximum ratio the delays are three times as
long and there is no allowance for marking faster than the checkpoint writes. -/
def delayBy (dirtyRatio targetRatio : Float) (markAllSpeed threads markSpeed writeSpeed : Nat) :
    m Nat := do
  let aboveTarget : Bool := dirtyRatio > targetRatio
  let lowSpace : Bool := aboveTarget && dirtyRatio + 0.05 > maxRatio
  let slowdown : Float := if lowSpace then 3.0 else 1.0
  let share : Float := if lowSpace then 0.8 else 1.0
  let tooFast : Bool := 0 < markAllSpeed && nearest markSpeed > share * nearest markAllSpeed
  let allowance ← allowanceBy division aboveTarget markAllSpeed markSpeed
  let lead : Float := if lowSpace then 1.0 else 1.0 + allowance
  let outpaces : Bool := 0 < writeSpeed && nearest markSpeed > lead * nearest writeSpeed
  let byWrites ← delayIf division outpaces writeSpeed threads slowdown
  let byMarks ← delayIf division (aboveTarget && tooFast) markAllSpeed threads slowdown
  return max byWrites byMarks

def parkNanosBy (pages : CleanPages) (memoryPages : Nat) (dirtyRatio : Float)
    (completed total threads markSpeed writeSpeed : Nat) : m (Nat × CleanPages) := do
  let markAllSpeed ← markAllSpeedBy division memoryPages dirtyRatio completed total writeSpeed
  let targetRatio := targetFor pages.initialRatio completed total
  let nanos ← delayBy division dirtyRatio targetRatio markAllSpeed threads markSpeed writeSpeed
  return (nanos, { pages with markAllSpeed, targetRatio })

end Divided

def parkNanos (pages : CleanPages) (memoryPages : Nat) (dirtyRatio : Float)
    (completed total threads markSpeed writeSpeed : Nat) : Nat × CleanPages :=
  pages.parkNanosBy .plain memoryPages dirtyRatio completed total threads markSpeed writeSpeed

def clampRatio (ratio : Float) : Float :=
  if ratio < minRatio then minRatio else if ratio > 1.0 then 1.0 else ratio

def noteWriteStart (pages : CleanPages) (written : Nat) (dirtyRatio : Float) : CleanPages :=
  if 0 < written ∧ pages.firstWritten = 0 then
    { pages with firstWritten := written, initialRatio := clampRatio dirtyRatio }
  else pages

def noteThread (pages : CleanPages) (thread : Nat) : CleanPages :=
  { pages with
    threads := if thread ∈ pages.threads then pages.threads else thread :: pages.threads }

section Divided

variable {m : Type → Type} [Monad m] (division : SpeedDivision m)

/-- The time to park once the speeds of marking and of the checkpoint are known. While the size
of the checkpoint is not known, marking may just not outpace it. -/
def parkNanosAtBy (pages : CleanPages) (memory : PageMemory) (progress : ProgressSnapshot)
    (written markSpeed writeSpeed : Nat) : m (Nat × CleanPages) :=
  let threads := pages.threads.length
  if progress.total = 0 then do
    let nanos ← delayIf division (0 < writeSpeed && writeSpeed < markSpeed) writeSpeed threads 1.0
    return (nanos, pages)
  else
    let pages := { pages with currentRatio := memory.dirtyRatio }
    let pages := pages.noteWriteStart written memory.dirtyRatio
    if memory.dirtyRatio ≥ maxRatio then pure (0, pages)
    else pages.parkNanosBy division memory.totalPages memory.dirtyRatio
      (completedPages written progress.synced) (progress.total - progress.evicted) threads
      markSpeed writeSpeed

/-- Decides on a thread that is about to mark a page, and counts the mark. While no checkpoint
writes pages, throttling does not apply and nothing is counted. -/
def protectBy (pages : CleanPages) (marks : Meter) (memory : PageMemory)
    (progress : Option ProgressSnapshot) (thread now : Nat) : m (ParkTime × CleanPages × Meter) :=
  match progress with
  | none => pure (.noThrottling, pages, marks)
  | some progress =>
    match progress.written with
    | none => pure (.noThrottling, pages, marks)
    | some written => do
      let pages := pages.noteThread thread
      let (markSpeed, marks) := marks.readSpeed now
      let marks := marks.increment now
      let writes := pages.writes.setCounter (completedPages written progress.synced) now
      let (writeSpeed, writes) := writes.readSpeed now
      let (nanos, pages) ←
        { pages with writes }.parkNanosAtBy division memory progress written markSpeed writeSpeed
      return (.measured nanos, pages, marks)

end Divided

def parkNanosAt (pages : CleanPages) (memory : PageMemory) (progress : ProgressSnapshot)
    (written markSpeed writeSpeed : Nat) : Nat × CleanPages :=
  pages.parkNanosAtBy .plain memory progress written markSpeed writeSpeed

def protect (pages : CleanPages) (marks : Meter) (memory : PageMemory)
    (progress : Option ProgressSnapshot) (thread now : Nat) : ParkTime × CleanPages × Meter :=
  pages.protectBy .plain marks memory progress thread now

theorem protect_of_unwritten (pages : CleanPages) (marks : Meter) (memory : PageMemory)
    {progress : Option ProgressSnapshot} (unwritten : progress.bind (·.written) = none)
    (thread now : Nat) :
    pages.protect marks memory progress thread now = (.noThrottling, pages, marks) := by
  cases progress with
  | none => rfl
  | some progress =>
      have absent : progress.written = none := unwritten
      simp only [protect, protectBy, absent]
      rfl

theorem protect_of_writing (pages : CleanPages) (marks : Meter) (memory : PageMemory)
    {progress : ProgressSnapshot} {written : Nat} (writing : progress.written = some written)
    (thread now : Nat) :
    let noted := pages.noteThread thread
    let marked := marks.readSpeed now
    let completed :=
      (pages.writes.setCounter (completedPages written progress.synced) now).readSpeed now
    let parked := { noted with writes := completed.2 }.parkNanosAt memory progress written marked.1
      completed.1
    pages.protect marks memory (some progress) thread now =
      (.measured parked.1, parked.2, marked.2.increment now) := by
  simp only [protect, protectBy, writing]
  rfl

def reset (pages : CleanPages) (now : Nat) : CleanPages :=
  { pages with
    writes := pages.writes.restart 0 now
    initialRatio := minRatio
    firstWritten := 0 }

def close (pages : CleanPages) (now : Nat) : CleanPages :=
  { pages with writes := pages.writes.finish now, threads := [] }

def readWriteSpeed (pages : CleanPages) (now : Nat) : Nat × CleanPages :=
  let (speed, writes) := pages.writes.readSpeed now
  (speed, { pages with writes })

end CleanPages

end Durability
