import Durability.Log.Truncation

/-! The archive cleaner: a background caller that waits until the archive has reached its minimum
and then truncates it. While that deletes something it goes on at once; otherwise it pauses. It
ends when it is stopped or when its wait for the size is called off. -/

namespace Durability

inductive Cleaner.Phase where
  /-- Ready to begin the next pass. -/
  | ready
  /-- Blocked until the archive has its minimum size; runs again when signalled anew. -/
  | awaitingSize (seen : Nat)
  /-- Pausing until a time. -/
  | pausing (deadline : Nat)
  | ended
  deriving DecidableEq, Repr

/-- A cleaner: the size it waits for and brings the archive below, its pause in nanoseconds,
whether it was told to stop, and where it is. -/
structure Cleaner where
  threshold : Int
  pause : Nat
  stopped : Bool
  phase : Cleaner.Phase
  deriving DecidableEq, Repr

namespace Cleaner

def defaultPause : Nat := 100 * 1000000

def new (archive : Archive) (pause : Nat) : Except Error Cleaner :=
  match archive.window with
  | none => .error (.excess .unboundedArchive)
  | some window => .ok { threshold := window.min, pause, stopped := false, phase := .ready }

def canRun (cleaner : Cleaner) (clock : Nat) (segments : Segments) : Bool :=
  match cleaner.phase with
  | .ready => true
  | .awaitingSize seen => seen ≠ segments.archive.signals
  | .pausing deadline => cleaner.stopped || deadline ≤ clock
  | .ended => false

def truncate (cleaner : Cleaner) (clock : Nat) (storage : Storage) (segments : Segments) :
    Cleaner × Segments :=
  let pausing := { cleaner with
    phase := if cleaner.stopped then .ended else .pausing (clock + cleaner.pause) }
  match storage.truncate cleaner.threshold segments with
  | (.ok 0, segments) => (pausing, segments)
  | (.ok (_ + 1), segments) => ({ cleaner with phase := .ready }, segments)
  | (.error cause, segments) => (pausing, segments.report [.deletionFailed cause])

def await (cleaner : Cleaner) (clock : Nat) (storage : Storage) (segments : Segments) :
    Cleaner × Segments :=
  match segments.archive.look cleaner.threshold with
  | .lacking => ({ cleaner with phase := .awaitingSize segments.archive.signals }, segments)
  | .calledOff | .broken => ({ cleaner with phase := .ended }, segments)
  | .reached =>
    if cleaner.stopped then ({ cleaner with phase := .ended }, segments)
    else cleaner.truncate clock storage segments

def advance (cleaner : Cleaner) (clock : Nat) (storage : Storage) (segments : Segments) :
    Cleaner × Segments :=
  match cleaner.phase with
  | .ready =>
    if cleaner.stopped then ({ cleaner with phase := .ended }, segments)
    else cleaner.await clock storage segments
  | .awaitingSize _ => cleaner.await clock storage segments
  | .pausing _ =>
    ({ cleaner with phase := if cleaner.stopped then .ended else .ready }, segments)
  | .ended => (cleaner, segments)

def runFor (clock : Nat) (storage : Storage) :
    (passes : Nat) → Cleaner → Segments → Cleaner × Segments
  | 0, cleaner, segments => (cleaner, segments)
  | passes + 1, cleaner, segments =>
    if cleaner.canRun clock segments then
      let next := cleaner.advance clock storage segments
      runFor clock storage passes next.1 next.2
    else (cleaner, segments)

/-- Goes on until the cleaner is blocked or has ended. Every pass but the last deletes a tracked
segment, and leaving a pause takes one advance more. -/
def run (cleaner : Cleaner) (clock : Nat) (storage : Storage) (segments : Segments) :
    Cleaner × Segments :=
  runFor clock storage (segments.archive.sizes.size + 2) cleaner segments

end Cleaner

end Durability
