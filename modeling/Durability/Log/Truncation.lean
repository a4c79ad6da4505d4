import Durability.Log.Segments

/-! Deleting the oldest segments until the archive is below a threshold. A truncation is a
sequence of calls to the log and its storage, each of them made in one piece; other clients may
make calls in between. `step` is one such call and `truncate` makes all of them undisturbed. -/

namespace Durability

/-- The files of the archived segments: the segment of the last checkpoint, below which segments
may be deleted, and for which segments a deletion fails. -/
structure Storage where
  checkpoint : Option Nat
  failure : Nat → Option Error

namespace Storage

def empty : Storage := { checkpoint := none, failure := fun _ => none }

def failingAt (segment : Nat) (cause : Error) (other : Nat) : Option Error :=
  if other = segment then some cause else none

end Storage

namespace Truncation

structure Progress where
  threshold : Int
  checkpoint : Nat
  deleted : Nat
  remaining : List (Nat × Int)
  deriving DecidableEq, Repr

end Truncation

inductive Truncation where
  /-- Asks for the segment of the last checkpoint. -/
  | start (threshold : Int)
  /-- Lists the tracked segments with their sizes. -/
  | listing (threshold : Int) (checkpoint : Nat)
  /-- Asks for the size of the archive, before each segment. -/
  | checking (progress : Truncation.Progress)
  /-- Puts the segment below the reservation floor. -/
  | protecting (progress : Truncation.Progress) (segment : Nat) (size : Int)
  /-- Removes the segment from storage. -/
  | deleting (progress : Truncation.Progress) (segment : Nat) (size : Int)
  /-- Takes the segment's size off the archive. -/
  | accounting (progress : Truncation.Progress) (segment : Nat) (size : Int)
  /-- Has ended with the number of deleted segments or the failure of a deletion. -/
  | done (result : Except Error Nat)

namespace Truncation

def step (storage : Storage) (segments : Segments) : Truncation → Truncation × Segments
  | start threshold =>
    match storage.checkpoint with
    | none => (done (.ok 0), segments)
    | some checkpoint => (listing threshold checkpoint, segments)
  | listing threshold checkpoint =>
    (checking { threshold, checkpoint, deleted := 0, remaining := segments.archive.segments },
      segments)
  | checking progress =>
    match progress.remaining with
    | [] => (done (.ok progress.deleted), segments)
    | (segment, size) :: rest =>
      if segments.archive.total < progress.threshold ∨ progress.checkpoint ≤ segment then
        (done (.ok progress.deleted), segments)
      else (protecting { progress with remaining := rest } segment size, segments)
  | protecting progress segment size =>
    match segments.raiseFloor segment with
    | (.done, segments) => (deleting progress segment size, segments)
    | (_, segments) => (done (.ok progress.deleted), segments)
  | deleting progress segment size =>
    match storage.failure segment with
    | some cause => (done (.error cause), segments)
    | none => (accounting progress segment size, segments.report [.deleted segment])
  | accounting progress segment size =>
    (checking { progress with deleted := progress.deleted + 1 },
      segments.addSize segment (-size))
  | done result => (done result, segments)

/-- How far a truncation is from its end: first the calls before the listing, then those that
the listed segments can still take. -/
def distance : Truncation → Nat × Nat
  | start _ => (2, 0)
  | listing _ _ => (1, 0)
  | checking progress => (0, 4 * progress.remaining.length + 1)
  | protecting progress _ _ => (0, 4 * progress.remaining.length + 4)
  | deleting progress _ _ => (0, 4 * progress.remaining.length + 3)
  | accounting progress _ _ => (0, 4 * progress.remaining.length + 2)
  | done _ => (0, 0)

def result? : Truncation → Option (Except Error Nat)
  | done result => some result
  | _ => none

theorem step_distance (storage : Storage) (segments : Segments) (truncation : Truncation)
    (running : truncation.result? = none) :
    Prod.Lex (· < ·) (· < ·) (step storage segments truncation).1.distance
      truncation.distance := by
  cases truncation with
  | start threshold =>
      cases checkpoint : storage.checkpoint <;>
        simp [step, checkpoint, distance, Prod.lex_def]
  | listing threshold checkpoint => simp [step, distance, Prod.lex_def]
  | checking progress =>
      cases remaining : progress.remaining with
      | nil => simp [step, remaining, distance, Prod.lex_def]
      | cons head rest =>
          by_cases ends : segments.archive.total < progress.threshold ∨
              progress.checkpoint ≤ head.1
          · simp [step, remaining, ends, distance, Prod.lex_def]
          · simp [step, remaining, ends, distance, Prod.lex_def]
            omega
  | protecting progress segment size =>
      simp only [step]
      split <;> simp [distance, Prod.lex_def]
  | deleting progress segment size =>
      cases failure : storage.failure segment <;>
        simp [step, failure, distance, Prod.lex_def]
  | accounting progress segment size => simp [step, distance, Prod.lex_def]
  | done result => simp [result?] at running

def run (storage : Storage) (segments : Segments) (truncation : Truncation) :
    Except Error Nat × Segments :=
  match _running : truncation.result? with
  | some result => (result, segments)
  | none =>
    let next := step storage segments truncation
    run storage next.2 next.1
termination_by truncation.distance
decreasing_by exact step_distance storage segments truncation _running

end Truncation

/-- Deletes the oldest segments below the checkpoint until the archive is below `threshold` or
a segment is still protected. Gives the number of deleted segments, or the failure of a
deletion. -/
def Storage.truncate (storage : Storage) (threshold : Int) (segments : Segments) :
    Except Error Nat × Segments :=
  Truncation.run storage segments (.start threshold)

end Durability
