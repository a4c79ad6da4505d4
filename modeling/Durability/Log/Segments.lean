import Durability.Error
import Durability.Log.Archive
import Durability.Log.Reservations

/-! The segments of one log: who reads them and how large they are. Growth of the archive beyond
its maximum takes reservations away, so the two are kept together. Whatever others are told in
the course of an operation goes to a journal in the order in which it happens. -/

namespace Durability

inductive Notice where
  /-- An observer is told that the lowest reserved segment changed. -/
  | lowestReserved (observer : Nat) (segment : Option Nat)
  /-- The archive reached its maximum and gave up its oldest segments. -/
  | forceReleased (max : Int) (givenUp : GivenUp)
  /-- A segment was removed from storage. -/
  | deleted (segment : Nat)
  /-- A segment could not be removed from storage. -/
  | deletionFailed (cause : Error)
  deriving DecidableEq, Repr

structure Segments where
  reservations : Reservations
  archive : Archive
  observers : Nat
  journal : List Notice
  deriving DecidableEq

namespace Segments

def ofOptions (options : WalOptions) (onOverflow : Overflow) : Segments :=
  { reservations := .empty onOverflow
    archive := .ofOptions options onOverflow
    observers := 0
    journal := [] }

def report (segments : Segments) (notices : List Notice) : Segments :=
  { segments with journal := segments.journal ++ notices }

def observe (segments : Segments) : Segments :=
  { segments with observers := segments.observers + 1 }

/-- Takes over new reservations and, if the lowest reserved segment changed, tells every
observer. -/
def withReservations (segments : Segments) (reservations : Reservations) : Segments :=
  let updated := { segments with reservations }
  if reservations.lowest? = segments.reservations.lowest? then updated
  else updated.report ((List.range segments.observers).map fun observer =>
    .lowestReserved observer reservations.lowest?)

def reserve (segments : Segments) (segment : Nat) : Outcome × Segments :=
  match segments.reservations.reserve segment with
  | (outcome, reservations) => (outcome, segments.withReservations reservations)

def release (segments : Segments) (segment : Nat) : Outcome × Segments :=
  match segments.reservations.release segment with
  | (outcome, reservations) => (outcome, segments.withReservations reservations)

def raiseFloor (segments : Segments) (segment : Nat) : Outcome × Segments :=
  match segments.reservations.raiseFloor segment with
  | (outcome, reservations) => (outcome, { segments with reservations })

def forceRelease (segments : Segments) (segment : Nat) : Segments :=
  segments.withReservations (segments.reservations.forceRelease segment)

/-- Records `change` bytes of `segment`. If the archive grew to its maximum, the oldest segments
lose their protection. -/
def addSize (segments : Segments) (segment : Nat) (change : Int) : Segments :=
  let archive := segments.archive.addSize segment change
  let updated := { segments with archive }
  match if 0 < change then archive.overflow else none with
  | none => updated
  | some givenUp =>
    let max := archive.window.elim 0 (·.max)
    (updated.report [.forceReleased max givenUp]).forceRelease givenUp.last

def resetSizes (segments : Segments) : Segments :=
  { segments with archive := segments.archive.resetSizes }

def interrupt (segments : Segments) : Segments :=
  { segments with archive := segments.archive.interrupt }

def resume (segments : Segments) : Segments :=
  { segments with archive := segments.archive.resume }

inductive Call where
  | observe
  | reserve (segment : Nat)
  | release (segment : Nat)
  | raiseFloor (segment : Nat)
  | forceRelease (segment : Nat)
  | addSize (segment : Nat) (change : Int)
  | resetSizes
  | interrupt
  | resume
  deriving DecidableEq, Repr

def answer (segments : Segments) : Call → Outcome × Segments
  | .observe => (.done, segments.observe)
  | .reserve segment => segments.reserve segment
  | .release segment => segments.release segment
  | .raiseFloor segment => segments.raiseFloor segment
  | .forceRelease segment => (.done, segments.forceRelease segment)
  | .addSize segment change => (.done, segments.addSize segment change)
  | .resetSizes => (.done, segments.resetSizes)
  | .interrupt => (.done, segments.interrupt)
  | .resume => (.done, segments.resume)

def call (segments : Segments) (call : Call) : Segments := (segments.answer call).2

def run (segments : Segments) (calls : List Call) : Segments := calls.foldl call segments

end Segments

end Durability
