import Durability.Log.Truncation
import Durability.Proofs.Log.ReservationStore

/-! A log that several clients use at once. Calls are made one at a time, in any order: each turn
is a call of some client or the next call of one of the truncations in progress. Whatever a turn
does to the reservations it does by calls to their store, so that what holds for every sequence
of those calls holds for every run of the log. -/

namespace Durability

def Segments.givenUp? (segments : Segments) (segment : Nat) (change : Int) : Option GivenUp :=
  if 0 < change then (segments.archive.addSize segment change).overflow else none

/-- The calls to the store of reservations that a client's call consists of. A change of the
archive's size makes one if it has the oldest segments given up. -/
def Segments.storeCalls (segments : Segments) : Segments.Call → List Reservations.Call
  | .reserve segment => [.reserve segment]
  | .release segment => [.release segment]
  | .raiseFloor segment => [.raiseFloor segment]
  | .forceRelease segment => [.forceRelease segment]
  | .addSize segment change =>
    (segments.givenUp? segment change).toList.map fun givenUp => .forceRelease givenUp.last
  | .observe | .resetSizes | .interrupt | .resume => []

namespace Segments

@[simp] theorem withReservations_reservations (segments : Segments) (reservations : Reservations) :
    (segments.withReservations reservations).reservations = reservations := by
  unfold withReservations
  split <;> rfl

theorem addSize_of_none {segments : Segments} {segment : Nat} {change : Int}
    (unforced : segments.givenUp? segment change = none) :
    segments.addSize segment change =
      { segments with archive := segments.archive.addSize segment change } := by
  rw [givenUp?] at unforced
  simp only [addSize, unforced]

theorem addSize_of_givenUp {segments : Segments} {segment : Nat} {change : Int} {givenUp : GivenUp}
    (forced : segments.givenUp? segment change = some givenUp) :
    segments.addSize segment change =
      ({ segments with archive := segments.archive.addSize segment change }.report
        [.forceReleased (segments.archive.window.elim 0 (·.max)) givenUp]).forceRelease
          givenUp.last := by
  rw [givenUp?] at forced
  simp only [addSize, forced]
  rfl

theorem addSize_reservations (segments : Segments) (segment : Nat) (change : Int) :
    (segments.addSize segment change).reservations =
      segments.reservations.run (segments.storeCalls (.addSize segment change)) := by
  cases answer : segments.givenUp? segment change with
  | none =>
      rw [addSize_of_none answer, storeCalls, answer]
      rfl
  | some givenUp =>
      rw [addSize_of_givenUp answer, storeCalls, answer]
      exact withReservations_reservations _ _

theorem call_reservations (segments : Segments) (call : Call) :
    (segments.call call).reservations =
      segments.reservations.run (segments.storeCalls call) := by
  cases call with
  | reserve segment => exact withReservations_reservations _ _
  | release segment => exact withReservations_reservations _ _
  | raiseFloor segment => rfl
  | forceRelease segment => exact withReservations_reservations _ _
  | addSize segment change => exact segments.addSize_reservations segment change
  | observe | resetSizes | interrupt | resume => rfl

theorem raiseFloor_of_protects {segments : Segments} {segment : Nat}
    (protects : segments.reservations.protects segment = true) :
    segments.raiseFloor segment = (.refused, segments) := by
  rw [raiseFloor, Reservations.raiseFloor_of_protects protects]

def floored (segments : Segments) (segment : Nat) : Segments :=
  { segments with
    reservations :=
      { segments.reservations with
        floor := Reservations.raised segments.reservations.floor segment } }

theorem raiseFloor_of_unreserved {segments : Segments} {segment : Nat}
    (above : ∀ entry ∈ segments.reservations.counts.entries, segment < entry.1) :
    segments.raiseFloor segment = (.done, segments.floored segment) := by
  rw [raiseFloor, Reservations.raiseFloor_of_unreserved above]
  rfl

theorem floored_floored (segments : Segments) (segment : Nat) :
    (segments.floored segment).floored segment = segments.floored segment := by
  have once := Reservations.raised_raised segments.reservations.floor (Nat.le_refl segment)
  simp only [floored, once]

end Segments

namespace Truncation

def storeCalls (segments : Segments) : Truncation → List Reservations.Call
  | .protecting _ segment _ => [.raiseFloor segment]
  | .accounting _ segment size => segments.storeCalls (.addSize segment (-size))
  | .start _ | .listing _ _ | .checking _ | .deleting _ _ _ | .done _ => []

theorem step_protecting (storage : Storage) (segments : Segments) (progress : Progress)
    (segment : Nat) (size : Int) :
    (step storage segments (.protecting progress segment size)).2 =
      (segments.raiseFloor segment).2 := by
  simp only [step]
  split
  next after answer => rw [answer]
  next outcome after declined answer => rw [answer]

theorem step_reservations (storage : Storage) (segments : Segments) (truncation : Truncation) :
    (step storage segments truncation).2.reservations =
      segments.reservations.run (truncation.storeCalls segments) := by
  cases truncation with
  | start threshold =>
      simp only [step]
      split <;> rfl
  | listing threshold checkpoint => rfl
  | checking progress =>
      simp only [step]
      split
      · rfl
      · split <;> rfl
  | protecting progress segment size =>
      have left : (segments.raiseFloor segment).2.reservations =
          segments.reservations.run [.raiseFloor segment] := rfl
      rw [step_protecting]
      exact left
  | deleting progress segment size =>
      simp only [step]
      split <;> rfl
  | accounting progress segment size => exact segments.addSize_reservations segment (-size)
  | done result => rfl

end Truncation

/-- A log in use: its segments, and every truncation begun so far at the call it makes next. -/
structure SharedLog where
  segments : Segments
  truncations : List Truncation

namespace SharedLog

def ofOptions (options : WalOptions) (onOverflow : Overflow) : SharedLog :=
  { segments := .ofOptions options onOverflow, truncations := [] }

inductive Turn where
  /-- A client makes a call. -/
  | call (call : Segments.Call)
  /-- A truncation begins; truncations are numbered from zero. -/
  | truncate (threshold : Int)
  /-- A truncation makes its next call, and finds the storage as it is then. -/
  | advance (number : Nat) (storage : Storage)

def turn (log : SharedLog) : Turn → SharedLog
  | .call call => { log with segments := log.segments.call call }
  | .truncate threshold => { log with truncations := log.truncations ++ [.start threshold] }
  | .advance number storage =>
    match log.truncations[number]? with
    | none => log
    | some truncation =>
      let next := truncation.step storage log.segments
      { segments := next.2, truncations := log.truncations.set number next.1 }

def run (log : SharedLog) (turns : List Turn) : SharedLog := turns.foldl turn log

theorem run_append (log : SharedLog) (first second : List Turn) :
    log.run (first ++ second) = (log.run first).run second :=
  List.foldl_append

/-- What holds at the beginning of a run and is kept by every turn holds at its end. The property
may speak about the turns made so far. -/
theorem run_induction {holds : List Turn → SharedLog → Prop} (log : SharedLog)
    (start : holds [] log)
    (step : ∀ turns turn, holds turns (log.run turns) →
      holds (turns ++ [turn]) ((log.run turns).turn turn)) (turns : List Turn) :
    holds turns (log.run turns) := by
  -- The induction is on the turns still to come, behind any that were made before.
  suffices goesOn : ∀ before, holds before (log.run before) →
      holds (before ++ turns) (log.run (before ++ turns)) from goesOn [] start
  induction turns with
  | nil =>
      intro before reached
      simpa only [List.append_nil] using reached
  | cons turn turns ih =>
      intro before reached
      have next := step before turn reached
      have moved : (log.run before).turn turn = log.run (before ++ [turn]) :=
        (log.run_append before [turn]).symm
      rw [moved] at next
      simpa only [List.append_assoc, List.singleton_append] using ih (before ++ [turn]) next

def storeCalls (log : SharedLog) : Turn → List Reservations.Call
  | .call call => log.segments.storeCalls call
  | .truncate _ => []
  | .advance number _ =>
    match log.truncations[number]? with
    | none => []
    | some truncation => truncation.storeCalls log.segments

/-- The calls to the store of reservations in the course of a run, by whomever they are made. -/
def storeHistory (log : SharedLog) : List Turn → List Reservations.Call
  | [] => []
  | turn :: turns => log.storeCalls turn ++ (log.turn turn).storeHistory turns

theorem turn_reservations (log : SharedLog) (turn : Turn) :
    (log.turn turn).segments.reservations =
      log.segments.reservations.run (log.storeCalls turn) := by
  cases turn with
  | call call => exact log.segments.call_reservations call
  | truncate threshold => rfl
  | advance number storage =>
      simp only [SharedLog.turn, storeCalls]
      cases log.truncations[number]? with
      | none => rfl
      | some truncation => exact truncation.step_reservations storage log.segments

theorem run_reservations (log : SharedLog) (turns : List Turn) :
    (log.run turns).segments.reservations =
      log.segments.reservations.run (log.storeHistory turns) := by
  induction turns generalizing log with
  | nil => rfl
  | cons turn turns ih =>
      change ((log.turn turn).run turns).segments.reservations = _
      rw [ih, turn_reservations, storeHistory, Reservations.run, Reservations.run,
        Reservations.run, List.foldl_append]

theorem wellKept_run (options : WalOptions) (onOverflow : Overflow) (turns : List Turn) :
    ((ofOptions options onOverflow).run turns).segments.reservations.WellKept := by
  rw [run_reservations]
  exact (Reservations.wellKept_empty onOverflow).run _

theorem floor_le_run_floor (log : SharedLog) (turns : List Turn) (floor : Nat)
    (isFloor : floor ∈ log.segments.reservations.floor) :
    ∃ later ∈ (log.run turns).segments.reservations.floor, floor ≤ later := by
  rw [run_reservations]
  exact Reservations.floor_le_run_floor _ _ floor isFloor

end SharedLog

end Durability
