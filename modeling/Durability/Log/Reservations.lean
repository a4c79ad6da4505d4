import Durability.KeyMap
import Durability.Number.Overflow

/-! Reservations of log segments. A reader reserves a segment before it reads it, and while any
segment at or below a segment is reserved, that segment is protected from deletion. Below a
floor, which only rises, no reservation is granted any more. -/

namespace Durability

/-- The outstanding reservations of each segment, and the floor at or below which new ones
are refused. -/
structure Reservations where
  counts : KeyMap Nat UInt32
  floor : Option Nat
  /-- What becomes of a reservation beyond the largest count. -/
  onOverflow : Overflow
  deriving DecidableEq

inductive Outcome where
  | done
  | refused
  /-- The call was broken off: it did not keep to its contract, or a count was too large. -/
  | failed
  deriving DecidableEq, Repr

namespace Reservations

def empty (onOverflow : Overflow) : Reservations := { counts := .empty, floor := none, onOverflow }

def lowest? (reservations : Reservations) : Option Nat :=
  reservations.counts.least?.map (·.1)

def uses (reservations : Reservations) (segment : Nat) : UInt32 :=
  (reservations.counts.find? segment).getD 0

def count (reservations : Reservations) (segment : Nat) : Nat :=
  (reservations.uses segment).toNat

def protects (reservations : Reservations) (segment : Nat) : Bool :=
  reservations.counts.entries.any fun entry => entry.1 ≤ segment

def grants (reservations : Reservations) (segment : Nat) : Bool :=
  reservations.floor.all (· < segment)

def reserve (reservations : Reservations) (segment : Nat) : Outcome × Reservations :=
  if reservations.grants segment then
    match reservations.onOverflow.next? (reservations.uses segment) with
    | none => (.failed, reservations)
    | some uses =>
      (.done, { reservations with counts := reservations.counts.insert segment uses })
  else (.refused, reservations)

def release (reservations : Reservations) (segment : Nat) : Outcome × Reservations :=
  let uses := reservations.uses segment
  if uses = 0 then (.failed, reservations)
  else if uses = 1 then
    (.done, { reservations with counts := reservations.counts.erase segment })
  else (.done, { reservations with counts := reservations.counts.insert segment (uses - 1) })

def raised (floor : Option Nat) (segment : Nat) : Option Nat :=
  some (floor.elim segment (max · segment))

def raiseFloor (reservations : Reservations) (segment : Nat) : Outcome × Reservations :=
  if reservations.protects segment then (.refused, reservations)
  else (.done, { reservations with floor := raised reservations.floor segment })

def forceRelease (reservations : Reservations) (segment : Nat) : Reservations :=
  { reservations with
    counts := reservations.counts.dropThrough segment
    floor := raised reservations.floor segment }

def unreservedText (segment : Nat) : String :=
  "release of unreserved wal segment: cur=None, abs_idx=" ++ toString segment

end Reservations

end Durability
