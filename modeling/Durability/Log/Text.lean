import Durability.Log.LogHost

/-! The log's state as one line of text for diagnostics. -/

namespace Durability

def optionText (value : Option Nat) : String :=
  match value with
  | none => "None"
  | some number => "Some(" ++ toString number ++ ")"

def Reservations.text (reservations : Reservations) : String :=
  let counts := reservations.counts.entries.map fun entry =>
    toString entry.1 ++ ": " ++ toString entry.2
  "SegmentReservationStore \x7b reserved: \x7b" ++ ", ".intercalate counts ++
    "\x7d, min_reserve_idx: " ++ optionText reservations.floor ++ " \x7d"

def Segments.text (segments : Segments) : String :=
  "SegmentAware \x7b reservations: " ++ segments.reservations.text ++
    ", archive_size: " ++ toString segments.archive.total ++
    ", unlimited: " ++ toString segments.archive.isUnlimited ++ " \x7d"

/-- A cleaner counts as running until it is stopped, even if it has ended by itself. -/
def LogHost.text (host : LogHost) : String :=
  host.segments.text ++
    if host.cleaner?.isSome then " Some(SegmentCleaner \x7b running: true \x7d)" else " None"

end Durability
