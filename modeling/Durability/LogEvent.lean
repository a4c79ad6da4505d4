import Durability.Log.Segments
import Durability.Throttle.Policy

/-! The events that go to the diagnostic log: their level, name and fields. -/

namespace Durability

inductive EventLevel where
  | info
  | warn
  deriving DecidableEq, Repr

inductive EventValue where
  | number (value : Int)
  | float (value : Float)
  | text (value : String)

structure LogEvent where
  level : EventLevel
  name : String
  fields : List (String × EventValue)

namespace EventValue

def ofNat (value : Nat) : EventValue := number value

end EventValue

/-- The event of a notice about segments. What observers are told and which segments were deleted
is not logged. -/
def Notice.event? : Notice → Option LogEvent
  | forceReleased max givenUp => some
    { level := .info
      name := "wal.archive.force_release"
      fields := [("max_wal_archive_size", .number max),
        ("released_segment_cnt", .ofNat givenUp.count),
        ("last_released_segment_idx", .ofNat givenUp.last)] }
  | deletionFailed cause => some
    { level := .warn
      name := "wal.cleaner.delete_failed"
      fields := [("error", .text cause.message)] }
  | lowestReserved _ _ | deleted _ => none

def Pressure.fields (pressure : Pressure) : List (String × EventValue) :=
  [("weight", .float pressure.weight),
   ("mark_dirty_speed", .ofNat pressure.markSpeed),
   ("cp_write_speed", .ofNat pressure.writeSpeed),
   ("est_ideal_mark_dirty", .ofNat pressure.markAllSpeed),
   ("curr_dirty", .float pressure.currentRatio),
   ("target_dirty", .float pressure.targetRatio),
   ("avg_park_time_ns", .ofNat pressure.averagePark),
   ("total", .ofNat pressure.progress.total),
   ("evicted", .ofNat pressure.progress.evicted),
   ("written", .ofNat pressure.progress.writtenOrZero),
   ("synced", .ofNat pressure.progress.synced),
   ("cp_buf_used", .ofNat pressure.bufferCount),
   ("cp_buf_total", .ofNat pressure.bufferSize)]

def ThrottleNotice.event : ThrottleNotice → LogEvent
  | longPark millis =>
    { level := .warn, name := "throttle.park.long", fields := [("timeout_ms", .ofNat millis)] }
  | pressure told => { level := .warn, name := "throttle.pressure", fields := told.fields }

end Durability
