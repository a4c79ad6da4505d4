import Durability.Log.Text
import Durability.Number.Text
import Durability.Throttle.Parking
import Durability.Throttle.Writers

/-! The throttle's state as text for diagnostics. -/

namespace Durability

def Interval.text (interval : Interval) : String :=
  "Interval \x7b start_nanos: " ++ toString interval.start ++
    ", end_nanos: " ++ optionText interval.stop ++
    ", counter_start: " ++ toString interval.initial ++
    ", counter: " ++ toString interval.counter ++
    ", sum: " ++ toString interval.sum ++
    ", samples: " ++ toString interval.samples ++ " \x7d"

def Meter.text (meter : Meter) : String :=
  "IntervalBasedMeasurement \x7b interval_nanos: " ++ toString meter.intervalNanos ++
    ", closed_intervals: " ++ toString meter.closed.length ++
    ", current: " ++ meter.current.text ++ " \x7d"

def registryText (parked : Nat) : String :=
  "ParkedThreads \x7b parked: " ++ toString parked ++ " \x7d"

def ParkingHost.text (host : ParkingHost) : String :=
  "CancellationToken \x7b cancelled: " ++ toString host.cancelled ++ " \x7d " ++
    registryText host.parked

def CleanPages.text (pages : CleanPages) : String :=
  "SpeedBasedCleanPagesProtectionThrottle \x7b target_dirty_ratio: " ++
    FloatFormat.diagnostic.render pages.targetRatio ++
    ", curr_dirty_ratio: " ++ FloatFormat.diagnostic.render pages.currentRatio ++
    ", speed_for_mark_all: " ++ toString pages.markAllSpeed ++
    ", threads: " ++ toString pages.threads.length ++ " \x7d"

def Policy.text (policy : Policy) (registered : Nat) : String :=
  match policy with
  | .speed throttle =>
    "PagesWriteSpeedBasedThrottle \x7b parked: " ++ registryText registered ++
      ", clean_pages: " ++ throttle.cleanPages.text ++ " \x7d"
  | .ratio throttle =>
    "PagesWriteThrottle \x7b throttle_only_pages_in_checkpoint: " ++
      toString throttle.onlyInCheckpoint ++ ", parked: " ++ registryText registered ++ " \x7d"

def Writers.text (writers : Writers) : String := writers.policy.text writers.registered

end Durability
