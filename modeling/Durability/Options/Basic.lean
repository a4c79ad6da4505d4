import Durability.Codec.Version

/-! The settings of the durability layer: how large the log archive may grow and how writers
are throttled. Every setting has a default, so that a configuration names only what it changes. -/

namespace Durability

structure WalOptions where
  /-- The size that the cleaner brings the archive below. -/
  minArchiveSize : Option Nat
  /-- The size at which old reservations are given up; absent for an unlimited archive. -/
  maxArchiveSize : Option Nat
  /-- The format version of new segments. -/
  version : Version
  deriving DecidableEq, Repr

namespace WalOptions

def defaultMaxArchiveSize : Nat := 1024 * 1024 * 1024

def default : WalOptions :=
  { minArchiveSize := none, maxArchiveSize := some defaultMaxArchiveSize, version := .v2 }

/-- The minimum in force: if none was set, half the maximum, and zero without one. -/
def effectiveMin (options : WalOptions) : Nat :=
  options.minArchiveSize.getD (options.maxArchiveSize.elim 0 (· / 2))

end WalOptions

inductive ThrottlingPolicy where
  | disabled
  | targetRatio
  | checkpointBufferOnly
  | speedBased
  deriving DecidableEq, Repr

structure ThrottleOptions where
  policy : ThrottlingPolicy
  /-- The share of the checkpoint buffer above which pages in the checkpoint are throttled. -/
  bufferFillThreshold : Float
  /-- The throttle weight above which a warning is due. -/
  warnThreshold : Float
  /-- The least time between two warnings, in milliseconds. -/
  warnMinDelayMillis : Nat
  /-- The first delay of a backoff, in nanoseconds. -/
  startingParkNanos : Nat
  /-- The growth of a backoff from one delay to the next. -/
  backoffRatio : Float

namespace ThrottleOptions

def default : ThrottleOptions :=
  { policy := .speedBased
    bufferFillThreshold := 2.0 / 3.0
    warnThreshold := 0.2
    warnMinDelayMillis := 10000
    startingParkNanos := 4000
    backoffRatio := 1.05 }

def warnMinDelayNanos (options : ThrottleOptions) : Nat := options.warnMinDelayMillis * 1000000

end ThrottleOptions

structure DurabilityOptions where
  wal : WalOptions
  throttle : ThrottleOptions

def DurabilityOptions.default : DurabilityOptions :=
  { wal := .default, throttle := .default }

end Durability
