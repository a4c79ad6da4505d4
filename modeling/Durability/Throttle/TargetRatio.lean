import Durability.Options.Basic
import Durability.Throttle.Backoff
import Durability.Throttle.Memory
import Durability.Throttle.ParkTime
import Durability.Throttle.Progress

/-! The throttle by dirty ratio. A writer of a page in the checkpoint parks while the checkpoint
buffer is too full; any writer parks while the dirty ratio is above a threshold that grows with
the checkpoint's progress, unless only pages in the checkpoint are throttled. Delays grow with
every attempt, separately for pages in the checkpoint and others. -/

namespace Durability

structure RatioThrottle where
  onlyInCheckpoint : Bool
  inCheckpoint : Backoff
  others : Backoff
  bufferFillThreshold : Float

namespace RatioThrottle

def new (onlyInCheckpoint : Bool) (options : ThrottleOptions) : RatioThrottle :=
  { onlyInCheckpoint
    inCheckpoint := .new options.startingParkNanos options.backoffRatio
    others := .new options.startingParkNanos options.backoffRatio
    bufferFillThreshold := options.bufferFillThreshold }

def bufferOverflows (throttle : RatioThrottle) (memory : PageMemory) : Bool :=
  memory.bufferOverflows throttle.bufferFillThreshold

def ratioExceeded? (memory : PageMemory) (progress : Option ProgressSnapshot) : Option Bool := do
  let progress ← progress
  let written ← progress.written
  pure (memory.dirtyRatio > dirtyRatioThreshold written progress.total)

def exceeds? (throttle : RatioThrottle) (memory : PageMemory)
    (progress : Option ProgressSnapshot) (inCheckpoint : Bool) : Option Bool :=
  if inCheckpoint && throttle.bufferOverflows memory then some true
  else if throttle.onlyInCheckpoint then some false
  else ratioExceeded? memory progress

def backoff (throttle : RatioThrottle) (inCheckpoint : Bool) : Backoff :=
  if inCheckpoint then throttle.inCheckpoint else throttle.others

def withBackoff (throttle : RatioThrottle) (inCheckpoint : Bool) (backoff : Backoff) :
    RatioThrottle :=
  if inCheckpoint then { throttle with inCheckpoint := backoff }
  else { throttle with others := backoff }

def finish (throttle : RatioThrottle) : RatioThrottle :=
  { throttle with inCheckpoint := throttle.inCheckpoint.reset, others := throttle.others.reset }

def relax (throttle : RatioThrottle) : RatioThrottle :=
  { throttle with inCheckpoint := throttle.inCheckpoint.reset }

end RatioThrottle

end Durability
