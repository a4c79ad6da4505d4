import Durability.Throttle.CleanPages

/-! The protection of clean pages by itself, with a meter of the marks it is asked about. -/

namespace Durability

structure Estimator where
  pages : CleanPages
  marks : Meter

namespace Estimator

def new (intervalNanos intervals now : Nat) : Estimator :=
  { pages := .new now, marks := .new intervalNanos intervals now }

def protect (estimator : Estimator) (memory : PageMemory) (progress : Option ProgressSnapshot)
    (thread now : Nat) : ParkTime × Estimator :=
  let (time, pages, marks) := estimator.pages.protect estimator.marks memory progress thread now
  (time, { pages, marks })

def countMark (estimator : Estimator) (now : Nat) : Estimator :=
  { estimator with marks := estimator.marks.increment now }

def reset (estimator : Estimator) (now : Nat) : Estimator :=
  { estimator with pages := estimator.pages.reset now }

def close (estimator : Estimator) (now : Nat) : Estimator :=
  { estimator with pages := estimator.pages.close now }

end Estimator

end Durability
