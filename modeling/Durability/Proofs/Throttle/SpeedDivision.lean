import Durability.Throttle.SpeedBased

/-! Divisions by speeds. A throttle divides by the speeds of marking and of completing pages, and by
the speed at which the clean pages would last just to the end of the checkpoint, and any of these
may be zero. It makes no difference what a division by zero gives: the time to park and the weight
of throttling come out as they are, even where there is no such quotient. -/

namespace Durability

/-- A division that is as expected by every speed but zero. -/
structure SpeedDivision.Proper {m : Type → Type} [Monad m] (division : SpeedDivision m) : Prop where
  whole : ∀ number {speed}, speed ≠ 0 → division.whole number speed = pure (number / speed)
  real : ∀ number {speed}, speed ≠ 0 → division.real number speed = pure (number / nearest speed)

def SpeedDivision.checked : SpeedDivision Option :=
  { whole := fun number speed => if speed = 0 then none else some (number / speed)
    real := fun number speed => if speed = 0 then none else some (number / nearest speed) }

theorem SpeedDivision.Proper.checked : SpeedDivision.checked.Proper :=
  ⟨fun _ _ moves => if_neg moves, fun _ _ moves => if_neg moves⟩

section

variable {m : Type → Type} [Monad m] [LawfulMonad m] {division : SpeedDivision m}

theorem pageDelayBy_eq (proper : division.Proper) (speed threads : Nat) (coefficient : Float) :
    pageDelayBy division speed threads coefficient =
      pure (pageDelay speed threads coefficient) := by
  unfold pageDelay pageDelayBy
  split
  · rfl
  · next known =>
      rw [proper.whole _ (not_or.mp known).2, pure_bind]
      rfl

namespace CleanPages

theorem markAllSpeedBy_eq (proper : division.Proper) (memoryPages : Nat) (dirtyRatio : Float)
    (completed total writeSpeed : Nat) :
    markAllSpeedBy division memoryPages dirtyRatio completed total writeSpeed =
      pure (markAllSpeedBy .plain memoryPages dirtyRatio completed total writeSpeed).run := by
  unfold markAllSpeedBy
  split
  · rfl
  · next known =>
      split
      · rfl
      · rw [proper.real _ (not_or.mp known).1, pure_bind]
        rfl

omit [LawfulMonad m] in
theorem allowanceBy_eq (proper : division.Proper) (aboveTarget : Bool)
    (markAllSpeed markSpeed : Nat) :
    allowanceBy division aboveTarget markAllSpeed markSpeed =
      pure (allowanceBy .plain aboveTarget markAllSpeed markSpeed).run := by
  unfold allowanceBy
  split
  · next slower => exact proper.real _ (Nat.ne_zero_of_lt slower.2.1)
  · rfl

theorem delayIf_eq (proper : division.Proper) (exceeded : Bool) (speed threads : Nat)
    (slowdown : Float) :
    delayIf division exceeded speed threads slowdown =
      pure (delayIf .plain exceeded speed threads slowdown).run := by
  unfold delayIf
  split
  · exact pageDelayBy_eq proper speed threads slowdown
  · rfl

theorem delayBy_eq (proper : division.Proper) (dirtyRatio targetRatio : Float)
    (markAllSpeed threads markSpeed writeSpeed : Nat) :
    delayBy division dirtyRatio targetRatio markAllSpeed threads markSpeed writeSpeed =
      pure
        (delayBy .plain dirtyRatio targetRatio markAllSpeed threads markSpeed writeSpeed).run := by
  simp only [delayBy, allowanceBy_eq proper, delayIf_eq proper, pure_bind]
  rfl

theorem parkNanosBy_eq (proper : division.Proper) (pages : CleanPages) (memoryPages : Nat)
    (dirtyRatio : Float) (completed total threads markSpeed writeSpeed : Nat) :
    pages.parkNanosBy division memoryPages dirtyRatio completed total threads markSpeed writeSpeed =
      pure (pages.parkNanos memoryPages dirtyRatio completed total threads markSpeed
        writeSpeed) := by
  simp only [parkNanosBy, markAllSpeedBy_eq proper, delayBy_eq proper, pure_bind]
  rfl

theorem parkNanosAtBy_eq (proper : division.Proper) (pages : CleanPages) (memory : PageMemory)
    (progress : ProgressSnapshot) (written markSpeed writeSpeed : Nat) :
    pages.parkNanosAtBy division memory progress written markSpeed writeSpeed =
      pure (pages.parkNanosAt memory progress written markSpeed writeSpeed) := by
  simp only [parkNanosAtBy, delayIf_eq proper, parkNanosBy_eq proper, ← apply_ite pure, pure_bind]
  rfl

theorem protectBy_eq (proper : division.Proper) (pages : CleanPages) (marks : Meter)
    (memory : PageMemory) (progress : Option ProgressSnapshot) (thread now : Nat) :
    pages.protectBy division marks memory progress thread now =
      pure (pages.protect marks memory progress thread now) := by
  cases progress with
  | none => rfl
  | some progress =>
      cases writing : progress.written with
      | none => simp only [protectBy, protect, writing]; rfl
      | some written =>
          simp only [protectBy, protect, writing, parkNanosAtBy_eq proper, pure_bind]
          rfl

end CleanPages

namespace SpeedThrottle

theorem decideBy_eq (proper : division.Proper) (throttle : SpeedThrottle) (memory : PageMemory)
    (progress : Option ProgressSnapshot) (inCheckpoint : Bool) (thread now : Nat) :
    throttle.decideBy division memory progress inCheckpoint thread now =
      pure (throttle.decide memory progress inCheckpoint thread now) := by
  simp only [decideBy, decide, CleanPages.protectBy_eq proper, pure_bind, ← apply_ite pure]
  rfl

theorem readWeightBy_eq (proper : division.Proper) (throttle : SpeedThrottle) (now : Nat) :
    throttle.readWeightBy division now = pure (throttle.readWeight now) := by
  simp only [readWeightBy, readWeight, pageDelayBy_eq proper, pure_bind, ← apply_ite pure]
  rfl

def decide? (throttle : SpeedThrottle) (memory : PageMemory)
    (progress : Option ProgressSnapshot) (inCheckpoint : Bool) (thread now : Nat) :
    Option (ParkTime × SpeedThrottle) :=
  throttle.decideBy .checked memory progress inCheckpoint thread now

def readWeight? (throttle : SpeedThrottle) (now : Nat) : Option (Float × SpeedThrottle) :=
  throttle.readWeightBy .checked now

end SpeedThrottle

end

end Durability
