import Durability.Number.Text
import Durability.Options.Basic

/-! Which settings go together. A backoff has to grow, thresholds are shares of a whole, and the
least size of the archive may not exceed the greatest. -/

namespace Durability

inductive Inconsistency where
  | backoffDoesNotGrow (ratio : Float)
  | notAShare (setting : String) (value : Float)
  | minimumAboveMaximum (minimum maximum : Nat)

def Inconsistency.message : Inconsistency → String
  | backoffDoesNotGrow ratio =>
      "backoff_ratio must be greater than 1, got " ++ FloatFormat.plain.render ratio
  | notAShare setting value =>
      setting ++ " must be in (0, 1], got " ++ FloatFormat.plain.render value
  | minimumAboveMaximum minimum maximum =>
      "min_wal_archive_size (" ++ toString minimum ++ ") exceeds max_wal_archive_size (" ++
        toString maximum ++ ")"

def isShare (value : Float) : Bool := 0.0 < value && value ≤ 1.0

def WalOptions.Ordered (options : WalOptions) : Prop :=
  ∀ minimum ∈ options.minArchiveSize, ∀ maximum ∈ options.maxArchiveSize, minimum ≤ maximum

def WalOptions.inconsistency? (options : WalOptions) : Option Inconsistency :=
  match options.minArchiveSize, options.maxArchiveSize with
  | some minimum, some maximum =>
    if minimum ≤ maximum then none else some (.minimumAboveMaximum minimum maximum)
  | _, _ => none

theorem WalOptions.inconsistency?_eq_none_iff (options : WalOptions) :
    options.inconsistency? = none ↔ options.Ordered := by
  unfold WalOptions.inconsistency? WalOptions.Ordered
  match options.minArchiveSize, options.maxArchiveSize with
  | some minimum, some maximum => by_cases ordered : minimum ≤ maximum <;> simp [ordered]
  | some _, none => simp
  | none, _ => simp

def ThrottleOptions.inconsistency? (options : ThrottleOptions) : Option Inconsistency :=
  if !(1.0 < options.backoffRatio : Bool) then some (.backoffDoesNotGrow options.backoffRatio)
  else if !isShare options.bufferFillThreshold then
    some (.notAShare "cp_buffer_fill_threshold" options.bufferFillThreshold)
  else if !isShare options.warnThreshold then
    some (.notAShare "warn_threshold" options.warnThreshold)
  else none

namespace DurabilityOptions

def inconsistency? (options : DurabilityOptions) : Option Inconsistency :=
  options.throttle.inconsistency? <|> options.wal.inconsistency?

theorem inconsistency?_eq_none_iff (options : DurabilityOptions) :
    options.inconsistency? = none ↔
      options.throttle.inconsistency? = none ∧ options.wal.Ordered := by
  rw [← WalOptions.inconsistency?_eq_none_iff]
  unfold inconsistency?
  cases options.throttle.inconsistency? <;> simp

end DurabilityOptions

end Durability
