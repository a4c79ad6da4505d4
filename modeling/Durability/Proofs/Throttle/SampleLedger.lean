import Durability.Proofs.Throttle.MeterRun

/-! The samples of a meter, told by its intervals. A meter forgets an interval when it retains too
many, but nothing before that: over the intervals that it was ever given, the samples are counted
and added up. -/

namespace Durability

namespace Meter

def dropsAtFinish (meter : Meter) (now : Nat) : List Interval :=
  let closed := meter.closed ++ [meter.current.close now]
  closed.take (closed.length - meter.maxIntervals)

def dropsAtRotate (meter : Meter) (now : Nat) : List Interval :=
  if meter.intervalNanos ≤ now - meter.current.start then meter.dropsAtFinish now else []

/-- A meter has come from another by recording these samples, the latest first and each with its
time, and otherwise only by counting operations, reading its speed and closing its interval. On the
way it has dropped these intervals. -/
inductive Recorded (start : Meter) : List (Nat × Nat) → List Interval → Meter → Prop where
  | start : Recorded start [] [] start
  | sample {recorded : List (Nat × Nat)} {dropped : List Interval} {meter : Meter}
      (value now : Nat) (before : Recorded start recorded dropped meter) :
      Recorded start ((value, now) :: recorded) (dropped ++ meter.dropsAtRotate now)
        (meter.addSample value now)
  | increment {recorded : List (Nat × Nat)} {dropped : List Interval} {meter : Meter} (now : Nat)
      (before : Recorded start recorded dropped meter) :
      Recorded start recorded (dropped ++ meter.dropsAtRotate now) (meter.increment now)
  | read {recorded : List (Nat × Nat)} {dropped : List Interval} {meter : Meter} (now : Nat)
      (before : Recorded start recorded dropped meter) :
      Recorded start recorded (dropped ++ meter.dropsAtRotate now) (meter.readSpeed now).2
  | finish {recorded : List (Nat × Nat)} {dropped : List Interval} {meter : Meter} (now : Nat)
      (before : Recorded start recorded dropped meter) :
      Recorded start recorded (dropped ++ meter.dropsAtFinish now) (meter.finish now)

/-! ### Closing intervals -/

def overall (told : Interval → Nat) (intervals : List Interval) : Nat := total (intervals.map told)

theorem overall_append (told : Interval → Nat) (intervals others : List Interval) :
    overall told (intervals ++ others) = overall told intervals + overall told others :=
  (congrArg total List.map_append).trans (total_append _ _)

theorem overall_singleton (told : Interval → Nat) (interval : Interval) :
    overall told [interval] = told interval := rfl

theorem overall_all (told : Interval → Nat) (dropped : List Interval) (meter : Meter) :
    overall told (dropped ++ meter.intervals) =
      overall told dropped + overall told meter.closed + told meter.current := by
  rw [intervals, overall_append, overall_append, overall_singleton, ← Nat.add_assoc]

section Told

-- What is told of an interval does not depend on its end, and is nothing when it starts.
variable {told : Interval → Nat}
  (closes : ∀ interval now, told (interval.close now) = told interval)
  (starts : ∀ now counter, told (.starting now counter) = 0)

include closes starts in
theorem overall_finish (meter : Meter) (now : Nat) :
    overall told (meter.dropsAtFinish now ++ (meter.finish now).intervals) =
      overall told meter.intervals := by
  let closed := meter.closed ++ [meter.current.close now]
  have parts : meter.dropsAtFinish now ++ (meter.finish now).intervals =
      closed ++ [.starting now meter.current.counter] := by
    change closed.take _ ++ (closed.drop _ ++ _) = _
    rw [← List.append_assoc, List.take_append_drop]
    rfl
  rw [parts, overall_append, overall_append, intervals, overall_append]
  simp only [overall_singleton, closes, starts, Nat.add_zero]

include closes starts in
theorem overall_rotate (meter : Meter) (now : Nat) :
    overall told (meter.dropsAtRotate now ++ (meter.rotate now).intervals) =
      overall told meter.intervals := by
  unfold dropsAtRotate rotate
  split
  · exact overall_finish closes starts meter now
  · rfl

end Told

/-! ### All samples -/

/-- So many samples were recorded in the dropped intervals and those of a meter, and as long as they
fit in a word they add up to so much. -/
structure Tallied (count sum : Nat) (dropped : List Interval) (meter : Meter) : Prop where
  count : overall (·.samples) (dropped ++ meter.intervals) = count
  sum : sum ≤ largest64 → overall (·.sum) (dropped ++ meter.intervals) = sum

variable {count sum : Nat} {dropped : List Interval} {meter : Meter}

theorem Tallied.congr (tallied : Tallied count sum dropped meter) {more : List Interval}
    {other : Meter}
    (counts : overall (·.samples) (more ++ other.intervals) = overall (·.samples) meter.intervals)
    (sums : overall (·.sum) (more ++ other.intervals) = overall (·.sum) meter.intervals) :
    Tallied count sum (dropped ++ more) other := by
  constructor
  · rw [List.append_assoc, overall_append, counts, ← overall_append, tallied.count]
  · intro few
    rw [List.append_assoc, overall_append, sums, ← overall_append, tallied.sum few]

theorem Tallied.finish (tallied : Tallied count sum dropped meter) (now : Nat) :
    Tallied count sum (dropped ++ meter.dropsAtFinish now) (meter.finish now) :=
  tallied.congr (overall_finish (fun _ _ => rfl) (fun _ _ => rfl) meter now)
    (overall_finish (fun _ _ => rfl) (fun _ _ => rfl) meter now)

theorem Tallied.rotate (tallied : Tallied count sum dropped meter) (now : Nat) :
    Tallied count sum (dropped ++ meter.dropsAtRotate now) (meter.rotate now) :=
  tallied.congr (overall_rotate (fun _ _ => rfl) (fun _ _ => rfl) meter now)
    (overall_rotate (fun _ _ => rfl) (fun _ _ => rfl) meter now)

theorem Tallied.addSample (tallied : Tallied count sum dropped meter) (value : Nat) :
    Tallied (count + 1) (sum + value) dropped
      { meter with current := meter.current.addSample value } := by
  obtain ⟨counts, sums⟩ := tallied
  rw [overall_all] at counts sums
  constructor <;> rw [overall_all]
  · rw [← counts]
    rfl
  · intro few
    have before := sums (Nat.le_of_add_right_le few)
    have fits : meter.current.sum + value ≤ largest64 := by omega
    change overall _ dropped + overall _ meter.closed + saturate (meter.current.sum + value) = _
    rw [saturate_of_le fits, ← before, Nat.add_assoc]
    omega

theorem Tallied.increment (tallied : Tallied count sum dropped meter) :
    Tallied count sum dropped { meter with current := meter.current.count } := by
  obtain ⟨counts, sums⟩ := tallied
  rw [overall_all] at counts sums
  constructor <;> rw [overall_all]
  · exact counts
  · exact sums

theorem Recorded.tallied {start : Meter} {recorded : List (Nat × Nat)}
    (record : start.Recorded recorded dropped meter) :
    Tallied (overall (·.samples) start.intervals + recorded.length)
      (overall (·.sum) start.intervals + total (recorded.map (·.1))) dropped meter := by
  induction record with
  | start => exact ⟨rfl, fun _ => rfl⟩
  | sample value now _ ih =>
      have added := (ih.rotate now).addSample value
      rw [Nat.add_assoc, Nat.add_assoc, Nat.add_comm _ value] at added
      exact added
  | increment now _ ih => exact (ih.rotate now).increment
  | read now _ ih => exact ih.rotate now
  | finish now _ ih => exact ih.finish now

end Meter

end Durability
