import Durability.Proofs.Throttle.MeterRun

/-! The speed of checkpoints of late. A meter whose intervals end only when it is told so hears when
a checkpoint begins, now and then how much it has completed, and when it ends. While a checkpoint
runs, the meter reads what this one and the last ones before have completed over the time that they
took. What lies between two checkpoints leaves no trace: the interval that was opened when one ended
is thrown away when the next begins. -/

namespace Durability

namespace Meter

inductive Report where
  | completed (total now : Nat)
  | reading (now : Nat)
  deriving DecidableEq, Repr

def Report.call : Report → TimedCall
  | completed total now => { call := .setCounter total, now }
  | reading now => { call := .readSpeed, now }

def Report.total? : Report → Option Nat
  | completed total _ => some total
  | reading _ => none

/-- The course of a checkpoint, as a meter hears of it. -/
structure Course where
  begun : Nat
  reports : List Report
  deriving DecidableEq, Repr

structure PastCourse extends Course where
  ended : Nat
  idle : List Nat
  deriving DecidableEq, Repr

namespace Course

def totals (course : Course) : List Nat := course.reports.filterMap Report.total?

def completed (course : Course) : Nat := course.totals.getLast?.getD 0

def calls (course : Course) : List TimedCall :=
  { call := .restart 0, now := course.begun } :: course.reports.map Report.call

end Course

namespace PastCourse

def lasted (past : PastCourse) : Nat := past.ended - past.begun

def calls (past : PastCourse) : List TimedCall :=
  past.toCourse.calls ++
    { call := .finish, now := past.ended } :: past.idle.map fun now => { call := .readSpeed, now }

def interval (past : PastCourse) : Interval :=
  { Interval.starting past.begun 0 with counter := past.completed }.close past.ended

end PastCourse

def told (idle : List Nat) (past : List PastCourse) (running : Course) : List TimedCall :=
  (idle.map fun now => { call := .readSpeed, now }) ++ past.flatMap PastCourse.calls ++
    running.calls

def rate (operations elapsed : Nat) : Nat :=
  if elapsed = 0 then 0 else 1000000000 * operations / elapsed

def lastOf (count : Nat) (past : List PastCourse) : List PastCourse :=
  past.drop (past.length - count)

def completedBy (count : Nat) (past : List PastCourse) (running : Course) : Nat :=
  total ((lastOf count past).map (·.completed)) + running.completed

def lastedBy (count : Nat) (past : List PastCourse) (running : Course) (now : Nat) : Nat :=
  total ((lastOf count past).map (·.lasted)) + (now - running.begun)

/-! ### What a meter without a length of its own makes of it -/

variable {meter : Meter}

theorem rotate_of_untimed (untimed : meter.intervalNanos = largest64) {now : Nat}
    (early : now < largest64) : meter.rotate now = meter := by
  rw [rotate, untimed, if_neg (by omega)]

theorem run_readings (untimed : meter.intervalNanos = largest64) {times : List Nat}
    (early : ∀ now ∈ times, now < largest64) :
    meter.run (times.map fun now => { call := .readSpeed, now }) = meter := by
  induction times with
  | nil => rfl
  | cons now times ih =>
      obtain ⟨first, others⟩ := List.forall_mem_cons.1 early
      have read : meter.after { call := .readSpeed, now } = meter := rotate_of_untimed untimed first
      exact (congrArg (run · _) read).trans (ih others)

theorem run_reports (untimed : meter.intervalNanos = largest64) {reports : List Report}
    (early : ∀ report ∈ reports, report.call.now < largest64)
    (rising : (meter.current.counter :: reports.filterMap Report.total?).IsChain (· ≤ ·)) :
    meter.run (reports.map Report.call) =
      { meter with
        current :=
          { meter.current with
            counter :=
              (reports.filterMap Report.total?).getLast?.getD meter.current.counter } } := by
  induction reports generalizing meter with
  | nil => rfl
  | cons report reports ih =>
      obtain ⟨first, others⟩ := List.forall_mem_cons.1 early
      have same := rotate_of_untimed untimed first
      cases report with
      | reading now =>
          have read : meter.after (Report.reading now).call = meter := same
          exact (congrArg (run · _) read).trans (ih untimed others rising)
      | completed value now =>
          obtain ⟨le, rest⟩ := List.isChain_cons_cons.1 rising
          let later := { meter with current := { meter.current with counter := value } }
          have set : meter.after (Report.completed value now).call = later := by
            have rotated : meter.rotate now = meter := same
            simp only [after, Report.call, setCounter, rotated]
            exact if_neg (Nat.not_lt.2 le)
          have last (totals : List Nat) :
              (value :: totals).getLast?.getD meter.current.counter =
                totals.getLast?.getD value := by
            rw [List.getLast?_cons, Option.getD_some]
          refine (congrArg (run · _) set).trans ((@ih later untimed others rest).trans ?_)
          simp only [List.filterMap_cons, Report.total?, last, later]

theorem run_course (untimed : meter.intervalNanos = largest64) {course : Course}
    (early : ∀ made ∈ course.calls, made.now < largest64)
    (rising : course.totals.IsChain (· ≤ ·)) :
    meter.run course.calls =
      { meter with
        current := { Interval.starting course.begun 0 with counter := course.completed } } := by
  have fromZero : (0 :: course.totals).IsChain (· ≤ ·) :=
    List.isChain_cons.2 ⟨fun _ _ => Nat.zero_le _, rising⟩
  have reports : ∀ report ∈ course.reports, report.call.now < largest64 := fun report member =>
    early _ (List.mem_cons_of_mem _ (List.mem_map_of_mem member))
  exact @run_reports (meter.restart 0 course.begun) untimed _ reports fromZero

structure Recalls (count : Nat) (past : List PastCourse) (meter : Meter) : Prop where
  untimed : meter.intervalNanos = largest64
  count_eq : meter.maxIntervals = count
  closed : meter.closed = (lastOf count past).map PastCourse.interval

variable {count : Nat} {past : List PastCourse}

theorem recalls_manual (maxIntervals built : Nat) :
    Recalls (max maxIntervals 1) [] (manual maxIntervals built) where
  untimed := rfl
  count_eq := rfl
  closed := by
    rw [lastOf, List.drop_nil]
    rfl

theorem Recalls.ofCurrent (recalls : Recalls count past meter) (current : Interval) :
    Recalls count past { meter with current } :=
  ⟨recalls.untimed, recalls.count_eq, recalls.closed⟩

theorem Recalls.concat (recalls : Recalls count past meter) {course : PastCourse}
    (early : ∀ made ∈ course.calls, made.now < largest64)
    (rising : course.totals.IsChain (· ≤ ·)) :
    Recalls count (past ++ [course]) (meter.run course.calls) := by
  obtain ⟨within, after⟩ := List.forall_mem_append.1 early
  have idle : ∀ now ∈ course.idle, now < largest64 := fun now member =>
    after { call := .readSpeed, now } (List.mem_cons_of_mem _ (List.mem_map_of_mem member))
  let ran : Meter :=
    { meter with
      current := { Interval.starting course.begun 0 with counter := course.completed } }
  let closed := meter.closed ++ [course.interval]
  have kept : Recalls count (past ++ [course]) (ran.finish course.ended) := by
    refine ⟨recalls.untimed, recalls.count_eq, ?_⟩
    have mapped : closed = (lastOf count past ++ [course]).map PastCourse.interval := by
      rw [List.map_append, ← recalls.closed, List.map_singleton]
    have dropped : (ran.finish course.ended).closed = closed.drop (closed.length - count) := by
      rw [← recalls.count_eq]
      rfl
    rw [dropped, mapped, List.length_map, ← List.map_drop]
    exact congrArg _ (drop_concat_drop past course count)
  have left : meter.run course.calls = ran.finish course.ended := by
    rw [PastCourse.calls, run_append, run_course recalls.untimed within rising]
    exact run_readings kept.untimed idle
  rwa [left]

theorem Recalls.append (recalls : Recalls count past meter) {courses : List PastCourse}
    (early : ∀ made ∈ courses.flatMap PastCourse.calls, made.now < largest64)
    (rising : ∀ course ∈ courses, course.totals.IsChain (· ≤ ·)) :
    Recalls count (past ++ courses) (meter.run (courses.flatMap PastCourse.calls)) := by
  induction courses generalizing past meter with
  | nil => exact (List.append_nil past).symm ▸ recalls
  | cons course courses ih =>
      obtain ⟨own, others⟩ := List.forall_mem_append.1 (List.flatMap_cons ▸ early)
      obtain ⟨first, rest⟩ := List.forall_mem_cons.1 rising
      rw [List.flatMap_cons, run_append]
      have later := ih (recalls.concat own first) others rest
      rwa [List.append_assoc] at later

/-! ### Readings -/

theorem foldr_intervals (value : Interval → Nat) (closed : List Interval) (current : Interval) :
    (closed ++ [current]).foldr (value · + ·) 0 = total (closed.map value) + value current := by
  induction closed with
  | nil => simp [total]
  | cons interval closed ih =>
      rw [List.cons_append, List.foldr_cons, ih, List.map_cons, ← Nat.add_assoc]
      rfl

theorem Recalls.covered (recalls : Recalls count past meter) {now : Nat} (le : now ≤ largest64)
    (some : 0 < count) : meter.covered now = meter.closed ++ [meter.current] := by
  have horizon : now - meter.windowNanos = 0 := by
    have long : largest64 ≤ largest64 * count := Nat.le_mul_of_pos_right _ some
    rw [windowNanos, recalls.untimed, recalls.count_eq, saturate, Nat.min_eq_right long]
    exact Nat.sub_eq_zero_of_le le
  rw [Meter.covered, horizon, List.filter_eq_self.2 ?_]
  intro interval member
  rw [recalls.closed] at member
  obtain ⟨course, -, rfl⟩ := List.mem_map.1 member
  simp [PastCourse.interval, Interval.close]

/-- While a checkpoint runs, a meter without a length of its own reads what this one and the last
ones that ended have completed over the time that they took, whatever time passed between them or
before, and whoever read the speed meanwhile. At least one checkpoint is kept, and the speed is held
within 64 bits. -/
theorem speed_of_courses (maxIntervals built : Nat) (idle : List Nat) (past : List PastCourse)
    (running : Course) (now : Nat)
    (early : ∀ made ∈ told idle past running, made.now < largest64) (soon : now < largest64)
    (rising : ∀ course ∈ past, course.totals.IsChain (· ≤ ·))
    (rises : running.totals.IsChain (· ≤ ·))
    (few : completedBy (max maxIntervals 1) past running ≤ largest64)
    (brief : lastedBy (max maxIntervals 1) past running now ≤ largest64) :
    (((manual maxIntervals built).run (told idle past running)).readSpeed now).1 =
      saturate (rate (completedBy (max maxIntervals 1) past running)
        (lastedBy (max maxIntervals 1) past running now)) := by
  let count := max maxIntervals 1
  let fresh := manual maxIntervals built
  obtain ⟨before, own⟩ := List.forall_mem_append.1 early
  obtain ⟨first, ended⟩ := List.forall_mem_append.1 before
  have readings : ∀ time ∈ idle, time < largest64 := fun time member =>
    first { call := .readSpeed, now := time } (List.mem_map_of_mem member)
  have recalls : Recalls count past (fresh.run (past.flatMap PastCourse.calls)) :=
    (recalls_manual maxIntervals built).append ended rising
  let current := { Interval.starting running.begun 0 with counter := running.completed }
  let meter := { fresh.run (past.flatMap PastCourse.calls) with current }
  have ran : fresh.run (told idle past running) = meter := by
    rw [told, run_append, run_append, run_readings rfl readings,
      run_course recalls.untimed own rises]
  have kept : Recalls count past meter := recalls.ofCurrent current
  have covered : meter.covered now =
      (lastOf count past).map PastCourse.interval ++ [current] := by
    rw [kept.covered soon.le (Nat.le_max_right _ _), kept.closed]
  have counted : (meter.covered now).foldr (·.operations + ·) 0 =
      completedBy count past running := by
    rw [covered, foldr_intervals, List.map_map]
    rfl
  have each (course : PastCourse) : course.interval.duration now = course.lasted := by
    simp only [PastCourse.interval, Interval.close, Interval.duration, Interval.starting,
      Option.getD_some, PastCourse.lasted]
    omega
  have lasted : (meter.covered now).foldr (·.duration now + ·) 0 =
      lastedBy count past running now := by
    rw [covered, foldr_intervals, List.map_map]
    simp only [Function.comp_def, each]
    rfl
  rw [ran, readSpeed, rotate_of_untimed kept.untimed soon]
  refine (speedOver_eq counted lasted few brief).trans ?_
  rw [rate, Nat.mul_comm]
  split <;> rfl

theorem speed_of_threeCourses :
    let past : List PastCourse :=
      [{ begun := 10, reports := [.completed 5 11, .completed 9 12], ended := 13, idle := [14] },
        { begun := 100, reports := [.completed 20 105, .reading 106, .completed 30 108],
          ended := 110, idle := [150, 160] },
        { begun := 200, reports := [], ended := 215, idle := [] }]
    let running : Course := { begun := 1000, reports := [.reading 1001, .completed 40 1004] }
    (∀ made ∈ told [8] past running, made.now < largest64) ∧ 1005 < largest64 ∧
      (∀ course ∈ past, course.totals.IsChain (· ≤ ·)) ∧ running.totals.IsChain (· ≤ ·) ∧
      completedBy 2 past running ≤ largest64 ∧ lastedBy 2 past running 1005 ≤ largest64 ∧
      (((manual 2 7).run (told [8] past running)).readSpeed 1005).1 =
        1000000000 * (30 + 0 + 40) / (10 + 15 + 5) := by
  intro past running
  have early : ∀ made ∈ told [8] past running, made.now < largest64 := by decide
  have soon : 1005 < largest64 := by decide
  have rising : ∀ course ∈ past, course.totals.IsChain (· ≤ ·) := by decide
  have rises : running.totals.IsChain (· ≤ ·) := by decide
  have few : completedBy 2 past running ≤ largest64 := by decide
  have brief : lastedBy 2 past running 1005 ≤ largest64 := by decide
  have speed := speed_of_courses 2 7 [8] past running 1005 early soon rising rises few brief
  exact ⟨early, soon, rising, rises, few, brief, speed.trans (by decide)⟩

/-- A meter that is to keep no checkpoint still keeps one. And a checkpoint that completes as many
pages as can be counted, in one nanosecond, is faster than can be told in 64 bits. -/
theorem speed_keeps_one_and_saturates :
    let past : PastCourse :=
      { begun := 0, reports := [.completed 100 5], ended := 10, idle := [] }
    let next : Course := { begun := 20, reports := [] }
    let swift : Course := { begun := 0, reports := [.completed largest64 0] }
    let keptNone := ((manual 0 0).run (told [] [past] next)).readSpeed 30
    let fastest := ((manual 3 0).run (told [] [] swift)).readSpeed 1
    ((told [] [past] next).map TimedCall.now ++ [30]).IsChain (· ≤ ·) ∧
      completedBy 0 [past] next ≤ largest64 ∧ lastedBy 0 [past] next 30 ≤ largest64 ∧
      keptNone.1 ≠ rate (completedBy 0 [past] next) (lastedBy 0 [past] next 30) ∧
      ((told [] [] swift).map TimedCall.now ++ [1]).IsChain (· ≤ ·) ∧
      completedBy 3 [] swift ≤ largest64 ∧ lastedBy 3 [] swift 1 ≤ largest64 ∧
      fastest.1 ≠ rate (completedBy 3 [] swift) (lastedBy 3 [] swift 1) := by
  decide

end Meter

end Durability
