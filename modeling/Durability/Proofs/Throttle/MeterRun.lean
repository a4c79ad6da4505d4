import Durability.Throttle.Meter
import Mathlib.Data.List.Forall2
import Mathlib.Data.List.Chain

/-! What a meter has seen. Intervals are closed by whichever call comes first at or after their
ends, be it a reading, so that a run of calls falls into spans, one for each interval that was
opened. The retained intervals are those of the last spans and count what was done in them, and a
reading is the quotient over the spans that it reaches back to. -/

namespace Durability

namespace Meter

inductive Call where
  | increment
  | setCounter (value : Nat)
  | restart (value : Nat)
  | addSample (value : Nat)
  | readSpeed
  | average
  | finish
  deriving DecidableEq, Repr

def Call.isPlain : Call → Bool
  | setCounter _ | restart _ => false
  | _ => true

structure TimedCall where
  call : Call
  now : Nat
  deriving DecidableEq, Repr

def after (meter : Meter) (made : TimedCall) : Meter :=
  match made.call with
  | .increment => meter.increment made.now
  | .setCounter value => meter.setCounter value made.now
  | .restart value => meter.restart value made.now
  | .addSample value => meter.addSample value made.now
  | .readSpeed => (meter.readSpeed made.now).2
  | .average => meter
  | .finish => meter.finish made.now

def run (meter : Meter) (calls : List TimedCall) : Meter := calls.foldl after meter

theorem run_append (meter : Meter) (calls others : List TimedCall) :
    meter.run (calls ++ others) = (meter.run calls).run others := List.foldl_append

def intervals (meter : Meter) : List Interval := meter.closed ++ [meter.current]

/-! ### Spans of calls -/

def increments (calls : List TimedCall) : Nat := calls.countP (·.call = .increment)

def samples (calls : List TimedCall) : List Nat :=
  calls.filterMap fun made => match made.call with
    | .addSample value => some value
    | _ => none

def total (values : List Nat) : Nat := values.foldr (· + ·) 0

/-- When an interval was opened, and the calls made from then on to the opening of the next one. The
first of them is the call that opens the interval, unless the meter starts with it. -/
structure Span where
  start : Nat
  calls : List TimedCall
  deriving DecidableEq, Repr

structure SpanLog where
  past : List Span
  current : Span

namespace SpanLog

def starting (now : Nat) : SpanLog := { past := [], current := { start := now, calls := [] } }

def all (log : SpanLog) : List Span := log.past ++ [log.current]

def retained (log : SpanLog) (count : Nat) : List Span :=
  log.past.drop (log.past.length - count) ++ [log.current]

def opening (log : SpanLog) (now : Nat) : SpanLog :=
  { past := log.past ++ [log.current], current := { start := now, calls := [] } }

def note (log : SpanLog) (made : TimedCall) : SpanLog :=
  { log with current := { log.current with calls := log.current.calls ++ [made] } }

def rotate (length : Nat) (log : SpanLog) (now : Nat) : SpanLog :=
  if length ≤ now - log.current.start then log.opening now else log

def after (length : Nat) (log : SpanLog) (made : TimedCall) : SpanLog :=
  let entered := match made.call with
    | .finish => log.opening made.now
    | .average | .restart _ => log
    | _ => log.rotate length made.now
  entered.note made

def run (length : Nat) (log : SpanLog) (calls : List TimedCall) : SpanLog :=
  calls.foldl (after length) log

theorem note_calls (log : SpanLog) (made : TimedCall) :
    (log.note made).all.flatMap (·.calls) = log.all.flatMap (·.calls) ++ [made] := by
  simp only [all, note, List.flatMap_append, List.flatMap_singleton, List.append_assoc]

theorem opening_calls (log : SpanLog) (now : Nat) :
    (log.opening now).all.flatMap (·.calls) = log.all.flatMap (·.calls) := by
  simp only [all, opening, List.flatMap_append, List.flatMap_singleton, List.append_nil]

theorem rotate_calls (length : Nat) (log : SpanLog) (now : Nat) :
    (log.rotate length now).all.flatMap (·.calls) = log.all.flatMap (·.calls) := by
  unfold rotate
  split
  · exact opening_calls log now
  · rfl

theorem after_calls (length : Nat) (log : SpanLog) (made : TimedCall) :
    (log.after length made).all.flatMap (·.calls) = log.all.flatMap (·.calls) ++ [made] := by
  unfold after
  split <;> rw [note_calls]
  · rw [opening_calls]
  · rw [rotate_calls]

theorem run_calls (length : Nat) (log : SpanLog) (calls : List TimedCall) :
    (log.run length calls).all.flatMap (·.calls) = log.all.flatMap (·.calls) ++ calls := by
  induction calls generalizing log with
  | nil => exact (List.append_nil _).symm
  | cons made calls ih =>
      refine (ih (log.after length made)).trans ?_
      rw [after_calls, List.append_assoc]
      rfl

end SpanLog

/-! ### Intervals and their spans -/

theorem total_append (values others : List Nat) :
    total (values ++ others) = total values + total others := by
  induction values with
  | nil => exact (Nat.zero_add _).symm
  | cons value values ih => exact (congrArg (value + ·) ih).trans (Nat.add_assoc _ _ _).symm

theorem total_cons (value : Nat) (values : List Nat) :
    total (value :: values) = value + total values := rfl

theorem total_perm {values others : List Nat} (same : values.Perm others) :
    total values = total others := same.sum_nat

theorem increments_append (calls others : List TimedCall) :
    increments (calls ++ others) = increments calls + increments others :=
  List.countP_append

theorem samples_append (calls others : List TimedCall) :
    samples (calls ++ others) = samples calls ++ samples others :=
  List.filterMap_append

theorem count_of_lt {interval : Interval} (room : interval.counter < largest64) :
    interval.count = { interval with counter := interval.counter + 1 } := by
  rw [Interval.count, wrap64_of_le room]

theorem saturate_of_le {number : Nat} (le : number ≤ largest64) : saturate number = number :=
  Nat.min_eq_left le

theorem saturate_add (number more : Nat) :
    saturate (saturate number + more) = saturate (number + more) := by
  unfold saturate
  omega

/-- An interval has counted what was done in a span. -/
structure Mirrors (span : Span) (interval : Interval) : Prop where
  start : interval.start = span.start
  counter : interval.counter = interval.initial + increments span.calls
  sum : interval.sum = saturate (total (samples span.calls))
  count : interval.samples = (samples span.calls).length

variable {span : Span} {interval : Interval}

theorem Mirrors.operations (mirrors : Mirrors span interval) :
    interval.operations = increments span.calls := by
  rw [Interval.operations, mirrors.counter, Nat.add_sub_cancel_left]

theorem Mirrors.close (mirrors : Mirrors span interval) (now : Nat) :
    Mirrors span (interval.close now) :=
  ⟨mirrors.start, mirrors.counter, mirrors.sum, mirrors.count⟩

theorem Mirrors.saturated (mirrors : Mirrors span interval) :
    interval.sum = saturate interval.sum := by
  rw [mirrors.sum]
  exact (saturate_add _ 0).symm

theorem Mirrors.concat (mirrors : Mirrors span interval) {made : TimedCall} {other : Interval}
    (start : other.start = interval.start) (initial : other.initial = interval.initial)
    (counter : other.counter = interval.counter + increments [made])
    (sum : other.sum = saturate (interval.sum + total (samples [made])))
    (count : other.samples = interval.samples + (samples [made]).length) :
    Mirrors { span with calls := span.calls ++ [made] } other := by
  refine ⟨start.trans mirrors.start, ?_, ?_, ?_⟩
  · rw [counter, initial, mirrors.counter, increments_append, Nat.add_assoc]
  · rw [sum, mirrors.sum, saturate_add, samples_append, total_append]
  · rw [count, mirrors.count, samples_append, List.length_append]

def Follows (interval next : Interval) : Prop :=
  interval.stop = some next.start ∧ interval.start ≤ next.start

/-- The retained intervals mirror the last spans, and leave no gaps. -/
structure Kept (length count now : Nat) (log : SpanLog) (meter : Meter) : Prop where
  length_eq : meter.intervalNanos = length
  count_eq : meter.maxIntervals = count
  closed : List.Forall₂ Mirrors (log.past.drop (log.past.length - count)) meter.closed
  current : Mirrors log.current meter.current
  tiled : meter.intervals.IsChain Follows
  running : meter.current.stop = none
  started : meter.current.start ≤ now

variable {length count now : Nat} {log : SpanLog} {meter : Meter}

theorem Kept.later (kept : Kept length count now log meter) {later : Nat} (le : now ≤ later) :
    Kept length count later log meter :=
  { kept with started := kept.started.trans le }

theorem kept_new (intervalNanos maxIntervals start : Nat) :
    Kept (max (saturate intervalNanos) 1) (max maxIntervals 1) start (.starting start)
      (new intervalNanos maxIntervals start) where
  length_eq := rfl
  count_eq := rfl
  closed := by
    rw [show (SpanLog.starting start).past = [] from rfl, List.drop_nil]
    exact .nil
  current := ⟨rfl, rfl, rfl, rfl⟩
  tiled := .singleton _
  running := rfl
  started := le_rfl

theorem drop_concat_drop {α : Type} (list : List α) (one : α) (count : Nat) :
    let last := list.drop (list.length - count) ++ [one]
    last.drop (last.length - count) =
      (list ++ [one]).drop ((list ++ [one]).length - count) := by
  have front : list.drop (list.length - count) ++ [one] =
      (list ++ [one]).drop (list.length - count) :=
    (List.drop_append_of_le_length (Nat.sub_le _ _)).symm
  simp only [front, List.drop_drop, List.length_drop, List.length_append, List.length_singleton]
  congr 1
  omega

theorem tiled_of_start {closed : List Interval} {current other : Interval}
    (tiled : (closed ++ [current]).IsChain Follows) (start : other.start = current.start) :
    (closed ++ [other]).IsChain Follows := by
  obtain ⟨before, -, last⟩ := List.isChain_append.1 tiled
  refine List.isChain_append.2 ⟨before, .singleton _, fun one member next head => ?_⟩
  cases head
  have follows : Follows one current := last one member current rfl
  rwa [Follows, ← start] at follows

theorem Kept.finish (kept : Kept length count now log meter) :
    Kept length count now (log.opening now) (meter.finish now) := by
  let closing := meter.current.close now
  let fresh := Interval.starting now meter.current.counter
  let closed := meter.closed ++ [closing]
  have stop : closing.stop = some now := congrArg some (Nat.max_eq_left kept.started)
  have mirrored : List.Forall₂ Mirrors
      (log.past.drop (log.past.length - count) ++ [log.current]) closed :=
    List.rel_append kept.closed (.cons (kept.current.close now) .nil)
  have tiled : (closed ++ [fresh]).IsChain Follows := by
    refine List.isChain_append.2 ⟨tiled_of_start kept.tiled rfl, .singleton _, ?_⟩
    intro one member next head
    rw [List.getLast?_concat] at member
    cases member
    cases head
    exact ⟨stop, kept.started⟩
  refine ⟨kept.length_eq, kept.count_eq, ?_, ⟨rfl, rfl, rfl, rfl⟩, ?_, rfl, le_rfl⟩
  · have left : (meter.finish now).closed = closed.drop (closed.length - count) := by
      rw [← kept.count_eq]
      rfl
    rw [left, ← mirrored.length_eq]
    exact drop_concat_drop log.past log.current count ▸ List.forall₂_drop _ mirrored
  · have rest := tiled.drop (closed.length - meter.maxIntervals)
    rwa [List.drop_append_of_le_length (Nat.sub_le _ _)] at rest

theorem Kept.rotate (kept : Kept length count now log meter) :
    Kept length count now (log.rotate length now) (meter.rotate now) := by
  rw [Meter.rotate, SpanLog.rotate, kept.length_eq, kept.current.start]
  split
  · exact kept.finish
  · exact kept

theorem Kept.note (kept : Kept length count now log meter) {made : TimedCall} {current : Interval}
    (start : current.start = meter.current.start) (running : current.stop = none)
    (mirrors : Mirrors { log.current with calls := log.current.calls ++ [made] } current) :
    Kept length count now (log.note made) { meter with current } :=
  ⟨kept.length_eq, kept.count_eq, kept.closed, mirrors, tiled_of_start kept.tiled start, running,
    start.trans_le kept.started⟩

theorem Kept.noteIdle (kept : Kept length count now log meter) {made : TimedCall}
    (nothing : increments [made] = 0) (none : samples [made] = []) :
    Kept length count now (log.note made) meter := by
  refine kept.note rfl kept.running (kept.current.concat rfl rfl ?_ ?_ ?_)
  · rw [nothing, Nat.add_zero]
  · rw [none]
    exact kept.current.saturated
  · rw [none]
    rfl

theorem counter_rotate (meter : Meter) (now : Nat) :
    (meter.rotate now).current.counter = meter.current.counter := by
  unfold rotate
  split <;> rfl

theorem counter_after_le (meter : Meter) {made : TimedCall} (plain : made.call.isPlain = true) :
    (meter.after made).current.counter ≤ meter.current.counter + increments [made] := by
  obtain ⟨call, now⟩ := made
  cases call with
  | setCounter | restart => cases plain
  | average | finish => exact le_rfl
  | readSpeed | addSample => exact (meter.counter_rotate now).le
  | increment =>
      refine (Nat.mod_le _ _).trans ?_
      rw [counter_rotate]
      exact le_rfl

theorem Kept.after (kept : Kept length count now log meter) {made : TimedCall}
    (plain : made.call.isPlain = true) (le : now ≤ made.now)
    (few : meter.current.counter + increments [made] ≤ largest64) :
    Kept length count made.now (log.after length made) (meter.after made) := by
  have later := kept.later le
  have rotated := later.rotate
  obtain ⟨call, time⟩ := made
  cases call with
  | setCounter | restart => cases plain
  | average => exact later.noteIdle rfl rfl
  | finish => exact later.finish.noteIdle rfl rfl
  | readSpeed => exact rotated.noteIdle rfl rfl
  | increment =>
      have room : (meter.rotate time).current.counter < largest64 :=
        (meter.counter_rotate time).trans_lt few
      have counted := count_of_lt room
      refine rotated.note ?_ ?_ (rotated.current.concat ?_ ?_ ?_ ?_ ?_) <;> rw [counted]
      · exact rotated.running
      · rfl
      · exact rotated.current.saturated
      · rfl
  | addSample value =>
      exact rotated.note rfl rotated.running (rotated.current.concat rfl rfl rfl rfl rfl)

theorem counter_run_le (meter : Meter) {calls : List TimedCall}
    (plain : ∀ made ∈ calls, made.call.isPlain = true) :
    (meter.run calls).current.counter ≤ meter.current.counter + increments calls := by
  induction calls generalizing meter with
  | nil => exact le_rfl
  | cons made calls ih =>
      obtain ⟨first, others⟩ := List.forall_mem_cons.1 plain
      have both : increments (made :: calls) = increments [made] + increments calls :=
        increments_append [made] calls
      have most := meter.counter_after_le first
      have rest := ih (meter.after made) others
      exact rest.trans (by omega)

theorem Kept.run (kept : Kept length count now log meter) {calls : List TimedCall} {last : Nat}
    (plain : ∀ made ∈ calls, made.call.isPlain = true)
    (ordered : (now :: (calls.map (·.now) ++ [last])).IsChain (· ≤ ·))
    (few : meter.current.counter + increments calls ≤ largest64) :
    Kept length count last (log.run length calls) (meter.run calls) := by
  induction calls generalizing now log meter with
  | nil => exact kept.later (List.isChain_pair.1 ordered)
  | cons made calls ih =>
      obtain ⟨le, rest⟩ := List.isChain_cons_cons.1 ordered
      obtain ⟨first, others⟩ := List.forall_mem_cons.1 plain
      have both : increments (made :: calls) = increments [made] + increments calls :=
        increments_append [made] calls
      have most := meter.counter_after_le first
      exact ih (kept.after first le (by omega)) others rest (by omega)

theorem kept_run (intervalNanos maxIntervals : Nat) {start : Nat} {calls : List TimedCall}
    (plain : ∀ made ∈ calls, made.call.isPlain = true)
    (ordered : (start :: (calls.map (·.now) ++ [now])).IsChain (· ≤ ·))
    (few : increments calls ≤ largest64) :
    let length := max (saturate intervalNanos) 1
    Kept length (max maxIntervals 1) now ((SpanLog.starting start).run length calls)
      ((new intervalNanos maxIntervals start).run calls) :=
  (kept_new intervalNanos maxIntervals start).run plain ordered ((Nat.zero_add _).trans_le few)

/-! ### What intervals add up to -/

theorem Kept.mirrored (kept : Kept length count now log meter) :
    List.Forall₂ Mirrors (log.retained count) meter.intervals :=
  List.rel_append kept.closed (.cons kept.current .nil)

theorem foldr_of_spans {spans : List Span} {intervals : List Interval} {told : Interval → Nat}
    {done : List TimedCall → Nat} (none : done [] = 0)
    (more : ∀ calls others, done (calls ++ others) = done calls + done others)
    (same : List.Forall₂ (fun span interval => told interval = done span.calls) spans intervals) :
    intervals.foldr (told · + ·) 0 = done (spans.flatMap (·.calls)) := by
  induction same with
  | nil => exact none.symm
  | cons first _ ih => rw [List.foldr_cons, ih, first, List.flatMap_cons, more]

theorem foldl_saturate (told : Interval → Nat) (intervals : List Interval) (sum : Nat) :
    intervals.foldl (fun sum interval => saturate (sum + told interval)) (saturate sum) =
      saturate (sum + intervals.foldr (told · + ·) 0) := by
  induction intervals generalizing sum with
  | nil => rfl
  | cons interval intervals ih =>
      rw [List.foldl_cons, saturate_add, ih, List.foldr_cons, Nat.add_assoc]

theorem tiled_cons {interval current : Interval} {closed : List Interval}
    (tiled : (interval :: closed ++ [current]).IsChain Follows) :
    ∃ next, (closed ++ [current]).head? = some next ∧ interval.stop = some next.start ∧
      interval.start ≤ next.start ∧ (closed ++ [current]).IsChain Follows := by
  obtain ⟨follows, rest⟩ := List.isChain_cons.1 tiled
  obtain ⟨next, head⟩ : ∃ next, (closed ++ [current]).head? = some next :=
    Option.isSome_iff_exists.1 (by simp)
  obtain ⟨stop, le⟩ := follows next head
  exact ⟨next, head, stop, le, rest⟩

theorem durations_of_tiled {closed : List Interval} {current first : Interval}
    (tiled : (closed ++ [current]).IsChain Follows) (running : current.stop = none)
    (started : current.start ≤ now) (head : (closed ++ [current]).head? = some first) :
    first.start + (closed ++ [current]).foldr (·.duration now + ·) 0 = now := by
  induction closed generalizing first with
  | nil =>
      cases head
      simp [Interval.duration, running, started]
  | cons interval closed ih =>
      cases head
      obtain ⟨next, there, stop, le, rest⟩ := tiled_cons tiled
      have later := ih rest there
      have lasts : interval.duration now = next.start - interval.start := by
        rw [Interval.duration, stop, Option.getD_some]
      rw [List.cons_append, List.foldr_cons, lasts]
      omega

theorem ended_of_start_le {closed : List Interval} {current first : Interval} {horizon : Nat}
    (tiled : (closed ++ [current]).IsChain Follows)
    (head : (closed ++ [current]).head? = some first) (le : horizon ≤ first.start) :
    ∀ interval ∈ closed, interval.stop.any (horizon ≤ ·) = true := by
  induction closed generalizing first with
  | nil => exact nofun
  | cons interval closed ih =>
      cases head
      obtain ⟨next, there, stop, further, rest⟩ := tiled_cons tiled
      have within := le.trans further
      refine List.forall_mem_cons.2 ⟨?_, ih rest there within⟩
      rw [stop]
      exact decide_eq_true within

theorem filter_of_tiled {closed : List Interval} {current : Interval}
    (tiled : (closed ++ [current]).IsChain Follows) (horizon : Nat) :
    closed.filter (·.stop.any (horizon ≤ ·)) =
      closed.drop (closed.findIdx (·.stop.any (horizon ≤ ·))) := by
  induction closed with
  | nil => rfl
  | cons interval closed ih =>
      obtain ⟨next, there, stop, -, rest⟩ := tiled_cons tiled
      rw [List.filter_cons, List.findIdx_cons, stop, Option.any_some]
      by_cases within : horizon ≤ next.start
      · have others := ended_of_start_le rest there within
        rw [if_pos (decide_eq_true within), List.filter_eq_self.2 others]
        simp [within]
      · rw [if_neg (by simpa using within), ih rest]
        simp [within]

/-! ### Readings -/

def reach (meter : Meter) (horizon : Nat) : Nat :=
  meter.closed.findIdx (·.stop.any (horizon ≤ ·))

theorem reach_le (meter : Meter) (horizon : Nat) : meter.reach horizon ≤ meter.closed.length :=
  List.findIdx_le_length

theorem speedOver_eq {intervals : List Interval} {operations elapsed : Nat}
    (counted : intervals.foldr (·.operations + ·) 0 = operations)
    (lasted : intervals.foldr (·.duration now + ·) 0 = elapsed)
    (few : operations ≤ largest64) (brief : elapsed ≤ largest64) :
    speedOver intervals now =
      if elapsed = 0 then 0 else saturate (operations * 1000000000 / elapsed) := by
  have sums (told : Interval → Nat) :
      intervals.foldl (fun sum interval => saturate (sum + told interval)) 0 =
        saturate (0 + intervals.foldr (told · + ·) 0) := foldl_saturate told intervals 0
  rw [speedOver, sums, sums, counted, lasted, Nat.zero_add, Nat.zero_add, saturate_of_le few,
    saturate_of_le brief]

theorem increments_drop_retained_le (log : SpanLog) (count place : Nat) :
    increments (((log.retained count).drop place).flatMap (·.calls)) ≤
      increments (log.all.flatMap (·.calls)) := by
  have retained : log.retained count <:+ log.all :=
    ⟨log.past.take (log.past.length - count), by
      rw [SpanLog.retained, SpanLog.all, ← List.append_assoc, List.take_append_drop]⟩
  obtain ⟨front, whole⟩ := (List.drop_suffix place _).trans retained
  rw [← whole, List.flatMap_append, increments_append]
  exact Nat.le_add_left _ _

theorem Kept.speed (kept : Kept length count now log meter) (inTime : now ≤ largest64)
    (few : increments (log.all.flatMap (·.calls)) ≤ largest64) :
    let place := meter.reach (now - length * count)
    ∃ opened, (meter.intervals[place]?).map (·.start) = some opened ∧
      speedOver (meter.covered now) now =
        if now = opened then 0
        else saturate (1000000000 *
          increments (((log.retained count).drop place).flatMap (·.calls)) / (now - opened)) := by
  intro place
  have horizon : now - meter.windowNanos = now - length * count := by
    rw [windowNanos, kept.length_eq, kept.count_eq, saturate]
    omega
  have covered : meter.covered now = meter.intervals.drop place := by
    rw [Meter.covered, horizon, filter_of_tiled kept.tiled, intervals,
      List.drop_append_of_le_length (meter.reach_le _)]
    rfl
  have there : meter.closed.drop place ++ [meter.current] = meter.intervals.drop place :=
    (List.drop_append_of_le_length (meter.reach_le _)).symm
  obtain ⟨first, head⟩ :
      ∃ first, (meter.closed.drop place ++ [meter.current]).head? = some first :=
    Option.isSome_iff_exists.1 (by simp)
  have tiled : (meter.closed.drop place ++ [meter.current]).IsChain Follows :=
    there ▸ kept.tiled.drop place
  have elapsed := durations_of_tiled tiled kept.running kept.started head
  rw [there] at elapsed head
  have counted : (meter.intervals.drop place).foldr (·.operations + ·) 0 =
      increments (((log.retained count).drop place).flatMap (·.calls)) :=
    foldr_of_spans rfl increments_append
      ((List.forall₂_drop place kept.mirrored).imp fun _ _ mirrors => mirrors.operations)
  refine ⟨first.start, ?_, ?_⟩
  · rw [← List.head?_drop, head]
    rfl
  · have lasted :
        (meter.intervals.drop place).foldr (·.duration now + ·) 0 = now - first.start := by omega
    have fewer := (increments_drop_retained_le log count place).trans few
    rw [covered, speedOver_eq counted lasted fewer ((Nat.sub_le _ _).trans inTime), Nat.mul_comm]
    have zero : now - first.start = 0 ↔ now = first.start := by omega
    simp only [zero]

theorem total_le_mul {values : List Nat} {bound : Nat} (le : total values ≤ bound) :
    total values ≤ bound * values.length := by
  cases values with
  | nil => exact Nat.zero_le _
  | cons value values => exact le.trans (Nat.le_mul_of_pos_right bound (Nat.succ_pos _))

theorem total_spans_le {spans : List Span} {bound : Nat}
    (le : ∀ span ∈ spans, total (samples span.calls) ≤ bound) :
    let values := samples (spans.flatMap (·.calls))
    total values ≤ bound * values.length := by
  induction spans with
  | nil => exact Nat.zero_le _
  | cons span spans ih =>
      obtain ⟨first, others⟩ := List.forall_mem_cons.1 le
      simp only [List.flatMap_cons, samples_append, total_append, List.length_append, Nat.mul_add]
      exact Nat.add_le_add (total_le_mul first) (ih others)

theorem Kept.average (kept : Kept length count now log meter)
    (exact : ∀ span ∈ log.retained count, total (samples span.calls) ≤ largest64) :
    let values := samples ((log.retained count).flatMap (·.calls))
    meter.average = if values = [] then 0 else total values / values.length := by
  intro values
  have counts : meter.intervals.foldr (·.samples + ·) 0 = values.length :=
    @foldr_of_spans _ _ (·.samples) (fun calls => (samples calls).length) rfl
      (fun calls others => by rw [samples_append, List.length_append])
      (kept.mirrored.imp fun _ _ mirrors => mirrors.count)
  have sums : meter.intervals.foldr (·.sum + ·) 0 = total values :=
    @foldr_of_spans _ _ (·.sum) (fun calls => total (samples calls)) rfl
      (fun calls others => by rw [samples_append, total_append])
      (((List.forall₂_and_left _ _).2 ⟨exact, kept.mirrored⟩).imp fun _ _ ⟨le, mirrors⟩ =>
        mirrors.sum.trans (saturate_of_le le))
  have bound : total values / values.length ≤ largest64 :=
    Nat.div_le_of_le_mul (Nat.mul_comm _ _ ▸ total_spans_le exact)
  rw [Meter.average, ← intervals, counts, sums, saturate_of_le bound]
  simp only [List.length_eq_zero_iff]

/-- Along any run of plain calls at times that never go back, every call is in the span of one
interval, and the retained intervals leave no gaps and have counted just what was done in the last
spans. The speed is that of the operations since the oldest retained interval was opened that, once
a due interval is closed, ended within the window, and zero if it was opened right now. The average
is that of the samples since the oldest retained interval was opened, rounded down, and zero if
there are none. An interval lasts at least one nanosecond, and at least one is retained. -/
theorem readings_of_run (intervalNanos maxIntervals start : Nat) {calls : List TimedCall}
    {now : Nat} (plain : ∀ made ∈ calls, made.call.isPlain = true)
    (ordered : (start :: (calls.map (·.now) ++ [now])).IsChain (· ≤ ·))
    (inTime : now ≤ largest64) (few : increments calls ≤ largest64) :
    let length := max (saturate intervalNanos) 1
    let count := max maxIntervals 1
    let meter := (new intervalNanos maxIntervals start).run calls
    let log := (SpanLog.starting start).run length calls
    let read := (meter.readSpeed now).2
    let asked := log.after length { call := .readSpeed, now }
    let place := read.reach (now - length * count)
    log.all.flatMap (·.calls) = calls ∧ Kept length count now log meter ∧
      Kept length count now asked read ∧
      (∃ opened, (read.intervals[place]?).map (·.start) = some opened ∧
        (meter.readSpeed now).1 =
          if now = opened then 0
          else saturate (1000000000 *
            increments (((asked.retained count).drop place).flatMap (·.calls)) /
              (now - opened))) ∧
      ((∀ span ∈ log.retained count, total (samples span.calls) ≤ largest64) →
        let values := samples ((log.retained count).flatMap (·.calls))
        meter.average = if values = [] then 0 else total values / values.length) := by
  intro length count meter log read asked place
  have all : log.all.flatMap (·.calls) = calls := SpanLog.run_calls length (.starting start) calls
  have kept : Kept length count now log meter :=
    kept_run intervalNanos maxIntervals plain ordered few
  have total := counter_run_le (new intervalNanos maxIntervals start) plain
  have keptRead : Kept length count now asked read :=
    @Kept.after length count now log meter kept { call := .readSpeed, now } rfl le_rfl
      (total.trans ((Nat.zero_add _).trans_le few))
  refine ⟨all, kept, keptRead, keptRead.speed inTime ?_, kept.average⟩
  rw [SpanLog.after_calls, increments_append, all]
  exact few

theorem readings_of_fourIntervals :
    let calls : List TimedCall :=
      [⟨.increment, 101⟩, ⟨.increment, 105⟩, ⟨.addSample 7, 112⟩, ⟨.increment, 115⟩,
        ⟨.addSample 4, 118⟩, ⟨.average, 119⟩, ⟨.finish, 120⟩, ⟨.increment, 125⟩]
    let meter := (new 10 2 100).run calls
    (∀ made ∈ calls, made.call.isPlain = true) ∧
      (100 :: (calls.map (·.now) ++ [133])).IsChain (· ≤ ·) ∧ 133 ≤ largest64 ∧
      increments calls ≤ largest64 ∧ (meter.readSpeed 133).1 = 1000000000 * 2 / (133 - 112) ∧
      meter.average = (7 + 4) / 2 := by
  intro calls meter
  have plain : ∀ made ∈ calls, made.call.isPlain = true := by decide
  have ordered : (100 :: (calls.map (·.now) ++ [133])).IsChain (· ≤ ·) := by decide
  have inTime : 133 ≤ largest64 := by decide
  have few : increments calls ≤ largest64 := by decide
  obtain ⟨-, -, -, ⟨opened, there, speed⟩, average⟩ :=
    readings_of_run 10 2 100 plain ordered inTime few
  have second : some 112 = some opened := there
  cases second
  exact ⟨plain, ordered, inTime, few, speed.trans (by decide), average (by decide)⟩

end Meter

end Durability
