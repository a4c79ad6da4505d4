import Durability.Proofs.Throttle.MeterIntervals
import Durability.Proofs.Throttle.PolicyRun
import Durability.Proofs.Throttle.PressureWarnings
import Durability.Proofs.Throttle.SpeedDivision

/-! Parks and completed pages. But for the checkpoint buffer, writers are held back only in relation
to the speed at which checkpoints complete pages. As long as none has completed a page that speed is
zero: then it sets no limit, and the other limit, which is told from it, cannot be told. So a writer
parks only if the meter of completed pages has counted one in the intervals that it retains. -/

namespace Durability

/-! ### What a meter has counted -/

namespace Meter

/-- The operations in the retained intervals and the current one. -/
def counted (meter : Meter) : Nat := meter.intervals.foldr (·.operations + ·) 0

def lasted (meter : Meter) (now : Nat) : Nat := meter.intervals.foldr (·.duration now + ·) 0

theorem foldr_pos_iff (told : Interval → Nat) (intervals : List Interval) :
    0 < intervals.foldr (told · + ·) 0 ↔ ∃ interval ∈ intervals, 0 < told interval := by
  induction intervals with
  | nil => simp
  | cons interval intervals ih =>
      rw [List.foldr_cons, Nat.add_pos_iff_pos_or_pos, ih, List.exists_mem_cons_iff]

theorem pos_of_covered {meter : Meter} {now : Nat} {told : Interval → Nat}
    (above : (meter.covered now).foldl (fun sum interval => saturate (sum + told interval)) 0 ≠ 0) :
    0 < meter.intervals.foldr (told · + ·) 0 := by
  have sums : (meter.covered now).foldl (fun sum interval => saturate (sum + told interval)) 0 =
      saturate (0 + (meter.covered now).foldr (told · + ·) 0) := foldl_saturate told _ 0
  have pos : 0 < (meter.covered now).foldr (told · + ·) 0 := by
    refine Nat.pos_of_ne_zero fun zero => above ?_
    rw [sums, zero]
    rfl
  obtain ⟨interval, member, told⟩ := (foldr_pos_iff _ _).mp pos
  exact (foldr_pos_iff _ _).mpr ⟨interval, meter.covered_subset now member, told⟩

theorem counted_of_speed {meter : Meter} {now : Nat}
    (moves : 0 < speedOver (meter.covered now) now) : 0 < meter.counted ∧ 0 < meter.lasted now := by
  simp only [speedOver] at moves
  split at moves
  · cases moves
  · next elapsed =>
      refine ⟨@pos_of_covered meter now _ fun still => ?_, pos_of_covered elapsed⟩
      rw [still, Nat.zero_mul, Nat.zero_div] at moves
      cases moves

theorem risen_of_counted {intervalNanos maxIntervals start : Nat} {calls : List TimedCall}
    (uncounted : increments calls = 0)
    (risen : 0 < ((new intervalNanos maxIntervals start).run calls).counted) :
    ∃ interval ∈ ((new intervalNanos maxIntervals start).run calls).intervals,
      interval.initial < interval.counter ∧ interval.counter ∈ totals calls := by
  obtain ⟨interval, member, counts⟩ := (foldr_pos_iff _ _).mp risen
  have rises : interval.initial < interval.counter := Nat.lt_of_sub_pos counts
  obtain ⟨total, set, least, most⟩ :=
    (traced_run (neverFull_of_uncounted uncounted) interval member).origin
  rw [uncounted, Nat.add_zero] at most
  obtain rfl : interval.counter = total := Nat.le_antisymm most least
  have above : interval.counter ≠ 0 := (Nat.zero_le _).trans_lt rises |>.ne'
  exact ⟨interval, member, rises, (List.mem_cons.mp set).resolve_left above⟩

end Meter

/-! ### Decisions and the speed of checkpoints -/

namespace CleanPages

theorem delayBy_of_still (dirtyRatio targetRatio : Float) (threads markSpeed : Nat) :
    delayBy .plain dirtyRatio targetRatio 0 threads markSpeed 0 = pure 0 := by
  simp [delayBy, allowanceBy, delayIf]

theorem parkNanosAt_of_still (pages : CleanPages) (memory : PageMemory)
    (progress : ProgressSnapshot) (written markSpeed : Nat) :
    (pages.parkNanosAt memory progress written markSpeed 0).1 = 0 := by
  have unknown (completed total : Nat) :
      markAllSpeedBy .plain memory.totalPages memory.dirtyRatio completed total 0 = pure 0 :=
    if_pos (.inl rfl)
  simp only [parkNanosAt, parkNanosAtBy, parkNanosBy, unknown, pure_bind, delayBy_of_still]
  split
  · rfl
  · split <;> rfl

theorem writes_parkNanosAt (pages : CleanPages) (memory : PageMemory)
    (progress : ProgressSnapshot) (written markSpeed writeSpeed : Nat) :
    (pages.parkNanosAt memory progress written markSpeed writeSpeed).2.writes = pages.writes := by
  simp only [parkNanosAt, parkNanosAtBy, noteWriteStart]
  split_ifs <;> rfl

def completed? (progress : Option ProgressSnapshot) : Option Nat :=
  progress.bind fun seen => seen.written.map fun written => completedPages written seen.synced

def reports (progress : Option ProgressSnapshot) (now : Nat) : List Meter.TimedCall :=
  match completed? progress with
  | none => []
  | some completed =>
    [{ call := .setCounter completed, now }, { call := .readSpeed, now }]

variable (pages : CleanPages) (marks : Meter) (memory : PageMemory)
  (progress : Option ProgressSnapshot) (thread now : Nat)

theorem writes_protect :
    (pages.protect marks memory progress thread now).2.1.writes =
      pages.writes.run (reports progress now) := by
  cases seen : progress.bind (·.written) with
  | none =>
      have nothing : completed? progress = none := by
        cases progress with
        | none => rfl
        | some progress => exact congrArg (Option.map _) seen
      rw [protect_of_unwritten _ _ _ seen, reports, nothing]
      rfl
  | some written =>
      obtain ⟨progress, rfl, writing⟩ := Option.bind_eq_some_iff.mp seen
      rw [protect_of_writing _ _ _ writing]
      simp only [writes_parkNanosAt, reports, completed?, Option.bind_some, writing,
        Option.map_some]
      rfl

theorem speed_of_protect
    (parks : (pages.protect marks memory progress thread now).1.isParked = true) :
    let writes := (pages.protect marks memory progress thread now).2.1.writes
    0 < Meter.speedOver (writes.covered now) now := by
  cases seen : progress.bind (·.written) with
  | none =>
      rw [protect_of_unwritten _ _ _ seen] at parks
      cases parks
  | some written =>
      obtain ⟨progress, rfl, writing⟩ := Option.bind_eq_some_iff.mp seen
      rw [protect_of_writing _ _ _ writing] at parks ⊢
      simp only [writes_parkNanosAt] at parks ⊢
      refine Nat.pos_of_ne_zero fun still => ?_
      simp only [Meter.readSpeed] at parks still
      rw [still, parkNanosAt_of_still] at parks
      cases parks

end CleanPages

namespace Policy

theorem decideSpeed_answer (throttle : SpeedThrottle) (memory : PageMemory)
    (progress : Option ProgressSnapshot) (inCheckpoint : Bool) (thread now : Nat) :
    let decision := (decideSpeed throttle memory progress inCheckpoint thread now).1
    decision.answer = (throttle.decide memory progress inCheckpoint thread now).1 ∧
      decision.park.isSome = decision.answer.isParked := by
  simp only [decideSpeed]
  split
  · next found => exact ⟨(congrArg Prod.fst found).symm, rfl⟩
  · next nanos other found =>
      by_cases idle : nanos = 0
      · subst idle
        exact ⟨(congrArg Prod.fst found).symm, rfl⟩
      · simp only [if_neg idle]
        exact ⟨(congrArg Prod.fst found).symm, (decide_eq_true (Nat.pos_of_ne_zero idle)).symm⟩

end Policy

/-! ### Runs of a throttle -/

namespace SpeedThrottle

/-- What a throttle is asked to do. A mark is made in steps, between which others may come in: the
writer is decided on, finds out whether to warn, warns if it is to, and goes on in the end. -/
inductive Call where
  | decide (memory : PageMemory) (progress : Option ProgressSnapshot) (inCheckpoint : Bool)
      (thread : Nat)
  | check (check : WarningCheck)
  | tell (memory : PageMemory) (progress : Option ProgressSnapshot) (weight : Float)
  | record (nanos : Nat)
  | begin
  | finish
  | relax
  | readMarkSpeed
  | readWriteSpeed
  | readWeight

def after (throttle : SpeedThrottle) (now : Nat) : Call → SpeedThrottle
  | .decide memory progress inCheckpoint thread =>
    (throttle.decide memory progress inCheckpoint thread now).2
  | .check check => (check.step now throttle).2
  | .tell memory progress weight => (throttle.readPressure memory progress weight now).2
  | .record nanos => throttle.record nanos now
  | .begin => throttle.begin now
  | .finish => throttle.finish now
  | .relax => throttle.relax
  | .readMarkSpeed => (throttle.readMarkSpeed now).2
  | .readWriteSpeed => (throttle.readWriteSpeed now).2
  | .readWeight => (throttle.readWeight now).2

def run (throttle : SpeedThrottle) (calls : List (Nat × Call)) : SpeedThrottle :=
  calls.foldl (fun throttle (now, call) => throttle.after now call) throttle

theorem run_append (throttle : SpeedThrottle) (calls others : List (Nat × Call)) :
    throttle.run (calls ++ others) = (throttle.run calls).run others := List.foldl_append

def heard (threshold : Float) (now : Nat) : Call → List Meter.TimedCall
  | .decide memory progress inCheckpoint _ =>
    if inCheckpoint && memory.bufferOverflows threshold then []
    else CleanPages.reports progress now
  | .begin => [{ call := .restart 0, now }]
  | .finish => [{ call := .finish, now }]
  | .tell .. | .readWriteSpeed => [{ call := .readSpeed, now }]
  | .check _ | .record _ | .relax | .readMarkSpeed | .readWeight => []

def Call.completed? : Call → Option Nat
  | .decide _ progress _ _ => CleanPages.completed? progress
  | _ => none

def completions (calls : List (Nat × Call)) : List Nat := calls.filterMap (·.2.completed?)

def heardIn (threshold : Float) (calls : List (Nat × Call)) : List Meter.TimedCall :=
  calls.flatMap fun (now, call) => heard threshold now call

theorem heardIn_concat (threshold : Float) (calls : List (Nat × Call)) (now : Nat) (call : Call) :
    heardIn threshold (calls ++ [(now, call)]) =
      heardIn threshold calls ++ heard threshold now call := by
  simp only [heardIn, List.flatMap_append, List.flatMap_singleton]

theorem decideSpeed_eq_run (throttle : SpeedThrottle) (memory : PageMemory)
    (progress : Option ProgressSnapshot) (inCheckpoint : Bool) (thread now : Nat) :
    ∃ calls : List Call,
      (Policy.decideSpeed throttle memory progress inCheckpoint thread now).2 =
        throttle.run
          ((.decide memory progress inCheckpoint thread :: calls).map fun call => (now, call)) := by
  simp only [Policy.decideSpeed]
  split
  · next other found => exact ⟨[], by simp [run, after, found]⟩
  · next nanos other found =>
      split
      · exact ⟨[], by simp [run, after, found]⟩
      · let first := WarningCheck.step now other .start
        let second := WarningCheck.step now first.2 first.1
        let third := WarningCheck.step now second.2 second.1
        let checks : List Call :=
          [.check .start, .check first.1, .check second.1, .check third.1]
        have checked : (WarningCheck.run now other).2 =
            throttle.run ((.decide memory progress inCheckpoint thread :: checks).map
              fun call => (now, call)) := by
          simp only [checks, run, List.map_cons, List.map_nil, List.foldl_cons, List.foldl_nil,
            after, found, WarningCheck.run]
          split <;> rfl
        simp only [warn]
        split
        · next due =>
            rw [due] at checked
            exact ⟨checks, checked⟩
        · next time weight later due =>
            rw [due] at checked
            refine ⟨checks ++ [.tell memory progress weight], ?_⟩
            rw [← List.cons_append, List.map_append, run_append, ← checked]
            rfl

theorem speed_of_decide {throttle : SpeedThrottle} {memory : PageMemory} {inCheckpoint : Bool}
    (room : (inCheckpoint && throttle.bufferOverflows memory) = false)
    {progress : Option ProgressSnapshot} {thread now : Nat}
    (parks : (throttle.decide memory progress inCheckpoint thread now).1.isParked = true) :
    let writes := (throttle.decide memory progress inCheckpoint thread now).2.cleanPages.writes
    0 < Meter.speedOver (writes.covered now) now := by
  rw [decide_of_room room] at parks ⊢
  exact CleanPages.speed_of_protect _ _ _ _ _ _ parks

theorem writes_after (throttle : SpeedThrottle) (now : Nat) (call : Call) :
    (throttle.after now call).cleanPages.writes =
        throttle.cleanPages.writes.run (heard throttle.bufferFillThreshold now call) ∧
      (throttle.after now call).bufferFillThreshold = throttle.bufferFillThreshold := by
  cases call with
  | decide memory progress inCheckpoint thread =>
      refine ⟨?_, (throttle.agrees_decide memory progress inCheckpoint thread now).2⟩
      cases full : inCheckpoint && throttle.bufferOverflows memory with
      | true =>
          have overflows : (inCheckpoint &&
              memory.bufferOverflows throttle.bufferFillThreshold) = true := full
          simp only [after, decide_of_full full, heard, overflows]
          rfl
      | false =>
          have room : (inCheckpoint &&
              memory.bufferOverflows throttle.bufferFillThreshold) = false := full
          simp only [after, decide_of_room full, heard, room]
          exact CleanPages.writes_protect _ _ _ _ _ _
  | check check =>
      let kept (other : SpeedThrottle) : Prop :=
        other.cleanPages.writes = throttle.cleanPages.writes ∧
          other.bufferFillThreshold = throttle.bufferFillThreshold
      exact kept_step (fun _ _ => id) (fun _ _ => id) now (show kept throttle from ⟨rfl, rfl⟩) check
  | readWeight =>
      rw [after, readWeight_snd]
      exact ⟨rfl, rfl⟩
  | tell | record | begin | finish | relax | readMarkSpeed | readWriteSpeed => exact ⟨rfl, rfl⟩

theorem writes_run (throttle : SpeedThrottle) (calls : List (Nat × Call)) :
    (throttle.run calls).cleanPages.writes =
        throttle.cleanPages.writes.run (heardIn throttle.bufferFillThreshold calls) ∧
      (throttle.run calls).bufferFillThreshold = throttle.bufferFillThreshold := by
  induction calls generalizing throttle with
  | nil => exact ⟨rfl, rfl⟩
  | cons made calls ih =>
      obtain ⟨now, call⟩ := made
      obtain ⟨writes, threshold⟩ := throttle.writes_after now call
      obtain ⟨rest, last⟩ := ih (throttle.after now call)
      rw [writes, threshold, ← Meter.run_append] at rest
      exact ⟨rest, last.trans threshold⟩

theorem increments_heard (threshold : Float) (now : Nat) (call : Call) :
    Meter.increments (heard threshold now call) = 0 := by
  cases call with
  | decide memory progress inCheckpoint thread =>
      simp only [heard, CleanPages.reports]
      split
      · rfl
      · split <;> rfl
  | _ => rfl

theorem increments_heardIn (threshold : Float) (calls : List (Nat × Call)) :
    Meter.increments (heardIn threshold calls) = 0 := by
  induction calls with
  | nil => rfl
  | cons made calls ih =>
      rw [heardIn, List.flatMap_cons, Meter.increments_append, increments_heard, Nat.zero_add]
      exact ih

theorem total_of_heard {threshold : Float} {now : Nat} {call : Call} {made : Meter.TimedCall}
    (member : made ∈ heard threshold now call) {total : Nat}
    (set : made.call.total? = some total) : total = 0 ∨ call.completed? = some total := by
  cases call with
  | decide memory progress inCheckpoint thread =>
      simp only [heard, CleanPages.reports] at member
      split at member
      · cases member
      · split at member
        · cases member
        · next completed seen =>
            obtain rfl | rfl : _ ∨ _ := by simpa using member
            · cases set
              exact .inr seen
            · cases set
  | tell | finish | readWriteSpeed =>
      obtain rfl := List.mem_singleton.mp member
      cases set
  | begin =>
      obtain rfl := List.mem_singleton.mp member
      cases set
      exact .inl rfl
  | check | record | relax | readMarkSpeed | readWeight => cases member

theorem totals_heardIn {threshold : Float} {calls : List (Nat × Call)} {total : Nat}
    (told : total ∈ Meter.totals (heardIn threshold calls)) :
    total = 0 ∨ total ∈ completions calls := by
  obtain ⟨made, member, set⟩ := List.mem_filterMap.mp told
  obtain ⟨entry, among, heard⟩ := List.mem_flatMap.mp member
  exact (total_of_heard heard set).imp_right fun seen =>
    List.mem_filterMap.mpr ⟨entry, among, seen⟩

theorem seen_of_counted {threshold : Float} {calls : List (Nat × Call)} {retained built : Nat}
    (risen : 0 < ((Meter.manual retained built).run (heardIn threshold calls)).counted) :
    ∃ interval ∈ ((Meter.manual retained built).run (heardIn threshold calls)).intervals,
      interval.initial < interval.counter ∧ interval.counter ∈ completions calls := by
  obtain ⟨interval, member, rises, set⟩ :=
    Meter.risen_of_counted (increments_heardIn threshold calls) risen
  have above : interval.counter ≠ 0 := (Nat.zero_lt_of_lt rises).ne'
  exact ⟨interval, member, rises, (totals_heardIn set).resolve_left above⟩

/-- Along any run of calls at any times, whatever the page memory and the checkpoint look like, and
whatever threads and marks are counted: a writer that the checkpoint buffer does not hold back is
given a time to park only if by then the meter of completed pages has counted a completed page in
its retained intervals, over some time. In one of them it has risen to what a call has seen
completed. As long as no call has seen a completed page, such writers do not park. And no speed of
zero is divided by, be it for the time to park or for the weight of throttling. -/
theorem completed_of_parked (options : ThrottleOptions) (built : Nat) (calls : List (Nat × Call))
    (marks : Meter) (threads : List Nat) (memory : PageMemory)
    (progress : Option ProgressSnapshot) (inCheckpoint : Bool) (thread now : Nat) :
    let made := calls ++ [(now, .decide memory progress inCheckpoint thread)]
    let before := (new options built).run calls
    let throttle : SpeedThrottle :=
      { before with marks, cleanPages := { before.cleanPages with threads } }
    let decided := throttle.decide memory progress inCheckpoint thread now
    let decision := (Policy.decideSpeed throttle memory progress inCheckpoint thread now).1
    let writes := (Meter.manual 3 built).run (heardIn options.bufferFillThreshold made)
    decided.2.cleanPages.writes = writes ∧
      ((inCheckpoint && memory.bufferOverflows options.bufferFillThreshold) = false →
        (decision.answer.isParked = true →
          0 < writes.counted ∧ 0 < writes.lasted now ∧
            ∃ interval ∈ writes.intervals, interval.initial < interval.counter ∧
              interval.counter ∈ completions made) ∧
        ((∀ completed ∈ completions made, completed = 0) →
          decision.answer.isParked = false ∧ decision.park = none)) ∧
      throttle.decide? memory progress inCheckpoint thread now = some decided ∧
      throttle.readWeight? now = some (throttle.readWeight now) := by
  intro made before throttle decided decision writes
  obtain ⟨sofar, threshold⟩ := (new options built).writes_run calls
  have same : throttle.bufferFillThreshold = options.bufferFillThreshold := threshold
  have metered : decided.2.cleanPages.writes = writes := by
    have last := (throttle.writes_after now (.decide memory progress inCheckpoint thread)).1
    simp only [writes, made, heardIn_concat, Meter.run_append]
    rw [same] at last
    exact last.trans (congrArg (Meter.run · _) sofar)
  refine ⟨metered, fun room => ?_, decideBy_eq .checked _ _ _ _ _ _,
    readWeightBy_eq .checked _ _⟩
  obtain ⟨answer, parks⟩ :=
    Policy.decideSpeed_answer throttle memory progress inCheckpoint thread now
  have counted (parked : decision.answer.isParked = true) :
      0 < writes.counted ∧ 0 < writes.lasted now := by
    have fits : (inCheckpoint && throttle.bufferOverflows memory) = false := by
      rw [← room, ← same]
      rfl
    have moves := speed_of_decide fits (answer ▸ parked)
    rw [← metered]
    exact Meter.counted_of_speed moves
  refine ⟨fun parked => ?_, fun nothing => ?_⟩
  · obtain ⟨pages, lasted⟩ := counted parked
    exact ⟨pages, lasted, seen_of_counted pages⟩
  · have stays : decision.answer.isParked = false := by
      refine Bool.eq_false_iff.mpr fun parked => ?_
      obtain ⟨interval, -, rises, seen⟩ := seen_of_counted (counted parked).1
      exact absurd (nothing _ seen ▸ rises) (Nat.not_lt_zero _)
    have awake := Option.isSome_eq_false_iff.mp (parks.trans stays)
    exact ⟨stays, Option.isNone_iff_eq_none.mp awake⟩

/-- Where the dirty ratio is not a number, a writer in the checkpoint, one of two threads, parks
because marking outpaces two pages completed in a tenth of a second. It does not park while none is
completed. -/
theorem completed_of_parked_withoutRatio :
    let memory : PageMemory :=
      { bufferCount := 100, bufferSize := 300, totalPages := 1000, dirtyRatio := 0.0 / 0.0 }
    let seen (pages : Nat) : Option ProgressSnapshot :=
      some { written := some pages, synced := pages, evicted := 0, total := 100 }
    let options : ThrottleOptions := .default
    let calls : List (Nat × Call) :=
      (0, .begin) :: List.replicate 5 (0, .decide memory (seen 0) false 7)
    let before := (new options 0).run calls
    let throttle : SpeedThrottle :=
      { before with
        marks := before.marks
        cleanPages := { before.cleanPages with threads := [7, 8] } }
    let decision (pages : Nat) :=
      (Policy.decideSpeed throttle memory (seen pages) true 7 100000000).1
    let writes := (Meter.manual 3 0).run (heardIn options.bufferFillThreshold
      (calls ++ [(100000000, .decide memory (seen 2) true 7)]))
    (true && memory.bufferOverflows options.bufferFillThreshold) = false ∧
      (decision 2).answer = .measured 100000000 ∧ writes.counted = 2 ∧
      0 < writes.lasted 100000000 ∧ (decision 0).park = none := by
  intro memory seen options calls before throttle decision writes
  have room : (true && memory.bufferOverflows options.bufferFillThreshold) = false := by
    decide +kernel
  have answer : (decision 2).answer = .measured 100000000 := by decide +kernel
  have parked : (decision 2).answer.isParked = true := answer ▸ rfl
  have nothing : ∀ completed ∈ completions (calls ++ [(100000000, .decide memory (seen 0) true 7)]),
      completed = 0 := by decide +kernel
  obtain ⟨-, parks, -⟩ :=
    completed_of_parked options 0 calls before.marks [7, 8] memory (seen 2) true 7 100000000
  obtain ⟨-, stays, -⟩ :=
    completed_of_parked options 0 calls before.marks [7, 8] memory (seen 0) true 7 100000000
  obtain ⟨-, lasted, -⟩ := (parks room).1 parked
  exact ⟨room, answer, by decide +kernel, lasted, ((stays room).2 nothing).2⟩

end SpeedThrottle

end Durability
