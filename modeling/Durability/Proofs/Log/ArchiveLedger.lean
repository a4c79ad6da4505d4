import Durability.Proofs.Log.SharedLog

/-! The archive as a ledger. Reports of sizes reach it from clients and from truncations, and
nothing else changes what is recorded. Of a bounded archive two facts are kept by every report: a
tracked segment has bytes, and the total is the sum of the tracked sizes. What is recorded for one
segment depends on the reports about it alone. -/

namespace Durability

inductive SizeReport where
  | change (segment : Nat) (bytes : Int)
  | reset
  deriving DecidableEq, Repr

namespace SizeReport

/-- What is recorded for `segment` after a report, if it was `bytes` before. -/
def recorded (segment : Nat) (bytes : Int) : SizeReport → Int
  | .change other more => if other = segment then bytes + more else bytes
  | .reset => 0

def recordedAll (segment : Nat) (bytes : Int) (reports : List SizeReport) : Int :=
  reports.foldl (recorded segment) bytes

def tracked? (bytes : Int) : Option Int := if bytes = 0 then none else some bytes

theorem tracked?_inj {first second : Int} : tracked? first = tracked? second ↔ first = second := by
  unfold tracked?
  by_cases none : first = 0 <;> by_cases other : second = 0 <;> simp [none, other, eq_comm]

theorem recordedAll_append (segment : Nat) (bytes : Int) (first second : List SizeReport) :
    recordedAll segment bytes (first ++ second) =
      recordedAll segment (recordedAll segment bytes first) second :=
  List.foldl_append

theorem recordedAll_add (segment : Nat) (bytes more : Int) (reports : List SizeReport) :
    recordedAll segment (bytes + more) reports =
      recordedAll segment bytes reports + if .reset ∈ reports then 0 else more := by
  induction reports generalizing bytes with
  | nil => rfl
  | cons report reports ih =>
      cases report with
      | reset =>
          have void : recordedAll segment (bytes + more) (.reset :: reports) =
              recordedAll segment bytes (.reset :: reports) := rfl
          rw [void, if_pos List.mem_cons_self, Int.add_zero]
      | change other added =>
          have moved : recorded segment (bytes + more) (.change other added) =
              recorded segment bytes (.change other added) + more := by
            simp only [recorded]
            by_cases same : other = segment
            · rw [if_pos same, if_pos same]
              omega
            · rw [if_neg same, if_neg same]
          have still : (SizeReport.reset ∈ SizeReport.change other added :: reports) =
              (SizeReport.reset ∈ reports) := by simp
          change recordedAll segment (recorded segment (bytes + more) _) reports = _
          rw [moved, ih, ite_congr still (fun _ => rfl) (fun _ => rfl)]
          rfl

end SizeReport

namespace Archive

def bytesOf (segments : List (Nat × Int)) : Int := segments.foldr (fun entry sum => entry.2 + sum) 0

def bytesAt (archive : Archive) (segment : Nat) : Int := (archive.segmentSize? segment).getD 0

def record (archive : Archive) : SizeReport → Archive
  | .change segment bytes => archive.addSize segment bytes
  | .reset => archive.resetSizes

theorem bytesOf_append (first second : List (Nat × Int)) :
    bytesOf (first ++ second) = bytesOf first + bytesOf second := by
  induction first with
  | nil => simp [bytesOf]
  | cons entry first ih =>
      change entry.2 + bytesOf (first ++ second) = entry.2 + bytesOf first + bytesOf second
      omega

theorem bytesOf_split (sizes : KeyMap Nat Int) (segment : Nat) :
    bytesOf sizes.entries =
      bytesOf (sizes.below segment) + (sizes.find? segment).getD 0 +
        bytesOf (sizes.above segment) := by
  have own : bytesOf ((sizes.find? segment).map fun size => (segment, size)).toList =
      (sizes.find? segment).getD 0 := by
    cases sizes.find? segment <;> simp [bytesOf]
  calc bytesOf sizes.entries
      = bytesOf (sizes.below segment ++
          ((sizes.find? segment).map fun size => (segment, size)).toList ++
          sizes.above segment) := congrArg bytesOf (sizes.entries_split segment)
    _ = _ := by rw [bytesOf_append, bytesOf_append, own]

theorem bytesOf_adjust (sizes : KeyMap Nat Int) (segment : Nat) (change : Int) :
    bytesOf (adjust sizes segment change).entries = bytesOf sizes.entries + change := by
  rw [bytesOf_split sizes segment]
  unfold adjust
  by_cases none : (sizes.find? segment).getD 0 + change = 0
  · rw [if_pos none]
    change bytesOf (sizes.below segment ++ sizes.above segment) = _
    rw [bytesOf_append]
    omega
  · rw [if_neg none]
    change bytesOf (sizes.below segment ++ (segment, _) :: sizes.above segment) = _
    rw [bytesOf_append]
    change _ + ((sizes.find? segment).getD 0 + change + bytesOf (sizes.above segment)) = _
    omega

theorem addSize_sizes {archive : Archive} (bounded : archive.isUnlimited = false) (segment : Nat)
    (change : Int) :
    (archive.addSize segment change).sizes = adjust archive.sizes segment change := by
  simp only [addSize, bounded, Bool.false_eq_true, if_false]

theorem find?_adjust (sizes : KeyMap Nat Int) (segment : Nat) (change : Int) (other : Nat) :
    ((adjust sizes segment change).find? other).getD 0 =
      if segment = other then (sizes.find? other).getD 0 + change
      else (sizes.find? other).getD 0 := by
  unfold adjust
  by_cases same : segment = other
  · subst same
    rw [if_pos rfl]
    by_cases none : (sizes.find? segment).getD 0 + change = 0
    · rw [if_pos none, KeyMap.find?_erase, if_pos rfl, none]
      rfl
    · rw [if_neg none, KeyMap.find?_insert, if_pos rfl]
      rfl
  · have different : ¬ other = segment := fun equal => same equal.symm
    rw [if_neg same]
    by_cases none : (sizes.find? segment).getD 0 + change = 0
    · rw [if_pos none, KeyMap.find?_erase, if_neg different]
    · rw [if_neg none, KeyMap.find?_insert, if_neg different]

/-- What every report to a bounded archive keeps: tracked segments have bytes, and together they
are the total. -/
structure Balanced (archive : Archive) : Prop where
  bounded : archive.isUnlimited = false
  nonzero : ∀ entry ∈ archive.segments, entry.2 ≠ 0
  total : archive.total = bytesOf archive.segments

theorem balanced_ofOptions {options : WalOptions} {onOverflow : Overflow}
    (bounded : options.maxArchiveSize.isSome) :
    (ofOptions options onOverflow).Balanced := by
  refine ⟨?_, fun entry member => absurd member List.not_mem_nil, rfl⟩
  obtain ⟨max, limited⟩ := Option.isSome_iff_exists.1 bounded
  simp [isUnlimited, ofOptions, limited]

theorem Balanced.record {archive : Archive} (balanced : archive.Balanced) (report : SizeReport) :
    (archive.record report).Balanced := by
  have bounded := balanced.bounded
  cases report with
  | reset => exact ⟨bounded, fun entry member => absurd member List.not_mem_nil, rfl⟩
  | change segment bytes =>
      have sizes := addSize_sizes bounded segment bytes
      refine ⟨bounded, ?_, ?_⟩
      · intro entry member
        change entry ∈ (archive.addSize segment bytes).sizes.entries at member
        rw [sizes, adjust] at member
        by_cases none : (archive.sizes.find? segment).getD 0 + bytes = 0
        · rw [if_pos none, KeyMap.mem_entries_erase] at member
          exact balanced.nonzero entry member.1
        · rw [if_neg none, KeyMap.mem_entries_insert] at member
          rcases member with rfl | ⟨old, -⟩
          · exact none
          · exact balanced.nonzero entry old
      · change archive.total + bytes = bytesOf (archive.addSize segment bytes).sizes.entries
        rw [sizes, bytesOf_adjust, balanced.total]
        rfl

theorem Balanced.bytesAt_record {archive : Archive} (balanced : archive.Balanced)
    (report : SizeReport) (segment : Nat) :
    (archive.record report).bytesAt segment =
      report.recorded segment (archive.bytesAt segment) := by
  cases report with
  | reset => rfl
  | change other bytes =>
      change ((archive.addSize other bytes).sizes.find? segment).getD 0 = _
      rw [addSize_sizes balanced.bounded, find?_adjust]
      rfl

theorem Balanced.segmentSize? {archive : Archive} (balanced : archive.Balanced) (segment : Nat) :
    archive.segmentSize? segment = SizeReport.tracked? (archive.bytesAt segment) := by
  unfold bytesAt SizeReport.tracked?
  cases found : archive.segmentSize? segment with
  | none => rfl
  | some size =>
      have positive : size ≠ 0 :=
        balanced.nonzero (segment, size) ((KeyMap.find?_eq_some_iff _ _ _).1 found)
      rw [Option.getD_some, if_neg positive]

end Archive

/-! ### Who reports -/

def Segments.sizeReports : Segments.Call → List SizeReport
  | .addSize segment change => [.change segment change]
  | .resetSizes => [.reset]
  | .observe | .reserve _ | .release _ | .raiseFloor _ | .forceRelease _ | .interrupt
  | .resume => []

def Truncation.sizeReports : Truncation → List SizeReport
  | .accounting _ segment size => [.change segment (-size)]
  | .start _ | .listing _ _ | .checking _ | .protecting _ _ _ | .deleting _ _ _ | .done _ => []

/-- Apart from waits for its size, the archive is what the reports made of it. -/
def Archive.AfterReports (before after : Archive) (reports : List SizeReport) : Prop :=
  ∃ interrupted signals, after = { reports.foldl record before with interrupted, signals }

theorem Archive.afterReports_of_eq {before after : Archive} (same : after = before) :
    before.AfterReports after [] :=
  ⟨before.interrupted, before.signals, same⟩

namespace Segments

@[simp] theorem withReservations_archive (segments : Segments) (reservations : Reservations) :
    (segments.withReservations reservations).archive = segments.archive := by
  unfold withReservations
  split <;> rfl

theorem addSize_archive (segments : Segments) (segment : Nat) (change : Int) :
    (segments.addSize segment change).archive = segments.archive.addSize segment change := by
  cases answer : segments.givenUp? segment change with
  | none => rw [addSize_of_none answer]
  | some givenUp =>
      rw [addSize_of_givenUp answer]
      exact withReservations_archive _ _

theorem call_archive (segments : Segments) (call : Call) :
    segments.archive.AfterReports (segments.call call).archive (sizeReports call) := by
  cases call with
  | reserve segment => exact Archive.afterReports_of_eq (withReservations_archive _ _)
  | release segment => exact Archive.afterReports_of_eq (withReservations_archive _ _)
  | raiseFloor segment => exact Archive.afterReports_of_eq rfl
  | forceRelease segment => exact Archive.afterReports_of_eq (withReservations_archive _ _)
  | observe => exact Archive.afterReports_of_eq rfl
  | addSize segment change => exact ⟨_, _, segments.addSize_archive segment change⟩
  | resetSizes => exact ⟨_, _, rfl⟩
  | interrupt => exact ⟨true, _, rfl⟩
  | resume => exact ⟨false, _, rfl⟩

end Segments

theorem Truncation.step_archive (storage : Storage) (segments : Segments)
    (truncation : Truncation) :
    segments.archive.AfterReports (truncation.step storage segments).2.archive
      truncation.sizeReports := by
  cases truncation with
  | start threshold =>
      simp only [step]
      split <;> exact Archive.afterReports_of_eq rfl
  | listing threshold checkpoint => exact Archive.afterReports_of_eq rfl
  | checking progress =>
      simp only [step]
      split
      · exact Archive.afterReports_of_eq rfl
      · split <;> exact Archive.afterReports_of_eq rfl
  | protecting progress segment size =>
      rw [step_protecting]
      exact Archive.afterReports_of_eq rfl
  | deleting progress segment size =>
      simp only [step]
      split <;> exact Archive.afterReports_of_eq rfl
  | accounting progress segment size => exact ⟨_, _, segments.addSize_archive segment (-size)⟩
  | done result => exact Archive.afterReports_of_eq rfl

namespace SharedLog

def sizeReports (log : SharedLog) : Turn → List SizeReport
  | .call call => Segments.sizeReports call
  | .truncate _ => []
  | .advance number _ =>
    match log.truncations[number]? with
    | none => []
    | some truncation => truncation.sizeReports

theorem turn_archive (log : SharedLog) (turn : Turn) :
    log.segments.archive.AfterReports (log.turn turn).segments.archive (log.sizeReports turn) := by
  cases turn with
  | call call => exact log.segments.call_archive call
  | truncate threshold => exact Archive.afterReports_of_eq rfl
  | advance number storage =>
      simp only [SharedLog.turn, sizeReports]
      cases log.truncations[number]? with
      | none => exact Archive.afterReports_of_eq rfl
      | some truncation => exact truncation.step_archive storage log.segments

end SharedLog

namespace Archive

variable {before after : Archive} {reports : List SizeReport}

theorem Balanced.recordAll (balanced : before.Balanced) (reports : List SizeReport) :
    (reports.foldl Archive.record before).Balanced := by
  induction reports generalizing before with
  | nil => exact balanced
  | cons report reports ih => exact ih (balanced.record report)

theorem Balanced.afterReports (balanced : before.Balanced)
    (follows : before.AfterReports after reports) : after.Balanced := by
  obtain ⟨interrupted, signals, rfl⟩ := follows
  have kept := balanced.recordAll reports
  exact ⟨kept.bounded, kept.nonzero, kept.total⟩

theorem Balanced.bytesAt_afterReports (balanced : before.Balanced)
    (follows : before.AfterReports after reports) (segment : Nat) :
    after.bytesAt segment = SizeReport.recordedAll segment (before.bytesAt segment) reports := by
  obtain ⟨interrupted, signals, rfl⟩ := follows
  change (reports.foldl Archive.record before).bytesAt segment = _
  induction reports generalizing before with
  | nil => rfl
  | cons report reports ih =>
      rw [List.foldl_cons, ih (balanced.record report), balanced.bytesAt_record]
      rfl

theorem window_afterReports (follows : before.AfterReports after reports) :
    after.window = before.window := by
  obtain ⟨interrupted, signals, rfl⟩ := follows
  change (reports.foldl record before).window = _
  induction reports generalizing before with
  | nil => rfl
  | cons report reports ih =>
      rw [List.foldl_cons, ih]
      cases report <;> rfl

end Archive

namespace SharedLog

theorem balanced_ofOptions {options : WalOptions} {onOverflow : Overflow}
    (bounded : options.maxArchiveSize.isSome) :
    (ofOptions options onOverflow).segments.archive.Balanced :=
  Archive.balanced_ofOptions bounded

theorem balanced_run {log : SharedLog} (balanced : log.segments.archive.Balanced)
    (turns : List Turn) : (log.run turns).segments.archive.Balanced := by
  induction turns generalizing log with
  | nil => exact balanced
  | cons turn turns ih => exact ih (balanced.afterReports (log.turn_archive turn))

theorem window_run (log : SharedLog) (turns : List Turn) :
    (log.run turns).segments.archive.window = log.segments.archive.window := by
  induction turns generalizing log with
  | nil => rfl
  | cons turn turns ih =>
      exact (ih (log.turn turn)).trans (Archive.window_afterReports (log.turn_archive turn))

end SharedLog

end Durability
