import Durability.Proofs.Log.DeletedSegment
import Mathlib.Data.List.DropRight

/-! The sizes of an archive over whole runs. All reports that reach the archive, from clients and
from truncations, make one history; what counts of it is the part behind the last reset. A bounded
archive tracks for each segment the sum of what was reported for it there. An unlimited archive
only adds everything up: it lists nothing, so that a truncation finds nothing to do, and it never
gives up anything, so that no reservation is ever lost to it. -/

namespace Durability

namespace SizeReport

def bytes (meant : Nat → Bool) : SizeReport → Int
  | .change segment bytes => if meant segment then bytes else 0
  | .reset => 0

def sinceReset (reports : List SizeReport) : List SizeReport :=
  reports.rtakeWhile fun report => report ≠ .reset

def sum (meant : Nat → Bool) (reports : List SizeReport) : Int :=
  (reports.map (bytes meant)).foldr (· + ·) 0

theorem sum_append (meant : Nat → Bool) (first second : List SizeReport) :
    sum meant (first ++ second) = sum meant first + sum meant second := by
  induction first with
  | nil => exact (Int.zero_add _).symm
  | cons report first ih =>
      change report.bytes meant + sum meant (first ++ second) =
        report.bytes meant + sum meant first + sum meant second
      omega

theorem sinceReset_concat_reset (reports : List SizeReport) :
    sinceReset (reports ++ [.reset]) = [] :=
  List.rtakeWhile_concat_neg _ _ _ (by decide)

theorem sinceReset_concat_change (reports : List SizeReport) (segment : Nat) (more : Int) :
    sinceReset (reports ++ [.change segment more]) =
      sinceReset reports ++ [.change segment more] :=
  List.rtakeWhile_concat_pos _ _ _ (by simp)

/-- A quantity that a reset makes zero and that grows by what is reported for the segments meant
is the sum of those reports since the last reset. -/
theorem foldl_eq_sum (meant : Nat → Bool) (next : Int → SizeReport → Int)
    (reset : ∀ total, next total .reset = 0)
    (change : ∀ total segment more,
      next total (.change segment more) = total + if meant segment then more else 0)
    (reports : List SizeReport) :
    reports.foldl next 0 = sum meant (sinceReset reports) := by
  induction reports using List.reverseRecOn with
  | nil => rfl
  | append_singleton reports report ih =>
      rw [List.foldl_append, ih]
      cases report with
      | reset =>
          rw [sinceReset_concat_reset]
          exact reset _
      | change segment more =>
          have single : sum meant [.change segment more] = if meant segment then more else 0 :=
            Int.add_zero _
          rw [sinceReset_concat_change, sum_append, single]
          exact change _ segment more

theorem recordedAll_eq_sum (segment : Nat) (reports : List SizeReport) :
    recordedAll segment 0 reports = sum (· == segment) (sinceReset reports) := by
  apply foldl_eq_sum
  · intro total
    rfl
  · intro total other more
    simp only [recorded, beq_iff_eq]
    split <;> omega

def counted (total : Int) : SizeReport → Int
  | .change _ more => total + more
  | .reset => 0

theorem foldl_counted_eq_sum (reports : List SizeReport) :
    reports.foldl counted 0 = sum (fun _ => true) (sinceReset reports) := by
  apply foldl_eq_sum
  · intro total
    rfl
  · intro total segment more
    rfl

end SizeReport

theorem Archive.total_afterReports {before after : Archive} {reports : List SizeReport}
    (follows : before.AfterReports after reports) :
    after.total = reports.foldl SizeReport.counted before.total := by
  obtain ⟨interrupted, signals, rfl⟩ := follows
  change (reports.foldl record before).total = _
  induction reports generalizing before with
  | nil => rfl
  | cons report reports ih =>
      rw [List.foldl_cons, ih, List.foldl_cons]
      cases report <;> rfl

theorem Archive.segments_afterReports {before after : Archive} {reports : List SizeReport}
    (unlimited : before.window = none) (nothing : before.segments = [])
    (follows : before.AfterReports after reports) : after.segments = [] := by
  obtain ⟨interrupted, signals, rfl⟩ := follows
  change (reports.foldl record before).segments = []
  induction reports generalizing before with
  | nil => exact nothing
  | cons report reports ih =>
      rw [List.foldl_cons]
      cases report with
      | reset => exact ih unlimited rfl
      | change segment more =>
          have kept : before.isUnlimited = true := by
            rw [isUnlimited, unlimited]
            rfl
          have still : (before.addSize segment more).segments = [] := by
            simp only [addSize, segments, kept, if_true]
            exact nothing
          exact @ih (before.addSize segment more) unlimited still

namespace SharedLog

/-- The reports of sizes in the course of a run, by whomever they are made. -/
def sizeHistory (log : SharedLog) : List Turn → List SizeReport
  | [] => []
  | turn :: turns => log.sizeReports turn ++ (log.turn turn).sizeHistory turns

theorem bytesAt_run_eq_recordedAll {log : SharedLog} (balanced : log.segments.archive.Balanced)
    (turns : List Turn) (segment : Nat) :
    (log.run turns).segments.archive.bytesAt segment =
      SizeReport.recordedAll segment (log.segments.archive.bytesAt segment)
        (log.sizeHistory turns) := by
  induction turns generalizing log with
  | nil => rfl
  | cons turn turns ih =>
      have follows := log.turn_archive turn
      calc ((log.turn turn).run turns).segments.archive.bytesAt segment
          = SizeReport.recordedAll segment ((log.turn turn).segments.archive.bytesAt segment)
              ((log.turn turn).sizeHistory turns) := ih (balanced.afterReports follows)
        _ = _ := by
            rw [balanced.bytesAt_afterReports follows, sizeHistory,
              SizeReport.recordedAll_append]

theorem total_run (log : SharedLog) (turns : List Turn) :
    (log.run turns).segments.archive.total =
      (log.sizeHistory turns).foldl SizeReport.counted log.segments.archive.total := by
  induction turns generalizing log with
  | nil => rfl
  | cons turn turns ih =>
      calc ((log.turn turn).run turns).segments.archive.total
          = ((log.turn turn).sizeHistory turns).foldl SizeReport.counted
              (log.turn turn).segments.archive.total := ih (log.turn turn)
        _ = _ := by
            rw [Archive.total_afterReports (log.turn_archive turn), sizeHistory,
              List.foldl_append]

/-! ### Without a maximum -/

def Turn.isArchival : Turn → Bool
  | .call (.addSize _ _) | .call .resetSizes | .call .interrupt | .call .resume
  | .truncate _ | .advance _ _ => true
  | .call .observe | .call (.reserve _) | .call (.release _) | .call (.raiseFloor _)
  | .call (.forceRelease _) => false

structure Unlimited (log : SharedLog) : Prop where
  window : log.segments.archive.window = none
  untracked : log.segments.archive.segments = []
  idle : ∀ truncation ∈ log.truncations, truncation.pending = []

theorem unlimited_ofOptions {options : WalOptions} {onOverflow : Overflow}
    (unlimited : options.maxArchiveSize = none) :
    (ofOptions options onOverflow).Unlimited := by
  refine ⟨?_, rfl, fun truncation member => absurd member List.not_mem_nil⟩
  simp only [ofOptions, Segments.ofOptions, Archive.ofOptions, unlimited, Option.map_none]

theorem Unlimited.pending_step {log : SharedLog} (unlimited : log.Unlimited)
    {truncation : Truncation} (idle : truncation.pending = []) (storage : Storage) :
    (truncation.step storage log.segments).1.pending = [] := by
  cases truncation with
  | start threshold =>
      simp only [Truncation.step]
      split <;> rfl
  | listing threshold checkpoint => exact unlimited.untracked
  | checking progress =>
      change progress.remaining = [] at idle
      simp only [Truncation.step, idle]
      rfl
  | protecting | deleting | accounting => cases idle
  | done result => rfl

theorem Unlimited.turn {log : SharedLog} (unlimited : log.Unlimited) (turn : Turn) :
    (log.turn turn).Unlimited := by
  have follows := log.turn_archive turn
  refine ⟨(Archive.window_afterReports follows).trans unlimited.window,
    Archive.segments_afterReports unlimited.window unlimited.untracked follows, ?_⟩
  cases turn with
  | call call => exact unlimited.idle
  | truncate threshold =>
      intro truncation member
      rcases List.mem_append.1 member with old | new
      · exact unlimited.idle truncation old
      · cases List.mem_singleton.1 new
        rfl
  | advance number storage =>
      intro other member
      simp only [SharedLog.turn] at member
      cases current : log.truncations[number]? with
      | none =>
          rw [current] at member
          exact unlimited.idle other member
      | some truncation =>
          rw [current] at member
          rcases List.mem_or_eq_of_mem_set member with old | rfl
          · exact unlimited.idle other old
          · have idle := unlimited.idle truncation (List.mem_of_getElem? current)
            exact unlimited.pending_step idle storage

theorem Unlimited.run {log : SharedLog} (unlimited : log.Unlimited) (turns : List Turn) :
    (log.run turns).Unlimited := by
  induction turns generalizing log with
  | nil => exact unlimited
  | cons turn turns ih => exact ih (unlimited.turn turn)

theorem Unlimited.storeCalls_addSize {log : SharedLog} (unlimited : log.Unlimited) (segment : Nat)
    (change : Int) : log.segments.storeCalls (.addSize segment change) = [] := by
  have overflow : (log.segments.archive.addSize segment change).overflow = none := by
    simp only [Archive.overflow, Archive.addSize, unlimited.window]
  simp only [Segments.storeCalls, Segments.givenUp?, overflow, ite_self, Option.toList_none,
    List.map_nil]

theorem Unlimited.storeCalls {log : SharedLog} (unlimited : log.Unlimited) {turn : Turn}
    (archival : turn.isArchival = true) : log.storeCalls turn = [] := by
  cases turn with
  | call call =>
      cases call with
      | addSize segment change => exact unlimited.storeCalls_addSize segment change
      | resetSizes | interrupt | resume => rfl
      | observe | reserve | release | raiseFloor | forceRelease => cases archival
  | truncate threshold => rfl
  | advance number storage =>
      simp only [SharedLog.storeCalls]
      cases current : log.truncations[number]? with
      | none => rfl
      | some truncation =>
          have idle := unlimited.idle truncation (List.mem_of_getElem? current)
          cases truncation with
          | protecting | accounting => cases idle
          | start | listing | checking | deleting | done => rfl

/-- After any run of a log that began empty the total is the sum of what was reported since the
last reset, by clients and truncations. With a maximum a segment is tracked exactly if the sum of
what was reported for it is not zero, and with that sum; the listing has the tracked segments in
ascending order, and their sizes add up to the total. Without a maximum nothing is tracked, and no
turn of the archive touches the reservations. -/
theorem sizes_of_run (options : WalOptions) (onOverflow : Overflow) (turns : List Turn) :
    let log := (ofOptions options onOverflow).run turns
    let archive := log.segments.archive
    let recent := SizeReport.sinceReset ((ofOptions options onOverflow).sizeHistory turns)
    archive.total = SizeReport.sum (fun _ => true) recent ∧
      (options.maxArchiveSize.isSome →
        (∀ segment, archive.segmentSize? segment =
          if SizeReport.sum (· == segment) recent = 0 then none
          else some (SizeReport.sum (· == segment) recent)) ∧
        (∀ segment size, (segment, size) ∈ archive.segments ↔
          archive.segmentSize? segment = some size) ∧
        (archive.segments.Pairwise fun first second => first.1 < second.1) ∧
        archive.total = Archive.bytesOf archive.segments) ∧
      (options.maxArchiveSize = none →
        archive.segments = [] ∧ (∀ segment, archive.segmentSize? segment = none) ∧
        ∀ turn, turn.isArchival = true →
          (log.turn turn).segments.reservations = log.segments.reservations) := by
  intro log archive recent
  refine ⟨?_, ?_, ?_⟩
  · have total := (ofOptions options onOverflow).total_run turns
    exact total.trans (SizeReport.foldl_counted_eq_sum _)
  · intro bounded
    have start : (ofOptions options onOverflow).segments.archive.Balanced :=
      balanced_ofOptions bounded
    have balanced : archive.Balanced := balanced_run start turns
    refine ⟨?_, ?_, archive.sizes.ascending, balanced.total⟩
    · intro segment
      have recorded := bytesAt_run_eq_recordedAll start turns segment
      rw [balanced.segmentSize?, recorded]
      exact congrArg SizeReport.tracked? (SizeReport.recordedAll_eq_sum segment _)
    · intro segment size
      exact (KeyMap.find?_eq_some_iff archive.sizes segment size).symm
  · intro none
    have unlimited : log.Unlimited := (unlimited_ofOptions none).run turns
    refine ⟨unlimited.untracked, ?_, ?_⟩
    · intro segment
      apply (KeyMap.find?_eq_none_iff archive.sizes segment).2
      intro entry member
      rw [show archive.sizes.entries = [] from unlimited.untracked] at member
      cases member
    · intro turn archival
      rw [turn_reservations, unlimited.storeCalls archival]
      rfl

end SharedLog

end Durability
