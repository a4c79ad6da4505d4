import Durability.Proofs.Log.Undisturbed

/-! Where a truncation ends when nobody disturbs it. It deletes segments from the oldest one on,
whatever their sizes are, until something keeps it from the next. That keeps a second truncation
from the same segment, which is why a truncation right after another one changes nothing. -/

namespace Durability

/-! ### What goes on unnoticed -/

/-- Between two states of an archive, whoever waits for its size was signalled, or its total did
not grow. Waits were neither called off nor allowed again. -/
structure Archive.Subsides (before after : Archive) : Prop where
  signals : before.signals ≤ after.signals
  total : after.signals = before.signals → after.total ≤ before.total
  interrupted : after.interrupted = before.interrupted
  window : after.window = before.window

namespace Archive

theorem subsides_refl (archive : Archive) : archive.Subsides archive :=
  ⟨Nat.le_refl _, fun _ => Int.le_refl _, rfl, rfl⟩

theorem Subsides.trans {first second third : Archive} (one : first.Subsides second)
    (other : second.Subsides third) : first.Subsides third := by
  have before := one.signals
  have after := other.signals
  refine ⟨Nat.le_trans before after, ?_, other.interrupted.trans one.interrupted,
    other.window.trans one.window⟩
  intro unnoticed
  have later := other.total (by omega)
  have earlier := one.total (by omega)
  exact Int.le_trans later earlier

theorem addSize_subsides (archive : Archive) (segment : Nat) (change : Int) :
    archive.Subsides (archive.addSize segment change) := by
  by_cases grows : 0 < change
  · refine ⟨?_, ?_, rfl, rfl⟩
    · simp only [addSize, if_pos grows]
      exact Nat.le_succ _
    · intro unnoticed
      simp only [addSize, if_pos grows] at unnoticed
      omega
  · refine ⟨?_, ?_, rfl, rfl⟩
    · simp only [addSize, if_neg grows]
      exact Nat.le_refl _
    · intro _
      change archive.total + change ≤ archive.total
      omega

end Archive

namespace Truncation

theorem step_subsides (storage : Storage) (segments : Segments) (truncation : Truncation) :
    segments.archive.Subsides (step storage segments truncation).2.archive := by
  have same := segments.archive.subsides_refl
  cases truncation with
  | start threshold =>
      simp only [step]
      split <;> exact same
  | listing threshold checkpoint => exact same
  | checking progress =>
      simp only [step]
      split
      · exact same
      · split <;> exact same
  | protecting progress segment size =>
      rw [step_protecting]
      exact same
  | deleting progress segment size =>
      simp only [step]
      split <;> exact same
  | accounting progress segment size =>
      simp only [step, Segments.addSize_archive]
      exact segments.archive.addSize_subsides segment (-size)
  | done result => exact same

theorem run_subsides (storage : Storage) (segments : Segments) (truncation : Truncation) :
    segments.archive.Subsides (run storage segments truncation).2.archive := by
  fun_induction run storage segments truncation with
  | case1 segments truncation result ended => exact segments.archive.subsides_refl
  | case2 segments truncation running next ih =>
      exact (step_subsides storage segments truncation).trans ih

/-! ### What keeps a truncation from a segment -/

/-- What keeps a truncation from deleting the oldest of the tracked segments, and the failure that
it ends with if that is one. -/
inductive Hindrance (storage : Storage) (threshold : Int) (segments : Segments) :
    Option Error → Prop where
  | noCheckpoint (unknown : storage.checkpoint = none) : Hindrance storage threshold segments none
  | nothingTracked (untracked : segments.archive.segments = []) :
      Hindrance storage threshold segments none
  | smallEnough (below : segments.archive.total < threshold) :
      Hindrance storage threshold segments none
  | notBelow {checkpoint : Nat} {entry : Nat × Int} {rest : List (Nat × Int)}
      (known : storage.checkpoint = some checkpoint)
      (listed : segments.archive.segments = entry :: rest) (beyond : checkpoint ≤ entry.1) :
      Hindrance storage threshold segments none
  | reserved {entry : Nat × Int} {rest : List (Nat × Int)}
      (listed : segments.archive.segments = entry :: rest)
      (protects : segments.reservations.protects entry.1 = true) :
      Hindrance storage threshold segments none
  | failing {checkpoint : Nat} {entry : Nat × Int} {rest : List (Nat × Int)} {cause : Error}
      (known : storage.checkpoint = some checkpoint)
      (listed : segments.archive.segments = entry :: rest)
      (goesOn : ¬ (segments.archive.total < threshold ∨ checkpoint ≤ entry.1))
      (lowered : segments.raiseFloor entry.1 = (.done, segments))
      (fails : storage.failure entry.1 = some cause) :
      Hindrance storage threshold segments (some cause)

theorem Hindrance.report {storage : Storage} {threshold : Int} {segments : Segments}
    {cause : Option Error} (hindrance : Hindrance storage threshold segments cause)
    (notices : List Notice) : Hindrance storage threshold (segments.report notices) cause := by
  cases hindrance with
  | noCheckpoint unknown => exact .noCheckpoint unknown
  | nothingTracked untracked => exact .nothingTracked untracked
  | smallEnough below => exact .smallEnough below
  | notBelow known listed beyond => exact .notBelow known listed beyond
  | reserved listed protects => exact .reserved listed protects
  | failing known listed goesOn lowered fails =>
      have still : (segments.report notices).raiseFloor _ = (.done, segments.report notices) :=
        congrArg (fun answer => (answer.1, answer.2.report notices)) lowered
      exact .failing known listed goesOn still fails

def outcome (count : Nat) (cause : Option Error) : Except Error Nat :=
  cause.elim (.ok count) .error

variable {storage : Storage} {segments : Segments} {progress : Progress} {entry : Nat × Int}
  {rest : List (Nat × Int)}

/-! ### The passes over the next of the remaining segments -/

theorem run_checking_of_stop (remaining : progress.remaining = entry :: rest)
    (stops : segments.archive.total < progress.threshold ∨ progress.checkpoint ≤ entry.1) :
    run storage segments (.checking progress) = (.ok progress.deleted, segments) := by
  rw [run_step rfl]
  simp only [step, remaining, if_pos stops]
  exact run_done _

theorem run_checking_of_goesOn (remaining : progress.remaining = entry :: rest)
    (goesOn : ¬ (segments.archive.total < progress.threshold ∨ progress.checkpoint ≤ entry.1)) :
    run storage segments (.checking progress) = run storage segments
      (.protecting { progress with remaining := rest } entry.1 entry.2) := by
  rw [run_step rfl]
  simp only [step, remaining, if_neg goesOn]

theorem run_protecting_of_protects {segment : Nat} {size : Int}
    (protects : segments.reservations.protects segment = true) :
    run storage segments (.protecting progress segment size) =
      (.ok progress.deleted, segments) := by
  have stops : step storage segments (.protecting progress segment size) =
      (.done (.ok progress.deleted), segments) := by
    simp only [step, Segments.raiseFloor_of_protects protects]
  rw [run_step rfl, stops]
  exact run_done _

theorem run_protecting_of_lowered {segment : Nat} {size : Int} {lowered : Segments}
    (raised : segments.raiseFloor segment = (.done, lowered)) :
    run storage segments (.protecting progress segment size) =
      run storage lowered (.deleting progress segment size) := by
  rw [run_step rfl]
  simp only [step, raised]

theorem run_deleting_of_failure {segment : Nat} {size : Int} {cause : Error}
    (fails : storage.failure segment = some cause) :
    run storage segments (.deleting progress segment size) = (.error cause, segments) := by
  rw [run_step rfl]
  simp only [step, fails]
  exact run_done _

theorem run_deleting_of_success {segment : Nat} {size : Int}
    (succeeds : storage.failure segment = none) :
    run storage segments (.deleting progress segment size) =
      run storage ((segments.report [.deleted segment]).addSize segment (-size))
        (.checking { progress with deleted := progress.deleted + 1 }) := by
  rw [run_step rfl]
  simp only [step, succeeds]
  rw [run_step rfl]
  rfl

end Truncation

namespace Truncation

variable {storage : Storage} {segments : Segments} {threshold : Int}

theorem addSize_segments_of_head (bounded : segments.archive.isUnlimited = false)
    {entry : Nat × Int} {rest : List (Nat × Int)}
    (listed : segments.archive.segments = entry :: rest) :
    (segments.addSize entry.1 (-entry.2)).archive.segments = rest := by
  rw [Segments.addSize_archive]
  exact Segments.afterDeletion_segments bounded listed

theorem run_checking_end {progress : Progress} (bounded : segments.archive.isUnlimited = false)
    (known : storage.checkpoint = some progress.checkpoint)
    (listed : segments.archive.segments = progress.remaining) :
    let ended := run storage segments (.checking progress)
    ∃ gone cause, ended.1 = outcome (progress.deleted + gone.length) cause ∧
      segments.archive.segments = gone ++ ended.2.archive.segments ∧
      (gone = [] → ended.2.archive = segments.archive) ∧
      Hindrance storage progress.threshold ended.2 cause := by
  intro ended
  obtain ⟨remaining, remaining_eq⟩ : ∃ remaining, progress.remaining = remaining := ⟨_, rfl⟩
  induction remaining generalizing segments progress with
  | nil =>
      have stops : ended = (.ok progress.deleted, segments) :=
        run_checking_of_end (Or.inr remaining_eq)
      rw [stops]
      exact ⟨[], none, rfl, rfl, fun _ => rfl, .nothingTracked (listed.trans remaining_eq)⟩
  | cons entry rest ih =>
      have tracked := listed.trans remaining_eq
      by_cases stop : segments.archive.total < progress.threshold ∨ progress.checkpoint ≤ entry.1
      · have stops : ended = (.ok progress.deleted, segments) :=
          run_checking_of_stop remaining_eq stop
        rw [stops]
        refine ⟨[], none, rfl, rfl, fun _ => rfl, ?_⟩
        rcases stop with below | beyond
        · exact .smallEnough below
        · exact .notBelow known tracked beyond
      have toProtect : ended = _ := run_checking_of_goesOn remaining_eq stop
      by_cases protects : segments.reservations.protects entry.1 = true
      · rw [toProtect, run_protecting_of_protects protects]
        exact ⟨[], none, rfl, rfl, fun _ => rfl, .reserved tracked protects⟩
      have unreserved : ∀ reserved ∈ segments.reservations.counts.entries,
          entry.1 < reserved.1 := by
        intro reserved member
        rw [Reservations.protects_iff] at protects
        exact Nat.not_le.1 fun within => protects ⟨reserved, member, within⟩
      have raised := Segments.raiseFloor_of_unreserved unreserved
      rw [run_protecting_of_lowered raised] at toProtect
      cases failure : storage.failure entry.1 with
      | some cause =>
          have lowered : (segments.floored entry.1).raiseFloor entry.1 =
              (.done, (segments.floored entry.1).floored entry.1) :=
            Segments.raiseFloor_of_unreserved unreserved
          rw [Segments.floored_floored] at lowered
          rw [toProtect, run_deleting_of_failure failure]
          exact ⟨[], some cause, rfl, rfl, fun _ => rfl,
            .failing known tracked stop lowered failure⟩
      | none =>
          -- The pass deletes the segment, and the rest is what the archive tracks then.
          let deleted : Segments :=
            (segments.floored entry.1).report [.deleted entry.1]
          have left : (deleted.addSize entry.1 (-entry.2)).archive.segments = rest :=
            @addSize_segments_of_head deleted bounded entry rest tracked
          have still : (deleted.addSize entry.1 (-entry.2)).archive.isUnlimited = false := by
            rw [Segments.addSize_archive]
            exact bounded
          let next : Progress :=
            { progress with remaining := rest, deleted := progress.deleted + 1 }
          obtain ⟨gone, cause, result, parts, -, hindrance⟩ :=
            @ih (deleted.addSize entry.1 (-entry.2)) next still known left rfl
          rw [toProtect, run_deleting_of_success failure]
          refine ⟨entry :: gone, cause, ?_, ?_, nofun, hindrance⟩
          · have counted : progress.deleted + 1 + gone.length =
                progress.deleted + (entry :: gone).length := by
              rw [List.length_cons]
              omega
            rw [← counted]
            exact result
          · rw [List.cons_append, tracked]
            exact congrArg (entry :: ·) (left.symm.trans parts)

end Truncation

namespace Storage

variable {storage : Storage} {segments : Segments} {threshold : Int}

theorem truncate_of_unknown (unknown : storage.checkpoint = none) :
    storage.truncate threshold segments = (.ok 0, segments) := by
  rw [truncate, Truncation.run_step rfl]
  simp only [Truncation.step, unknown]
  exact Truncation.run_done _

/-- A truncation of a bounded archive deletes segments from the oldest on, and something keeps it
from the next one. -/
theorem truncate_end (storage : Storage) (threshold : Int)
    (bounded : segments.archive.isUnlimited = false) :
    let ended := storage.truncate threshold segments
    ∃ gone cause, ended.1 = Truncation.outcome gone.length cause ∧
      segments.archive.segments = gone ++ ended.2.archive.segments ∧
      (gone = [] → ended.2.archive = segments.archive) ∧
      Truncation.Hindrance storage threshold ended.2 cause := by
  intro ended
  cases known : storage.checkpoint with
  | none =>
      have nothing : ended = (.ok 0, segments) := truncate_of_unknown known
      rw [nothing]
      exact ⟨[], none, rfl, rfl, fun _ => rfl, .noCheckpoint known⟩
  | some checkpoint =>
      have begun : ended = _ := truncate_eq known threshold segments
      let progress : Truncation.Progress :=
        { threshold, checkpoint, deleted := 0, remaining := segments.archive.segments }
      obtain ⟨gone, cause, result, parts, same, hindrance⟩ :=
        @Truncation.run_checking_end storage segments progress bounded known rfl
      have counted : progress.deleted + gone.length = gone.length := Nat.zero_add _
      rw [counted] at result
      rw [begun]
      exact ⟨gone, cause, result, parts, same, hindrance⟩

theorem truncate_of_hindrance {cause : Option Error}
    (hindrance : Truncation.Hindrance storage threshold segments cause) :
    storage.truncate threshold segments = (Truncation.outcome 0 cause, segments) := by
  cases checked : storage.checkpoint with
  | none =>
      rw [truncate_of_unknown checked]
      cases hindrance with
      | failing known => rw [checked] at known; cases known
      | noCheckpoint | nothingTracked | smallEnough | notBelow | reserved => rfl
  | some checkpoint =>
      rw [truncate_eq checked]
      cases hindrance with
      | noCheckpoint unknown => rw [checked] at unknown; cases unknown
      | nothingTracked untracked => exact Truncation.run_checking_of_end (Or.inr untracked)
      | smallEnough below => exact Truncation.run_checking_of_end (Or.inl below)
      | notBelow known listed beyond =>
          cases checked.symm.trans known
          exact Truncation.run_checking_of_stop listed (Or.inr beyond)
      | @reserved entry rest listed protects =>
          by_cases stop : segments.archive.total < threshold ∨ checkpoint ≤ entry.1
          · exact Truncation.run_checking_of_stop listed stop
          · rw [Truncation.run_checking_of_goesOn listed stop]
            exact Truncation.run_protecting_of_protects protects
      | failing known listed goesOn lowered fails =>
          cases checked.symm.trans known
          rw [Truncation.run_checking_of_goesOn listed goesOn,
            Truncation.run_protecting_of_lowered lowered]
          exact Truncation.run_deleting_of_failure fails

theorem truncate_subsides (storage : Storage) (threshold : Int) (segments : Segments) :
    segments.archive.Subsides (storage.truncate threshold segments).2.archive :=
  Truncation.run_subsides storage segments (.start threshold)

end Storage

end Durability
