import Durability.Proofs.Log.Readers
import Durability.Proofs.Log.SizeLedger
import Durability.Proofs.Log.TruncationEnd
import Mathlib.Data.Nat.Find

/-! Which segments a truncation deletes when nobody disturbs it and storage does not fail: of the
tracked ones the longest run from the oldest on in which each may go once those before it are gone.
What that takes is told from the log as it was before, although every deletion changes the total and
the floor. Deletions make the archive no larger, so that none of them has segments given up. -/

namespace Durability

namespace Segments

/-! ### What may go -/

/-- The tracked segment at a place in the listing may go after those before it: without these the
archive is not below the threshold yet, the segment lies below the checkpoint, and neither it nor a
segment before it is reserved. -/
def MayGo (segments : Segments) (threshold : Int) (checkpoint place : Nat) : Prop :=
  ∃ entry, segments.archive.segments[place]? = some entry ∧
    threshold ≤ segments.archive.total - Archive.bytesOf (segments.archive.segments.take place) ∧
    entry.1 < checkpoint ∧ ∀ reserved ∈ segments.reservations.counts.entries, entry.1 < reserved.1

/-- So many of the oldest tracked segments may go one after another, and no more. -/
structure LongestRun (segments : Segments) (threshold : Int) (checkpoint count : Nat) : Prop where
  each : ∀ place < count, segments.MayGo threshold checkpoint place
  longest : ∀ more, (∀ place < more, segments.MayGo threshold checkpoint place) → more ≤ count

variable {segments : Segments} {threshold : Int} {checkpoint count : Nat}

theorem le_length_of_mayGo (each : ∀ place < count, segments.MayGo threshold checkpoint place) :
    count ≤ segments.archive.segments.length := by
  by_contra beyond
  obtain ⟨entry, listed, -⟩ := each segments.archive.segments.length (Nat.not_le.1 beyond)
  rw [List.getElem?_length] at listed
  cases listed

theorem exists_longestRun (segments : Segments) (threshold : Int) (checkpoint : Nat) :
    ∃ count, segments.LongestRun threshold checkpoint count := by
  classical
  let run (count : Nat) : Prop := ∀ place < count, segments.MayGo threshold checkpoint place
  refine ⟨Nat.findGreatest run segments.archive.segments.length, ?_, ?_⟩
  · have nothing : run 0 := fun place none => absurd none (Nat.not_lt_zero place)
    exact Nat.findGreatest_spec (P := run) (Nat.zero_le _) nothing
  · intro more each
    exact Nat.le_findGreatest (P := run) (le_length_of_mayGo each) each

theorem LongestRun.stops (run : segments.LongestRun threshold checkpoint count) :
    ¬ segments.MayGo threshold checkpoint count := by
  intro next
  have longer : ∀ place < count + 1, segments.MayGo threshold checkpoint place := by
    intro place inside
    rcases Nat.lt_succ_iff_lt_or_eq.1 inside with before | rfl
    · exact run.each place before
    · exact next
  exact absurd (run.longest _ longer) (Nat.not_succ_le_self count)

/-! ### What deletions leave -/

/-- What is different after so many of the oldest tracked segments were deleted, and what is not. -/
structure LosesOldest (before after : Segments) (count : Nat) : Prop where
  ascending : (before.archive.segments.take count).Pairwise fun first second => first.1 < second.1
  deleted : after.journal = before.journal ++
    (before.archive.segments.take count).map fun entry => .deleted entry.1
  tracked : after.archive.segments = before.archive.segments.drop count
  total : after.archive.total =
    before.archive.total - Archive.bytesOf (before.archive.segments.take count)
  archive : after.archive =
    { before.archive with total := after.archive.total, sizes := after.archive.sizes }
  floor : after.reservations.floor =
    (before.archive.segments.take count).getLast?.elim before.reservations.floor fun last =>
      some (before.reservations.floor.elim last.1 fun floor => max floor last.1)
  counts : after.reservations.counts = before.reservations.counts
  observers : after.observers = before.observers

theorem losesOldest_afterDeletions
    (listing : segments.archive.isUnlimited = false ∨ segments.archive.segments = [])
    (nonnegative : ∀ entry ∈ segments.archive.segments, 0 ≤ entry.2) (count : Nat) :
    segments.LosesOldest (segments.afterDeletions (segments.archive.segments.take count))
      count := by
  have ascending : (segments.archive.segments.take count).Pairwise
      fun first second => first.1 < second.1 :=
    segments.archive.sizes.ascending.sublist (List.take_sublist _ _)
  have tracked : (segments.afterDeletions
      (segments.archive.segments.take count)).archive.segments =
        segments.archive.segments.drop count := by
    rcases listing with bounded | nothing
    · exact afterDeletions_segments bounded (List.take_append_drop count _).symm
    · rw [nothing, List.take_nil, List.drop_nil]
      exact nothing
  obtain ⟨total, sizes, archive⟩ := segments.afterDeletions_archive
    fun entry member => nonnegative entry (List.mem_of_mem_take member)
  refine ⟨ascending, segments.afterDeletions_journal _, tracked,
    segments.afterDeletions_total _, ?_, segments.afterDeletions_floor ascending,
    segments.afterDeletions_counts _, segments.afterDeletions_observers _⟩
  rw [archive]

end Segments

/-! ### The truncation -/

namespace Truncation

variable {storage : Storage} {segments : Segments} {threshold : Int} {checkpoint count : Nat}

theorem getElem?_of_prefix_take {α : Type} {listed shorter : List α} {entry : α}
    (inside : shorter ++ [entry] <+: listed.take count) :
    shorter.length < count ∧ listed[shorter.length]? = some entry ∧
      listed.take shorter.length = shorter := by
  have short := inside.length_le
  rw [List.length_append, List.length_singleton, List.length_take] at short
  obtain ⟨rest, rfl⟩ := inside.trans (List.take_prefix count listed)
  refine ⟨by omega, ?_, ?_⟩
  · rw [List.append_assoc, List.getElem?_append_right (Nat.le_refl _), Nat.sub_self]
    rfl
  · rw [List.append_assoc, List.take_left]

theorem deletable_of_mayGo {shorter : List (Nat × Int)} {entry : Nat × Int}
    (each : ∀ place < count, segments.MayGo threshold checkpoint place)
    (nonnegative : ∀ entry ∈ segments.archive.segments, 0 ≤ entry.2)
    (succeeds : ∀ entry ∈ segments.archive.segments.take count, storage.failure entry.1 = none)
    (inside : shorter ++ [entry] <+: segments.archive.segments.take count) :
    Deletable storage threshold checkpoint (segments.afterDeletions shorter) entry := by
  obtain ⟨place, listed, before⟩ := getElem?_of_prefix_take inside
  obtain ⟨other, same, needed, below, unreserved⟩ := each shorter.length place
  cases listed.symm.trans same
  rw [before] at needed
  have among : entry ∈ segments.archive.segments.take count := inside.subset (by simp)
  refine ⟨?_, below, ?_, succeeds entry among, nonnegative entry (List.mem_of_mem_take among)⟩
  · rwa [Segments.afterDeletions_total]
  · rwa [Segments.afterDeletions_counts]

theorem run_checking_of_not_mayGo {progress : Progress} (stops :
      ¬ segments.MayGo progress.threshold progress.checkpoint count)
    (remaining : progress.remaining = segments.archive.segments.drop count) :
    let left := segments.afterDeletions (segments.archive.segments.take count)
    run storage left (.checking progress) = (.ok progress.deleted, left) := by
  intro left
  have total : left.archive.total =
      segments.archive.total - Archive.bytesOf (segments.archive.segments.take count) :=
    segments.afterDeletions_total _
  have counts : left.reservations.counts = segments.reservations.counts :=
    segments.afterDeletions_counts _
  cases behind : segments.archive.segments.drop count with
  | nil => exact run_checking_of_end (Or.inr (remaining.trans behind))
  | cons entry rest =>
      rw [behind] at remaining
      by_cases stop : left.archive.total < progress.threshold ∨ progress.checkpoint ≤ entry.1
      · exact run_checking_of_stop remaining stop
      · have listed : segments.archive.segments[count]? = some entry := by
          rw [← List.head?_drop, behind, List.head?_cons]
        have protects : left.reservations.protects entry.1 = true := by
          by_contra free
          rw [Reservations.protects_iff, counts] at free
          refine stops ⟨entry, listed, by omega, by omega, ?_⟩
          intro reserved member
          by_contra within
          exact free ⟨reserved, member, Nat.not_lt.1 within⟩
        rw [run_checking_of_goesOn remaining stop]
        exact run_protecting_of_protects protects

end Truncation

theorem Storage.truncate_of_succeeds {storage : Storage} {segments : Segments} {threshold : Int}
    {checkpoint count : Nat} (known : storage.checkpoint = some checkpoint)
    (succeeds : ∀ entry ∈ segments.archive.segments.take count, storage.failure entry.1 = none)
    (nonnegative : ∀ entry ∈ segments.archive.segments, 0 ≤ entry.2)
    (run : segments.LongestRun threshold checkpoint count) :
    storage.truncate threshold segments =
      (.ok count, segments.afterDeletions (segments.archive.segments.take count)) := by
  have whole := (List.take_append_drop count segments.archive.segments).symm
  have counted : 0 + (segments.archive.segments.take count).length = count := by
    rw [Nat.zero_add, List.length_take_of_le (Segments.le_length_of_mayGo run.each)]
  rw [Storage.truncate_eq known, Truncation.run_passes whole fun shorter entry inside =>
    Truncation.deletable_of_mayGo run.each nonnegative succeeds inside, counted]
  exact Truncation.run_checking_of_not_mayGo run.stops rfl

theorem Storage.truncate_longestRun {storage : Storage} {segments : Segments} {threshold : Int}
    {checkpoint count : Nat} (known : storage.checkpoint = some checkpoint)
    (succeeds : ∀ segment, storage.failure segment = none)
    (nonnegative : ∀ entry ∈ segments.archive.segments, 0 ≤ entry.2)
    (run : segments.LongestRun threshold checkpoint count) :
    storage.truncate threshold segments =
      (.ok count, segments.afterDeletions (segments.archive.segments.take count)) :=
  truncate_of_succeeds known (fun entry _ => succeeds entry.1) nonnegative run

namespace SharedLog

theorem listing_of_run (options : WalOptions) (onOverflow : Overflow) (turns : List Turn) :
    let archive := ((ofOptions options onOverflow).run turns).segments.archive
    archive.isUnlimited = false ∨ archive.segments = [] := by
  intro archive
  cases limit : options.maxArchiveSize with
  | none => exact Or.inr ((unlimited_ofOptions limit).run turns).untracked
  | some maximum =>
      have limited : options.maxArchiveSize.isSome := Option.isSome_of_eq_some limit
      exact Or.inl (balanced_run (Archive.balanced_ofOptions limited) turns).bounded

def belowTheFloor : List Turn :=
  [.call (.addSize 1 300), .call (.addSize 2 350), .call (.addSize 3 200), .call (.raiseFloor 5),
    .call (.reserve 8)]

end SharedLog

end Durability
