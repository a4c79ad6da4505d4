import Durability.Proofs.Log.ArchiveLedger
import Mathlib.Data.List.Infix

/-! A truncation that nobody disturbs. Its four calls about a segment then make up one pass, and
passes follow one another for as long as each segment can be deleted. All that the passes do to the
log is known beforehand from the listing. -/

namespace Durability

namespace Segments

def afterDeletion (segments : Segments) (deleted : Nat × Int) : Segments :=
  { segments with
    reservations :=
      { segments.reservations with
        floor := Reservations.raised segments.reservations.floor deleted.1 }
    archive := segments.archive.addSize deleted.1 (-deleted.2)
    journal := segments.journal ++ [.deleted deleted.1] }

def afterDeletions (segments : Segments) (deleted : List (Nat × Int)) : Segments :=
  deleted.foldl afterDeletion segments

theorem afterDeletions_counts (segments : Segments) (deleted : List (Nat × Int)) :
    (segments.afterDeletions deleted).reservations.counts = segments.reservations.counts := by
  induction deleted generalizing segments with
  | nil => rfl
  | cons entry deleted ih => exact ih (segments.afterDeletion entry)

theorem afterDeletions_journal (segments : Segments) (deleted : List (Nat × Int)) :
    (segments.afterDeletions deleted).journal =
      segments.journal ++ deleted.map fun entry => .deleted entry.1 := by
  induction deleted generalizing segments with
  | nil => exact (List.append_nil _).symm
  | cons entry deleted ih =>
      have rest := ih (segments.afterDeletion entry)
      change ((segments.afterDeletion entry).afterDeletions deleted).journal = _
      rw [rest, List.map_cons, List.append_cons]
      rfl

theorem afterDeletions_total (segments : Segments) (deleted : List (Nat × Int)) :
    (segments.afterDeletions deleted).archive.total =
      segments.archive.total - Archive.bytesOf deleted := by
  induction deleted generalizing segments with
  | nil => exact (Int.sub_zero _).symm
  | cons entry deleted ih =>
      have rest := ih (segments.afterDeletion entry)
      have first : (segments.afterDeletion entry).archive.total =
          segments.archive.total + -entry.2 := rfl
      have whole : Archive.bytesOf (entry :: deleted) = entry.2 + Archive.bytesOf deleted := rfl
      change ((segments.afterDeletion entry).afterDeletions deleted).archive.total = _
      omega

theorem afterDeletions_concat (segments : Segments) (deleted : List (Nat × Int))
    (last : Nat × Int) :
    segments.afterDeletions (deleted ++ [last]) =
      (segments.afterDeletions deleted).afterDeletion last :=
  List.foldl_append

theorem afterDeletions_floor (segments : Segments) {deleted : List (Nat × Int)}
    (ascending : deleted.Pairwise fun first second => first.1 < second.1) :
    (segments.afterDeletions deleted).reservations.floor =
      deleted.getLast?.elim segments.reservations.floor fun last =>
        Reservations.raised segments.reservations.floor last.1 := by
  induction deleted using List.reverseRecOn with
  | nil => rfl
  | append_singleton deleted last ih =>
      obtain ⟨before, -, rises⟩ := List.pairwise_append.1 ascending
      rw [afterDeletions_concat, List.getLast?_concat]
      change Reservations.raised (segments.afterDeletions deleted).reservations.floor last.1 =
        Reservations.raised segments.reservations.floor last.1
      rw [ih before]
      cases earlier : deleted.getLast? with
      | none => rfl
      | some entry =>
          have member : entry ∈ deleted := List.mem_of_getLast? earlier
          have below := rises entry member last (List.mem_singleton_self last)
          exact Reservations.raised_raised _ (Nat.le_of_lt below)

theorem afterDeletions_observers (segments : Segments) (deleted : List (Nat × Int)) :
    (segments.afterDeletions deleted).observers = segments.observers := by
  induction deleted generalizing segments with
  | nil => rfl
  | cons entry deleted ih => exact ih (segments.afterDeletion entry)

theorem afterDeletions_archive (segments : Segments) {deleted : List (Nat × Int)}
    (nonnegative : ∀ entry ∈ deleted, 0 ≤ entry.2) :
    ∃ total sizes, (segments.afterDeletions deleted).archive =
      { segments.archive with total, sizes } := by
  induction deleted generalizing segments with
  | nil => exact ⟨_, _, rfl⟩
  | cons entry deleted ih =>
      have shrinks := nonnegative entry List.mem_cons_self
      have unsignalled : ¬ 0 < -entry.2 := by omega
      obtain ⟨total, sizes, rest⟩ := ih (segments.afterDeletion entry) fun other member =>
        nonnegative other (List.mem_cons_of_mem entry member)
      refine ⟨total, sizes, rest.trans ?_⟩
      simp only [afterDeletion, Archive.addSize, if_neg unsignalled]

theorem afterDeletion_segments {segments : Segments}
    (bounded : segments.archive.isUnlimited = false) {entry : Nat × Int} {rest : List (Nat × Int)}
    (listed : segments.archive.segments = entry :: rest) :
    (segments.afterDeletion entry).archive.segments = rest := by
  have member : (entry.1, entry.2) ∈ segments.archive.sizes.entries := by
    change entry ∈ segments.archive.segments
    rw [listed]
    exact List.mem_cons_self
  have found := (KeyMap.find?_eq_some_iff _ _ _).2 member
  have nothing : (segments.archive.sizes.find? entry.1).getD 0 + -entry.2 = 0 := by
    rw [found, Option.getD_some]
    omega
  have erased : (segments.afterDeletion entry).archive.sizes =
      segments.archive.sizes.erase entry.1 :=
    (Archive.addSize_sizes bounded entry.1 (-entry.2)).trans (if_pos nothing)
  change (segments.afterDeletion entry).archive.sizes.entries = rest
  rw [erased]
  exact KeyMap.erase_entries_of_head segments.archive.sizes listed

theorem afterDeletions_segments {segments : Segments}
    (bounded : segments.archive.isUnlimited = false) {deleted kept : List (Nat × Int)}
    (listed : segments.archive.segments = deleted ++ kept) :
    (segments.afterDeletions deleted).archive.segments = kept := by
  induction deleted generalizing segments with
  | nil => exact listed
  | cons entry deleted ih =>
      have first := afterDeletion_segments bounded listed
      exact ih bounded first

end Segments

namespace Truncation

/-- What a segment needs to be deleted in a pass over it: the archive is not below the threshold
yet, the segment lies below the checkpoint, no reservation protects it, its deletion succeeds, and
the archive does not grow without it. -/
structure Deletable (storage : Storage) (threshold : Int) (checkpoint : Nat) (segments : Segments)
    (entry : Nat × Int) : Prop where
  needed : threshold ≤ segments.archive.total
  below : entry.1 < checkpoint
  unreserved : ∀ reserved ∈ segments.reservations.counts.entries, entry.1 < reserved.1
  succeeds : storage.failure entry.1 = none
  shrinks : 0 ≤ entry.2

variable {storage : Storage} {segments : Segments} {progress : Progress}

theorem run_step {truncation : Truncation} (running : truncation.result? = none) :
    run storage segments truncation =
      run storage (step storage segments truncation).2 (step storage segments truncation).1 := by
  rw [run]
  split
  next result ended => rw [running] at ended; cases ended
  next => rfl

theorem run_done (result : Except Error Nat) :
    run storage segments (.done result) = (result, segments) := by
  rw [run]
  rfl

theorem run_pass {entry : Nat × Int} {rest : List (Nat × Int)}
    (remaining : progress.remaining = entry :: rest)
    (deletable : Deletable storage progress.threshold progress.checkpoint segments entry) :
    run storage segments (.checking progress) =
      run storage (segments.afterDeletion entry) (.checking
        { progress with remaining := rest, deleted := progress.deleted + 1 }) := by
  have goesOn :
      ¬ (segments.archive.total < progress.threshold ∨ progress.checkpoint ≤ entry.1) := by
    have needed := deletable.needed
    have below := deletable.below
    omega
  have notGrown : ¬ 0 < -entry.2 := by
    have shrinks := deletable.shrinks
    omega
  rw [run_step rfl]
  simp only [step, remaining, if_neg goesOn]
  rw [run_step rfl]
  simp only [step, Segments.raiseFloor_of_unreserved deletable.unreserved]
  rw [run_step rfl]
  simp only [step, deletable.succeeds]
  rw [run_step rfl]
  simp only [step, Segments.addSize, if_neg notGrown]
  rfl

theorem run_passes {gone kept : List (Nat × Int)} (remaining : progress.remaining = gone ++ kept)
    (deletable : ∀ shorter entry, shorter ++ [entry] <+: gone →
      Deletable storage progress.threshold progress.checkpoint (segments.afterDeletions shorter)
        entry) :
    run storage segments (.checking progress) =
      run storage (segments.afterDeletions gone) (.checking
        { progress with remaining := kept, deleted := progress.deleted + gone.length }) := by
  induction gone generalizing segments progress with
  | nil =>
      rw [List.nil_append] at remaining
      rw [← remaining]
      rfl
  | cons entry gone ih =>
      have first := deletable [] entry (List.prefix_append [entry] gone)
      have others : ∀ shorter other, shorter ++ [other] <+: gone →
          Deletable storage progress.threshold progress.checkpoint
            ((segments.afterDeletion entry).afterDeletions shorter) other :=
        fun shorter other inside =>
          deletable (entry :: shorter) other ((List.prefix_cons_inj entry).2 inside)
      let next : Progress :=
        { progress with remaining := gone ++ kept, deleted := progress.deleted + 1 }
      have counted : progress.deleted + 1 + gone.length =
          progress.deleted + (entry :: gone).length := by
        rw [List.length_cons]
        omega
      calc run storage segments (.checking progress)
          = run storage (segments.afterDeletion entry) (.checking next) := run_pass remaining first
        _ = run storage ((segments.afterDeletion entry).afterDeletions gone) (.checking
              { next with remaining := kept, deleted := next.deleted + gone.length }) :=
            @ih (segments.afterDeletion entry) next rfl others
        _ = _ := by
            change run storage _ (.checking { progress with
              remaining := kept, deleted := progress.deleted + 1 + gone.length }) = _
            rw [counted]
            rfl

theorem run_checking_of_end
    (ends : segments.archive.total < progress.threshold ∨ progress.remaining = []) :
    run storage segments (.checking progress) = (.ok progress.deleted, segments) := by
  have last : step storage segments (.checking progress) =
      (.done (.ok progress.deleted), segments) := by
    simp only [step]
    cases remaining : progress.remaining with
    | nil => rfl
    | cons entry rest =>
        have below : segments.archive.total < progress.threshold := by
          rcases ends with below | nothing
          · exact below
          · rw [remaining] at nothing
            cases nothing
        simp only [if_pos (Or.inl below)]
  rw [run_step rfl, last, run_done]

end Truncation

theorem Storage.truncate_eq {storage : Storage} {checkpoint : Nat}
    (known : storage.checkpoint = some checkpoint) (threshold : Int) (segments : Segments) :
    storage.truncate threshold segments =
      Truncation.run storage segments (.checking
        { threshold, checkpoint, deleted := 0, remaining := segments.archive.segments }) := by
  rw [truncate, Truncation.run_step rfl]
  simp only [Truncation.step, known]
  rw [Truncation.run_step rfl]
  rfl

end Durability
