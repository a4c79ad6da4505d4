import Durability.Proofs.Log.DeletedPrefix

/-! A truncation that ends with a deletion that failed, and the one that is made after it. The
segments deleted before are accounted for. The one that could not be deleted lies below the floor by
then, but is tracked with its full size, like all behind it. Which segments may go is told by their
listing, the total and the reservations, and not by the floor: the second truncation goes on where
the first one ended, and both together do what one does in which nothing fails. -/

namespace Durability

namespace Segments

theorem floored_afterDeletions (segments : Segments) (entry : Nat × Int)
    (others : List (Nat × Int)) :
    (segments.floored entry.1).afterDeletions (entry :: others) =
      segments.afterDeletions (entry :: others) := by
  have once : Reservations.raised
      (Reservations.raised segments.reservations.floor entry.1) entry.1 = _ :=
    Reservations.raised_raised _ (Nat.le_refl entry.1)
  have first : (segments.floored entry.1).afterDeletion entry =
      segments.afterDeletion entry := by
    simp only [afterDeletion, floored, once]
  exact congrArg (·.afterDeletions others) first

theorem afterDeletions_append (segments : Segments) (first second : List (Nat × Int)) :
    segments.afterDeletions (first ++ second) =
      (segments.afterDeletions first).afterDeletions second :=
  List.foldl_append

theorem raised_afterDeletions {segments : Segments} {place segment : Nat} {size : Int}
    (listed : segments.archive.segments[place]? = some (segment, size)) :
    Reservations.raised (segments.afterDeletions
        (segments.archive.segments.take place)).reservations.floor segment =
      Reservations.raised segments.reservations.floor segment := by
  let entry := (segment, size)
  have through : segments.archive.segments.take (place + 1) =
      segments.archive.segments.take place ++ [entry] := by
    rw [List.take_add_one, listed]
    rfl
  have ascending : (segments.archive.segments.take place ++ [entry]).Pairwise
      fun first second => first.1 < second.1 := by
    rw [← through]
    exact segments.archive.sizes.ascending.sublist (List.take_sublist _ _)
  have floor := segments.afterDeletions_floor ascending
  rw [afterDeletions_concat, List.getLast?_concat] at floor
  exact floor

/-! ### The run that is left after some deletions -/

variable {segments : Segments} {threshold : Int} {checkpoint count gone : Nat}

theorem mayGo_afterDeletions
    (listing : segments.archive.isUnlimited = false ∨ segments.archive.segments = [])
    (nonnegative : ∀ entry ∈ segments.archive.segments, 0 ≤ entry.2) (place : Nat) :
    (segments.afterDeletions (segments.archive.segments.take gone)).MayGo threshold checkpoint
        place ↔
      segments.MayGo threshold checkpoint (gone + place) := by
  have loses := losesOldest_afterDeletions listing nonnegative gone
  have bytes : Archive.bytesOf (segments.archive.segments.take (gone + place)) =
      Archive.bytesOf (segments.archive.segments.take gone) +
        Archive.bytesOf ((segments.archive.segments.drop gone).take place) := by
    rw [List.take_add, Archive.bytesOf_append]
  simp only [MayGo, loses.tracked, loses.total, loses.counts, List.getElem?_drop, bytes,
    Int.sub_sub]

theorem LongestRun.afterDeletions (run : segments.LongestRun threshold checkpoint count)
    (listing : segments.archive.isUnlimited = false ∨ segments.archive.segments = [])
    (nonnegative : ∀ entry ∈ segments.archive.segments, 0 ≤ entry.2) (fewer : gone ≤ count) :
    (segments.afterDeletions (segments.archive.segments.take gone)).LongestRun threshold checkpoint
      (count - gone) := by
  constructor
  · intro place inside
    rw [mayGo_afterDeletions listing nonnegative]
    exact run.each (gone + place) (by omega)
  · intro more each
    have longer : gone + more ≤ count := by
      apply run.longest
      intro place inside
      by_cases before : place < gone
      · exact run.each place (by omega)
      · have behind := (mayGo_afterDeletions listing nonnegative _).1
          (each (place - gone) (by omega))
        rwa [Nat.add_sub_cancel' (Nat.not_lt.1 before)] at behind
    omega

theorem LongestRun.floored (run : segments.LongestRun threshold checkpoint count)
    (segment : Nat) : (segments.floored segment).LongestRun threshold checkpoint count :=
  ⟨run.each, run.longest⟩

end Segments

namespace Storage

/-! ### Deletions that fail -/

/-- A truncation deletes the tracked segments before a place in the listing, one after another,
comes to the one at that place, and cannot delete it. -/
structure FailsAt (storage : Storage) (threshold : Int) (segments : Segments)
    (place segment : Nat) (cause : Error) : Prop where
  reached : ∃ checkpoint, storage.checkpoint = some checkpoint ∧
    ∀ earlier ≤ place, segments.MayGo threshold checkpoint earlier
  listed : ∃ size, segments.archive.segments[place]? = some (segment, size)
  succeeds : ∀ entry ∈ segments.archive.segments.take place, storage.failure entry.1 = none
  fails : storage.failure segment = some cause

variable {storage : Storage} {segments : Segments} {threshold : Int} {place segment : Nat}
  {cause : Error}

theorem truncate_of_failsAt
    (nonnegative : ∀ entry ∈ segments.archive.segments, 0 ≤ entry.2)
    (failing : storage.FailsAt threshold segments place segment cause) :
    storage.truncate threshold segments =
      (.error cause,
        (segments.afterDeletions (segments.archive.segments.take place)).floored segment) := by
  obtain ⟨⟨checkpoint, known, mayGo⟩, ⟨size, listed⟩, succeeds, fails⟩ := failing
  let left := segments.afterDeletions (segments.archive.segments.take place)
  obtain ⟨entry, same, needed, below, unreserved⟩ := mayGo place (Nat.le_refl place)
  cases listed.symm.trans same
  have whole := (List.take_append_drop place segments.archive.segments).symm
  have remaining : segments.archive.segments.drop place =
      (segment, size) :: segments.archive.segments.drop (place + 1) := by
    obtain ⟨inside, found⟩ := List.getElem?_eq_some_iff.1 listed
    rw [List.drop_eq_getElem_cons inside, found]
  have goesOn : ¬ (left.archive.total < threshold ∨ checkpoint ≤ segment) := by
    have total : left.archive.total = _ := segments.afterDeletions_total _
    omega
  have free : ∀ reserved ∈ left.reservations.counts.entries, segment < reserved.1 := by
    have counts : left.reservations.counts = _ := segments.afterDeletions_counts _
    rwa [counts]
  rw [truncate_eq known, Truncation.run_passes whole fun shorter entry inside =>
    Truncation.deletable_of_mayGo (fun earlier before => mayGo earlier (Nat.le_of_lt before))
      nonnegative succeeds inside]
  rw [Truncation.run_checking_of_goesOn remaining goesOn,
    Truncation.run_protecting_of_lowered (Segments.raiseFloor_of_unreserved free)]
  exact Truncation.run_deleting_of_failure fails

theorem exists_failsAt
    (nonnegative : ∀ entry ∈ segments.archive.segments, 0 ≤ entry.2)
    (failed : (storage.truncate threshold segments).1 = .error cause) :
    ∃ place segment, storage.FailsAt threshold segments place segment cause := by
  classical
  cases known : storage.checkpoint with
  | none =>
      rw [truncate_of_unknown known] at failed
      cases failed
  | some checkpoint =>
      obtain ⟨count, run⟩ := segments.exists_longestRun threshold checkpoint
      let stuck (place : Nat) : Prop := place < count ∧ ∃ entry,
        segments.archive.segments[place]? = some entry ∧ storage.failure entry.1 ≠ none
      -- Nothing before a place fails if no entry there does.
      have succeeds {bound : Nat} (within : bound ≤ count)
          (fine : ∀ place < bound, ¬ stuck place) :
          ∀ entry ∈ segments.archive.segments.take bound, storage.failure entry.1 = none := by
        intro entry member
        obtain ⟨place, listed⟩ := List.mem_iff_getElem?.1 member
        rw [List.getElem?_take] at listed
        split at listed
        · next inside =>
            by_contra fault
            exact fine place inside ⟨by omega, entry, listed, fault⟩
        · cases listed
      by_cases fault : ∃ place, stuck place
      · let place := Nat.find fault
        obtain ⟨inside, ⟨segment, size⟩, listed, fails⟩ : stuck place := Nat.find_spec fault
        obtain ⟨other, found⟩ := Option.ne_none_iff_exists'.1 fails
        have failing : storage.FailsAt threshold segments place segment other :=
          ⟨⟨checkpoint, known, fun earlier before => run.each earlier (by omega)⟩,
            ⟨size, listed⟩,
            succeeds (Nat.le_of_lt inside) fun earlier before => Nat.find_min fault before, found⟩
        rw [truncate_of_failsAt nonnegative failing] at failed
        cases failed
        exact ⟨place, segment, failing⟩
      · have fine := succeeds (Nat.le_refl count) fun place _ here => fault ⟨place, here⟩
        rw [truncate_of_succeeds known fine nonnegative run] at failed
        cases failed

theorem FailsAt.resumed (failing : storage.FailsAt threshold segments place segment cause)
    (listing : segments.archive.isUnlimited = false ∨ segments.archive.segments = [])
    (nonnegative : ∀ entry ∈ segments.archive.segments, 0 ≤ entry.2) {reliable : Storage}
    (same : reliable.checkpoint = storage.checkpoint)
    (succeeds : ∀ segment, reliable.failure segment = none) :
    let left := (segments.afterDeletions (segments.archive.segments.take place)).floored segment
    ∃ more, 0 < more ∧
      reliable.truncate threshold segments =
        (.ok (place + more),
          segments.afterDeletions (segments.archive.segments.take (place + more))) ∧
      reliable.truncate threshold left =
        (.ok more, segments.afterDeletions (segments.archive.segments.take (place + more))) := by
  intro left
  obtain ⟨checkpoint, known, mayGo⟩ := failing.reached
  obtain ⟨size, listed⟩ := failing.listed
  obtain ⟨count, run⟩ := segments.exists_longestRun threshold checkpoint
  have inside : place < count :=
    run.longest (place + 1) fun earlier before => mayGo earlier (Nat.lt_succ_iff.1 before)
  have whole := truncate_longestRun (same.trans known) succeeds nonnegative run
  have tracked : left.archive.segments = segments.archive.segments.drop place :=
    (Segments.losesOldest_afterDeletions listing nonnegative place).tracked
  have again : reliable.truncate threshold left = (.ok (count - place), left.afterDeletions
      (left.archive.segments.take (count - place))) := by
    refine truncate_longestRun (same.trans known) succeeds ?_
      ((run.afterDeletions listing nonnegative (Nat.le_of_lt inside)).floored segment)
    rw [tracked]
    exact fun entry member => nonnegative entry (List.mem_of_mem_drop member)
  -- The segment that could not be deleted is the first that is deleted now.
  have first : left.archive.segments.take (count - place) = (segment, size) ::
      (segments.archive.segments.drop (place + 1)).take (count - place - 1) := by
    obtain ⟨known, found⟩ := List.getElem?_eq_some_iff.1 listed
    rw [tracked, List.drop_eq_getElem_cons known, found, List.take_cons (by omega)]
  have parts : segments.archive.segments.take count =
      segments.archive.segments.take place ++ left.archive.segments.take (count - place) := by
    rw [tracked, ← List.take_add, Nat.add_sub_cancel' (Nat.le_of_lt inside)]
  refine ⟨count - place, by omega, ?_, ?_⟩
  · rwa [Nat.add_sub_cancel' (Nat.le_of_lt inside)]
  · rw [again, Nat.add_sub_cancel' (Nat.le_of_lt inside), parts, first,
      Segments.afterDeletions_append]
    exact congrArg (Prod.mk _) (Segments.floored_afterDeletions _ (segment, size) _)

end Storage

namespace SharedLog

def twoSegments : List Turn :=
  [.call (.reserve 8), .call (.addSize 1 300), .call (.addSize 2 350)]

def lockedStorage : Storage :=
  { checkpoint := some 5, failure := Storage.failingAt 2 (.io "segment file is locked") }

end SharedLog

end Durability
