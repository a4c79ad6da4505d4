import Durability.Options.Consistency
import Durability.Proofs.Log.Readers
import Durability.Proofs.Log.Undisturbed

/-! A forced release prepares a truncation. When the archive outgrows its maximum it counts off the
oldest segments until less than its minimum would remain; a truncation asks, before each segment,
whether less than that remains already. One looks ahead and the other looks back, and yet they stop
at the same segment: the archive is at its minimum before the first segment goes, and from then on
both compare the same sums. No reader is in the way, for the release has taken the reservations. -/

namespace Durability

namespace Archive

/-- Segments that are given up, and those that are kept behind them, out of `total` bytes. As few
are given up as leave less than `low`, or all of them. -/
structure GivesUp (low total : Int) (gone kept : List (Nat × Int)) (givenUp : GivenUp) : Prop where
  count : givenUp.count = gone.length
  last : ∃ earlier size, gone = earlier ++ [(givenUp.last, size)]
  needed : ∀ shorter, shorter <+: gone → shorter ≠ [] → shorter ≠ gone →
    low ≤ total - bytesOf shorter
  enough : total - bytesOf gone < low ∨ kept = []

variable {low total : Int} {gone kept segments : List (Nat × Int)} {givenUp : GivenUp}

theorem givesUp_single {segment : Nat} {size : Int} (enough : total - size < low ∨ kept = []) :
    GivesUp low total [(segment, size)] kept { count := 1, last := segment } := by
  have own : bytesOf [(segment, size)] = size := Int.add_zero size
  refine ⟨rfl, ⟨[], size, rfl⟩, ?_, by rwa [own]⟩
  intro shorter inside nonempty proper
  rcases List.prefix_cons_iff.1 inside with rfl | ⟨behind, rfl, nothing⟩
  · exact absurd rfl nonempty
  · rw [List.prefix_nil.1 nothing] at proper
    exact absurd rfl proper

theorem GivesUp.cons {segment : Nat} {size : Int}
    (givesUp : GivesUp low (total - size) gone kept givenUp) (short : low ≤ total - size) :
    GivesUp low total ((segment, size) :: gone) kept
      { givenUp with count := givenUp.count + 1 } := by
  have first (others : List (Nat × Int)) :
      total - bytesOf ((segment, size) :: others) = total - size - bytesOf others := by
    change total - (size + bytesOf others) = _
    omega
  refine ⟨congrArg (· + 1) givesUp.count, ?_, ?_, ?_⟩
  · obtain ⟨earlier, lastSize, gone_eq⟩ := givesUp.last
    exact ⟨(segment, size) :: earlier, lastSize, by rw [gone_eq]; rfl⟩
  · intro shorter inside nonempty proper
    rcases List.prefix_cons_iff.1 inside with rfl | ⟨behind, rfl, within⟩
    · exact absurd rfl nonempty
    · rw [first]
      by_cases alone : behind = []
      · rw [alone]
        exact short.trans_eq (Int.sub_zero _).symm
      · have others : behind ≠ gone := fun whole => proper (by rw [whole])
        exact givesUp.needed behind within alone others
  · rw [first]
    exact givesUp.enough

theorem giveUp_eq_none_iff : giveUp low total segments = none ↔ segments = [] := by
  cases segments with
  | nil => exact iff_of_true rfl rfl
  | cons entry rest =>
      simp only [giveUp, reduceCtorEq, iff_false]
      split
      · exact Option.some_ne_none _
      · split <;> apply Option.some_ne_none

theorem givesUp_of_giveUp (given : giveUp low total segments = some givenUp) :
    ∃ gone kept, segments = gone ++ kept ∧ GivesUp low total gone kept givenUp := by
  induction segments generalizing total givenUp with
  | nil => cases given
  | cons entry rest ih =>
      obtain ⟨segment, size⟩ := entry
      rw [giveUp] at given
      by_cases enough : total - size < low
      · rw [if_pos enough] at given
        cases given
        exact ⟨[(segment, size)], rest, rfl, givesUp_single (Or.inl enough)⟩
      · rw [if_neg enough] at given
        cases others : giveUp low (total - size) rest with
        | none =>
            rw [others] at given
            cases given
            have nothing : rest = [] := giveUp_eq_none_iff.1 others
            exact ⟨[(segment, size)], rest, rfl, givesUp_single (Or.inr nothing)⟩
        | some more =>
            rw [others] at given
            cases given
            obtain ⟨gone, kept, rfl, givesUp⟩ := ih others
            exact ⟨(segment, size) :: gone, kept, rfl, givesUp.cons (Int.not_lt.1 enough)⟩

theorem GivesUp.parts (givesUp : GivesUp low total gone kept givenUp)
    (ascending : (gone ++ kept).Pairwise fun first second => first.1 < second.1) :
    (∀ entry ∈ gone, entry.1 ≤ givenUp.last) ∧ ∀ entry ∈ kept, givenUp.last < entry.1 := by
  obtain ⟨earlier, size, rfl⟩ := givesUp.last
  obtain ⟨inGone, -, across⟩ := List.pairwise_append.1 ascending
  constructor
  · intro entry member
    rcases List.mem_append.1 member with before | same
    · have below := (List.pairwise_append.1 inGone).2.2 entry before _ (List.mem_singleton_self _)
      exact Nat.le_of_lt below
    · rw [List.mem_singleton.1 same]
  · intro entry member
    exact across _ (List.mem_append_right _ (List.mem_singleton_self _)) entry member

theorem GivesUp.filter (givesUp : GivesUp low total gone kept givenUp)
    (ascending : (gone ++ kept).Pairwise fun first second => first.1 < second.1) :
    (gone ++ kept).filter (fun entry => entry.1 ≤ givenUp.last) = gone ∧
      (gone ++ kept).filter (fun entry => givenUp.last < entry.1) = kept := by
  obtain ⟨upTo, beyond⟩ := givesUp.parts ascending
  have upToAll : gone.filter (fun entry => entry.1 ≤ givenUp.last) = gone :=
    List.filter_eq_self.2 fun entry member => decide_eq_true (upTo entry member)
  have upToNone : kept.filter (fun entry => entry.1 ≤ givenUp.last) = [] :=
    List.filter_eq_nil_iff.2 fun entry member within =>
      Nat.not_le_of_lt (beyond entry member) (of_decide_eq_true within)
  have beyondNone : gone.filter (fun entry => givenUp.last < entry.1) = [] :=
    List.filter_eq_nil_iff.2 fun entry member after =>
      Nat.not_le_of_lt (of_decide_eq_true after) (upTo entry member)
  have beyondAll : kept.filter (fun entry => givenUp.last < entry.1) = kept :=
    List.filter_eq_self.2 fun entry member => decide_eq_true (beyond entry member)
  constructor
  · rw [List.filter_append, upToAll, upToNone, List.append_nil]
  · rw [List.filter_append, beyondNone, beyondAll, List.nil_append]

theorem GivesUp.remaining_lt (givesUp : GivesUp low total gone kept givenUp)
    (balanced : total = bytesOf (gone ++ kept)) (positive : 0 < low) :
    total - bytesOf gone < low := by
  rcases givesUp.enough with enough | nothing
  · exact enough
  · rw [nothing, List.append_nil] at balanced
    omega

theorem overflow_eq_some {archive : Archive} (overflows : archive.overflow = some givenUp) :
    ∃ window, archive.window = some window ∧ window.max ≤ archive.total ∧
      giveUp window.min archive.total archive.segments = some givenUp := by
  unfold overflow at overflows
  cases bounded : archive.window with
  | none =>
      rw [bounded] at overflows
      cases overflows
  | some window =>
      simp only [bounded] at overflows
      by_cases below : archive.total < window.max
      · rw [if_pos below] at overflows
        cases overflows
      · rw [if_neg below] at overflows
        exact ⟨window, rfl, Int.not_lt.1 below, overflows⟩

theorem window_min_le_max {options : WalOptions} {onOverflow : Overflow}
    (consistent : options.inconsistency? = none)
    {window : SizeWindow} (bounded : (ofOptions options onOverflow).window = some window) :
    window.min ≤ window.max := by
  have ordered := (WalOptions.inconsistency?_eq_none_iff options).1 consistent
  obtain ⟨maximum, limited, rfl⟩ := Option.map_eq_some_iff.1 bounded
  have least : options.effectiveMin ≤ maximum := by
    unfold WalOptions.effectiveMin
    cases chosen : options.minArchiveSize with
    | some minimum => exact ordered minimum chosen maximum limited
    | none =>
        rw [limited]
        exact Nat.div_le_self maximum 2
  change clampSize options.effectiveMin ≤ clampSize maximum
  unfold clampSize
  omega

end Archive

namespace Segments

variable {segments : Segments} {segment : Nat} {change : Int} {givenUp : GivenUp}

theorem addSize_counts_of_givenUp (forced : segments.givenUp? segment change = some givenUp) :
    (segments.addSize segment change).reservations.counts =
      segments.reservations.counts.dropThrough givenUp.last := by
  rw [addSize_reservations, storeCalls, forced]
  rfl

theorem givesUp_of_givenUp (forced : segments.givenUp? segment change = some givenUp) :
    ∃ window gone kept, segments.archive.window = some window ∧
      window.max ≤ (segments.addSize segment change).archive.total ∧
      (segments.addSize segment change).archive.segments = gone ++ kept ∧
      Archive.GivesUp window.min (segments.addSize segment change).archive.total gone kept
        givenUp := by
  have overflows : (segments.archive.addSize segment change).overflow = some givenUp := by
    unfold givenUp? at forced
    split at forced
    · exact forced
    · cases forced
  obtain ⟨window, bounded, reached, given⟩ := Archive.overflow_eq_some overflows
  obtain ⟨gone, kept, listed, givesUp⟩ := Archive.givesUp_of_giveUp given
  rw [addSize_archive]
  exact ⟨window, gone, kept, bounded, reached, listed, givesUp⟩

end Segments

theorem Storage.truncate_givenUp {storage : Storage} {segments : Segments} {threshold : Int}
    {checkpoint : Nat} {gone kept : List (Nat × Int)} {givenUp : GivenUp}
    (listed : segments.archive.segments = gone ++ kept)
    (givesUp : Archive.GivesUp threshold segments.archive.total gone kept givenUp)
    (reached : threshold ≤ segments.archive.total)
    (unreserved : ∀ reserved ∈ segments.reservations.counts.entries, givenUp.last < reserved.1)
    (shrinks : ∀ entry ∈ gone, 0 ≤ entry.2) (known : storage.checkpoint = some checkpoint)
    (below : givenUp.last < checkpoint)
    (succeeds : ∀ segment ≤ givenUp.last, storage.failure segment = none) :
    storage.truncate threshold segments = (.ok gone.length, segments.afterDeletions gone) := by
  have ascending := segments.archive.sizes.ascending
  change segments.archive.segments.Pairwise _ at ascending
  rw [listed] at ascending
  have within := (givesUp.parts ascending).1
  have deletable : ∀ shorter entry, shorter ++ [entry] <+: gone →
      Truncation.Deletable storage threshold checkpoint (segments.afterDeletions shorter)
        entry := by
    intro shorter entry inside
    have member : entry ∈ gone :=
      inside.subset (List.mem_append_right _ (List.mem_singleton_self entry))
    have upTo : entry.1 ≤ givenUp.last := within entry member
    refine ⟨?_, Nat.lt_of_le_of_lt upTo below, ?_, succeeds entry.1 upTo, shrinks entry member⟩
    · rw [Segments.afterDeletions_total]
      by_cases nothing : shorter = []
      · rw [nothing]
        exact reached.trans_eq (Int.sub_zero _).symm
      · have proper : shorter ≠ gone := by
          intro whole
          have longer := inside.length_le
          rw [List.length_append, whole, List.length_singleton] at longer
          omega
        exact givesUp.needed shorter ((List.prefix_append _ _).trans inside) nothing proper
    · rw [Segments.afterDeletions_counts]
      exact fun reserved held => Nat.lt_of_le_of_lt upTo (unreserved reserved held)
  have left := segments.afterDeletions_total gone
  have ends : (segments.afterDeletions gone).archive.total < threshold ∨ kept = [] := by
    rw [left]
    exact givesUp.enough
  rw [Storage.truncate_eq known, listed, Truncation.run_passes rfl deletable,
    Truncation.run_checking_of_end ends, Nat.zero_add]

namespace SharedLog

def readFromTheStart : List Turn :=
  [.call (.reserve 1), .call (.addSize 1 300), .call (.addSize 2 350), .call (.reserve 4),
    .call (.addSize 4 200)]

end SharedLog

end Durability
