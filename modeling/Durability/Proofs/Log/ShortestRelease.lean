import Durability.LogEvent
import Durability.Proofs.Log.ForcedRelease
import Durability.Proofs.Log.Observers

/-! What growth of the archive takes from its readers. An archive that reaches its maximum by
growing gives up its oldest segments, and of these no more than it takes to leave less than its
minimum; the reservations up to the last of them are void, and all others stay. Nothing else that is
recorded about sizes has to do with the readers. -/

namespace Durability

namespace Archive

/-- The shortest run of oldest segments, out of tracked ones in ascending order, without which less
than `low` of `total` bytes remains; all of them, if that is not enough. -/
structure ShortestRun (low total : Int) (segments : List (Nat × Int)) (run : GivenUp) : Prop where
  nonempty : 0 < run.count
  within : run.count ≤ segments.length
  last : (segments[run.count - 1]?).map Prod.fst = some run.last
  fewer : ∀ count, 0 < count → count < run.count → low ≤ total - bytesOf (segments.take count)
  enough : total - bytesOf (segments.take run.count) < low ∨ run.count = segments.length

variable {low total : Int} {gone kept : List (Nat × Int)} {givenUp : GivenUp}

theorem GivesUp.shortestRun (givesUp : GivesUp low total gone kept givenUp) :
    ShortestRun low total (gone ++ kept) givenUp := by
  obtain ⟨earlier, size, parts⟩ := givesUp.last
  have length : givenUp.count = earlier.length + 1 := by
    rw [givesUp.count, parts, List.length_append, List.length_singleton]
  have whole : (gone ++ kept).take givenUp.count = gone := List.take_left' givesUp.count.symm
  refine ⟨?_, ?_, ?_, ?_, ?_⟩
  · omega
  · rw [givesUp.count, List.length_append]
    exact Nat.le_add_right _ _
  · rw [length, Nat.add_sub_cancel, parts, List.append_assoc, List.getElem?_append_right
      (Nat.le_refl _), Nat.sub_self]
    rfl
  · intro count some fewer
    have counted : count < gone.length := by rwa [← givesUp.count]
    rw [List.take_append_of_le_length (Nat.le_of_lt counted)]
    have short : (gone.take count).length = count := List.length_take_of_le (Nat.le_of_lt counted)
    apply givesUp.needed _ (List.take_prefix count gone)
    · intro nothing
      rw [nothing, List.length_nil] at short
      omega
    · intro all
      rw [all] at short
      omega
  · rw [whole, List.length_append, ← givesUp.count]
    rcases givesUp.enough with enough | nothing
    · exact Or.inl enough
    · rw [nothing]
      exact Or.inr rfl

theorem bytesOf_sublist {fewer segments : List (Nat × Int)} (sublist : fewer.Sublist segments)
    (nonnegative : ∀ entry ∈ segments, 0 ≤ entry.2) : bytesOf fewer ≤ bytesOf segments := by
  induction sublist with
  | slnil => exact Int.le_refl _
  | @cons fewer segments entry sublist ih =>
      have first := nonnegative entry List.mem_cons_self
      have rest := ih fun other member => nonnegative other (List.mem_cons_of_mem entry member)
      change bytesOf fewer ≤ entry.2 + bytesOf segments
      omega
  | @cons_cons fewer segments entry sublist ih =>
      have rest := ih fun other member => nonnegative other (List.mem_cons_of_mem entry member)
      change entry.2 + bytesOf fewer ≤ entry.2 + bytesOf segments
      omega

theorem overflow_eq_none_iff {archive : Archive} :
    archive.overflow = none ↔ ∀ window, archive.window = some window →
      window.max ≤ archive.total → archive.segments = [] := by
  unfold overflow
  cases bounded : archive.window with
  | none => exact iff_of_true rfl nofun
  | some window =>
      by_cases below : archive.total < window.max
      · simp only [if_pos below, Option.some.injEq, forall_eq', true_iff]
        omega
      · simp only [if_neg below, giveUp_eq_none_iff, Option.some.injEq, forall_eq']
        exact ⟨fun nothing _ => nothing, fun nothing => nothing (Int.not_lt.1 below)⟩

end Archive

namespace Segments

/-- A change of sizes by which a bounded archive grows to its maximum or beyond, with segments that
it can give up. -/
structure Overflows (segments : Segments) (segment : Nat) (change : Int) (window : SizeWindow) :
    Prop where
  bounded : segments.archive.window = some window
  grows : 0 < change
  reached : window.max ≤ (segments.addSize segment change).archive.total
  tracked : (segments.addSize segment change).archive.segments ≠ []

/-- What becomes of the readers, and is told and logged, when segments are given up: reservations up
to the last of these are void, and the floor is not below it. -/
structure ForcesRelease (before after : Segments) (maximum : Int) (givenUp : GivenUp) : Prop where
  counts : after.reservations.counts.entries =
    before.reservations.counts.entries.filter fun reserved => givenUp.last < reserved.1
  floor : after.reservations.floor =
    some (before.reservations.floor.elim givenUp.last fun floor => max floor givenUp.last)
  observers : after.observers = before.observers
  journal : after.journal =
    before.journal ++ .forceReleased maximum givenUp :: before.news after.reservations
  logged : after.journal.filterMap Notice.event? = before.journal.filterMap Notice.event? ++
    [{ level := .info
       name := "wal.archive.force_release"
       fields := [("max_wal_archive_size", .number maximum),
         ("released_segment_cnt", .number givenUp.count),
         ("last_released_segment_idx", .number givenUp.last)] }]

variable {segments : Segments} {segment : Nat} {change : Int} {window : SizeWindow}

theorem event_news (segments : Segments) (reservations : Reservations) :
    (segments.news reservations).filterMap Notice.event? = [] := by
  unfold news
  split
  · rfl
  · rw [List.filterMap_eq_nil_iff]
    intro notice member
    obtain ⟨observer, -, rfl⟩ := List.mem_map.1 member
    rfl

theorem givenUp?_eq_none_iff :
    segments.givenUp? segment change = none ↔
      ∀ window, ¬ segments.Overflows segment change window := by
  have archive := segments.addSize_archive segment change
  unfold givenUp?
  by_cases grows : 0 < change
  · rw [if_pos grows, Archive.overflow_eq_none_iff, ← archive]
    constructor
    · rintro nothing window ⟨bounded, -, reached, tracked⟩
      exact tracked (nothing window (by rwa [archive]) reached)
    · intro none window bounded reached
      rw [archive] at bounded
      by_contra tracked
      exact none window ⟨bounded, grows, reached, tracked⟩
  · rw [if_neg grows]
    exact iff_of_true rfl fun window overflows => grows overflows.grows

theorem forcesRelease_of_givenUp {givenUp : GivenUp}
    (bounded : segments.archive.window = some window)
    (forced : segments.givenUp? segment change = some givenUp) :
    segments.ForcesRelease (segments.addSize segment change) window.max givenUp := by
  let reported : Segments :=
    { segments with archive := segments.archive.addSize segment change }.report
      [.forceReleased window.max givenUp]
  let released := segments.reservations.forceRelease givenUp.last
  have whole : segments.addSize segment change = reported.withReservations released := by
    rw [addSize_of_givenUp forced, bounded]
    rfl
  have reservations : (segments.addSize segment change).reservations = released := by
    rw [whole, withReservations_reservations]
  have journal : (segments.addSize segment change).journal =
      segments.journal ++ .forceReleased window.max givenUp :: segments.news released := by
    rw [whole, withReservations_journal]
    exact List.append_assoc _ _ _
  refine ⟨?_, ?_, ?_, by rw [reservations, journal], ?_⟩
  · rw [reservations]
    exact KeyMap.above_eq_filter _ _
  · rw [reservations]
    rfl
  · rw [whole, withReservations_observers]
    rfl
  · rw [journal, List.filterMap_append]
    exact congrArg (_ ++ _ :: ·) (segments.event_news released)

theorem ForcesRelease.grants_lt {before after : Segments} {maximum : Int} {givenUp : GivenUp}
    (released : before.ForcesRelease after maximum givenUp) {segment : Nat}
    (above : after.reservations.grants segment = true) : givenUp.last < segment := by
  have floor := (Reservations.grants_iff _ _).1 above _ released.floor
  cases earlier : before.reservations.floor with
  | none => rwa [earlier, Option.elim_none] at floor
  | some low =>
      rw [earlier, Option.elim_some] at floor
      omega

theorem ForcesRelease.bytesOf_granted_lt {before after : Segments} {low maximum : Int}
    {gone kept : List (Nat × Int)} {givenUp : GivenUp}
    (released : before.ForcesRelease after maximum givenUp)
    (listed : after.archive.segments = gone ++ kept)
    (givesUp : Archive.GivesUp low after.archive.total gone kept givenUp)
    (balanced : after.archive.Balanced) (positive : 0 < low)
    (nonnegative : ∀ entry ∈ after.archive.segments, 0 ≤ entry.2) :
    Archive.bytesOf (after.archive.segments.filter fun entry =>
      after.reservations.grants entry.1) < low := by
  have ascending := after.archive.sizes.ascending
  change after.archive.segments.Pairwise _ at ascending
  have total := balanced.total
  rw [listed] at total ascending nonnegative ⊢
  have remaining := givesUp.remaining_lt total positive
  have above : ((gone ++ kept).filter fun entry => after.reservations.grants entry.1).Sublist
      ((gone ++ kept).filter fun entry => givenUp.last < entry.1) :=
    List.monotone_filter_right _ fun entry granted => decide_eq_true (released.grants_lt granted)
  rw [(givesUp.filter ascending).2] at above
  have least := Archive.bytesOf_sublist above fun entry member =>
    nonnegative entry (List.mem_append_right gone member)
  have parts := Archive.bytesOf_append gone kept
  omega

theorem Overflows.forcesRelease (overflows : segments.Overflows segment change window)
    (balanced : segments.archive.Balanced) :
    let after := segments.addSize segment change
    ∃ givenUp, Archive.ShortestRun window.min after.archive.total after.archive.segments givenUp ∧
      segments.ForcesRelease after window.max givenUp ∧
      (0 < window.min → (∀ entry ∈ after.archive.segments, 0 ≤ entry.2) →
        Archive.bytesOf (after.archive.segments.filter fun entry =>
          after.reservations.grants entry.1) < window.min) := by
  intro after
  cases forced : segments.givenUp? segment change with
  | none => exact absurd overflows (givenUp?_eq_none_iff.1 forced window)
  | some givenUp =>
      obtain ⟨limits, gone, kept, limited, -, listed, givesUp⟩ := givesUp_of_givenUp forced
      cases limited.symm.trans overflows.bounded
      have released := forcesRelease_of_givenUp overflows.bounded forced
      have still : after.archive.Balanced := by
        rw [segments.addSize_archive segment change]
        exact balanced.record (.change segment change)
      have shortest := givesUp.shortestRun
      rw [← listed] at shortest
      exact ⟨givenUp, shortest, released, released.bytesOf_granted_lt listed givesUp still⟩

end Segments

namespace SharedLog

theorem balanced_of_window {options : WalOptions} {onOverflow : Overflow} {turns : List Turn}
    {window : SizeWindow}
    (bounded : ((ofOptions options onOverflow).run turns).segments.archive.window = some window) :
    ((ofOptions options onOverflow).run turns).segments.archive.Balanced := by
  have original : (Archive.ofOptions options onOverflow).window = some window :=
    ((ofOptions options onOverflow).window_run turns).symm.trans bounded
  have limited : options.maxArchiveSize.isSome := by
    rw [← Option.isSome_map]
    exact Option.isSome_of_eq_some original
  exact balanced_run (balanced_ofOptions limited) turns

/-- Whatever happened to a log before: a change of sizes by which its archive overflows forces the
release of the shortest run of oldest segments without which the archive is below its minimum. The
tracked segments above the floor are then less than a positive minimum, as long as no tracked size
is negative. Any other change of sizes is one of the archive alone. -/
theorem addSize_releases (options : WalOptions) (onOverflow : Overflow) (turns : List Turn)
    (segment : Nat) (change : Int) :
    let before := ((ofOptions options onOverflow).run turns).segments
    let after := before.addSize segment change
    let tracked := after.archive.segments
    after.archive = before.archive.addSize segment change ∧
      (∀ window, before.Overflows segment change window →
        ∃ givenUp, Archive.ShortestRun window.min after.archive.total tracked givenUp ∧
          before.ForcesRelease after window.max givenUp ∧
          (0 < window.min → (∀ entry ∈ tracked, 0 ≤ entry.2) →
            Archive.bytesOf (tracked.filter fun entry => after.reservations.grants entry.1) <
              window.min)) ∧
      ((∀ window, ¬ before.Overflows segment change window) →
        after = { before with archive := after.archive }) := by
  intro before after tracked
  have archive := before.addSize_archive segment change
  refine ⟨archive, ?_, ?_⟩
  · intro window overflows
    exact overflows.forcesRelease (balanced_of_window overflows.bounded)
  · intro none
    rw [archive]
    exact Segments.addSize_of_none (Segments.givenUp?_eq_none_iff.2 none)

/-- The reader of the oldest segment loses its reservation to the byte by which the archive reaches
its maximum, and nobody loses anything to the bytes before it. -/
theorem addSize_releases_readFromTheStart :
    let before :=
      ((ofOptions smallArchive .wraps).run (.call .observe :: readFromTheStart)).segments
    let full := before.addSize 5 150
    (∃ givenUp,
      Archive.ShortestRun 400 1000 [(1, 300), (2, 350), (4, 200), (5, 150)] givenUp ∧
        before.ForcesRelease full 1000 givenUp ∧
        Archive.bytesOf (full.archive.segments.filter fun entry =>
          full.reservations.grants entry.1) < 400) ∧
      told 0 full.journal = told 0 before.journal ++ [some 4] ∧
      before.addSize 5 149 = { before with archive := (before.addSize 5 149).archive } := by
  intro before full
  have bounded : before.archive.window = some { min := 400, max := 1000 } := by decide
  refine ⟨?_, by decide, ?_⟩
  · obtain ⟨givenUp, shortest, released, less⟩ :=
      (addSize_releases smallArchive .wraps (.call .observe :: readFromTheStart) 5 150).2.1
        { min := 400, max := 1000 } ⟨bounded, by decide, by decide, by decide⟩
    have tracked : full.archive.segments = [(1, 300), (2, 350), (4, 200), (5, 150)] := by decide
    have total : full.archive.total = 1000 := by decide
    change Archive.ShortestRun 400 full.archive.total full.archive.segments givenUp at shortest
    rw [total, tracked] at shortest
    exact ⟨givenUp, shortest, released, less (by decide) (by decide)⟩
  · obtain ⟨-, -, alone⟩ :=
      addSize_releases smallArchive .wraps (.call .observe :: readFromTheStart) 5 149
    apply alone
    rintro window ⟨limited, -, reached, -⟩
    cases limited.symm.trans bounded
    exact absurd reached (by decide)

end SharedLog

end Durability
