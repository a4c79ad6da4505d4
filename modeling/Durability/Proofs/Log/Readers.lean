import Durability.Proofs.Log.ReservationFloor
import Mathlib.Data.List.Induction
import Mathlib.Data.List.Perm.Subperm

/-! Readers that keep their accounts. A reader gives a segment back at most as often as it was
granted it, so together the readers have given it back at most as often as they hold it. That alone
does not make every release succeed: a forced release takes reservations away without a word to
their readers. It is the only thing that does, and what it took stays taken. -/

namespace Durability

namespace Reservations

def countAfter (reservations : Reservations) (segment : Nat) : Call → Nat
  | .reserve other =>
    if other = segment ∧ (reservations.reserve other).1 = .done then
      (reservations.count segment + 1) % 2 ^ 32
    else reservations.count segment
  | .release other =>
    if other = segment then reservations.count segment - 1 else reservations.count segment
  | .raiseFloor _ => reservations.count segment
  | .forceRelease other => if other < segment then reservations.count segment else 0

theorem count_insert (reservations : Reservations) (other : Nat) (uses : UInt32)
    (segment : Nat) :
    { reservations with counts := reservations.counts.insert other uses }.count segment =
      if other = segment then uses.toNat else reservations.count segment := by
  simp only [count, Reservations.uses, KeyMap.find?_insert]
  by_cases same : segment = other
  · rw [if_pos same, if_pos same.symm]
    rfl
  · rw [if_neg same, if_neg (fun equal => same equal.symm)]

theorem count_erase (reservations : Reservations) (other segment : Nat) :
    { reservations with counts := reservations.counts.erase other }.count segment =
      if other = segment then 0 else reservations.count segment := by
  simp only [count, uses, KeyMap.find?_erase]
  by_cases same : segment = other
  · rw [if_pos same, if_pos same.symm]
    rfl
  · rw [if_neg same, if_neg (fun equal => same equal.symm)]

theorem count_reserve (reservations : Reservations) (other segment : Nat) :
    (reservations.reserve other).2.count segment =
      if other = segment ∧ (reservations.reserve other).1 = .done then
        (reservations.count segment + 1) % 2 ^ 32
      else reservations.count segment := by
  have made := reservations.reserve_reserved other
  generalize reservations.reserve other = after at made ⊢
  cases made with
  | refused | failed => simp
  | done above counted room =>
      rw [count_insert]
      by_cases same : other = segment
      · subst same
        rw [if_pos rfl, if_pos ⟨rfl, rfl⟩, counted]
      · rw [if_neg same, if_neg fun both => same both.1]

theorem count_release (reservations : Reservations) (other segment : Nat) :
    (reservations.release other).2.count segment =
      if other = segment then reservations.count segment - 1
      else reservations.count segment := by
  by_cases same : other = segment
  · subst same
    rw [if_pos rfl]
    have made := reservations.release_released other
    generalize reservations.release other = after at made ⊢
    cases made with
    | failed unreserved => exact unreserved.trans (congrArg (· - 1) unreserved).symm
    | last single => rw [count_erase, if_pos rfl, single]
    | done several counted => rw [count_insert, if_pos rfl, counted]
  · rw [if_neg same]
    have made := reservations.release_released other
    generalize reservations.release other = after at made ⊢
    cases made with
    | failed => rfl
    | last => rw [count_erase, if_neg same]
    | done => rw [count_insert, if_neg same]

theorem count_call (reservations : Reservations) (call : Call) (segment : Nat) :
    (reservations.call call).count segment = reservations.countAfter segment call := by
  cases call with
  | reserve other => exact reservations.count_reserve other segment
  | release other => exact reservations.count_release other segment
  | raiseFloor other =>
      change (reservations.raiseFloor other).2.count segment = reservations.count segment
      have made := reservations.raiseFloor_raised other
      generalize reservations.raiseFloor other = after at made ⊢
      cases made <;> rfl
  | forceRelease other =>
      change (((reservations.counts.dropThrough other).find? segment).getD 0).toNat =
        if other < segment then reservations.count segment else 0
      rw [KeyMap.find?_dropThrough]
      by_cases after : other < segment
      · rw [if_pos after, if_pos after]
        rfl
      · rw [if_neg after, if_neg after]
        rfl

theorem count_lt_of_granted {reservations : Reservations} {segment : Nat}
    (granted : (reservations.reserve segment).1 = .done)
    (fits : ¬ reservations.Overruns (.reserve segment)) :
    reservations.count segment + 1 < 2 ^ 32 := by
  obtain ⟨above, room⟩ := (reservations.reserve_done_iff segment).1 granted
  have small := reservations.count_lt segment
  have notFull : reservations.count segment + 1 ≠ 2 ^ 32 := by
    intro full
    cases mode : reservations.onOverflow with
    | fails => exact room ⟨mode, full⟩
    | wraps => exact fits ⟨segment, rfl, above, mode, full⟩
  omega

theorem run_append (reservations : Reservations) (first second : List Call) :
    reservations.run (first ++ second) = (reservations.run first).run second :=
  List.foldl_append

theorem count_run_le (onOverflow : Overflow) (calls : List Call) (segment : Nat) :
    ((empty onOverflow).run calls).count segment ≤ calls.length := by
  induction calls using List.reverseRecOn with
  | nil => exact Nat.le_refl 0
  | append_singleton calls call ih =>
      have moved : (empty onOverflow).run (calls ++ [call]) =
          ((empty onOverflow).run calls).call call := run_append _ calls [call]
      rw [moved, count_call, List.length_append, List.length_singleton]
      cases call with
      | reserve other =>
          have wrapped := Nat.mod_le (((empty onOverflow).run calls).count segment + 1) (2 ^ 32)
          rw [countAfter]
          split <;> omega
      | release other =>
          rw [countAfter]
          split <;> omega
      | raiseFloor other => exact Nat.le_succ_of_le ih
      | forceRelease other =>
          rw [countAfter]
          split <;> omega

theorem fits_of_length_lt (onOverflow : Overflow) {calls : List Call}
    (few : calls.length < 2 ^ 32) : (empty onOverflow).Fits calls := by
  induction calls using List.reverseRecOn with
  | nil => trivial
  | append_singleton calls call ih =>
      rw [List.length_append, List.length_singleton] at few
      refine (fits_append _ calls [call]).2 ⟨ih (by omega), ?_, trivial⟩
      rintro ⟨segment, -, -, -, full⟩
      have counted := count_run_le onOverflow calls segment
      omega

theorem run_replicate_reserve (segment times : Nat) :
    let after := (empty .wraps).run (List.replicate times (.reserve segment))
    after.count segment = times % 2 ^ 32 ∧ after.floor = none ∧ after.onOverflow = .wraps ∧
      (0 < times → after.isReserved segment = true) := by
  induction times with
  | zero => exact ⟨rfl, rfl, rfl, nofun⟩
  | succ times ih =>
      obtain ⟨counted, floorless, wraps, -⟩ := ih
      rw [List.replicate_succ', run_append]
      generalize (empty .wraps).run (List.replicate times (.reserve segment)) = before at *
      have single : before.run [.reserve segment] = (before.reserve segment).2 := rfl
      rw [single]
      have made := before.reserve_reserved segment
      generalize before.reserve segment = answer at made ⊢
      cases made with
      | refused within =>
          obtain ⟨floor, isFloor, -⟩ := within
          rw [floorless] at isFloor
          cases isFloor
      | failed above checked =>
          rw [wraps] at checked
          cases checked
      | done above next room =>
          refine ⟨?_, floorless, wraps, fun _ => ?_⟩
          · rw [count_insert, if_pos rfl, next, counted, Nat.mod_add_mod]
          · rw [isReserved, KeyMap.contains, KeyMap.find?_insert, if_pos rfl]
            rfl

theorem mem_lowered (reservations : Reservations) {calls : List Call} {segment : Nat}
    (forced : .forceRelease segment ∈ calls) : segment ∈ reservations.lowered calls := by
  induction calls generalizing reservations with
  | nil => exact absurd forced List.not_mem_nil
  | cons call calls ih =>
      rw [lowered, List.mem_append]
      rcases List.mem_cons.1 forced with rfl | later
      · exact Or.inl (List.mem_singleton_self segment)
      · exact Or.inr (ih _ later)

theorem count_run_of_forced {onOverflow : Overflow} {calls : List Call} {last segment : Nat}
    (forced : .forceRelease last ∈ calls) (within : segment ≤ last) :
    ((empty onOverflow).run calls).count segment = 0 := by
  have kept : ((empty onOverflow).run calls).WellKept := (wellKept_empty onOverflow).run calls
  have put := mem_lowered (empty onOverflow) forced
  obtain ⟨floor, highest⟩ := Option.isSome_iff_exists.1 (List.isSome_max?_of_mem put)
  have isFloor : ((empty onOverflow).run calls).floor = some floor :=
    (run_floor (empty onOverflow) calls).trans highest
  have reached := (List.max?_eq_some_iff.1 highest).2 last put
  rcases Nat.eq_zero_or_pos (((empty onOverflow).run calls).count segment) with none | reserved
  · exact none
  · have above := kept.floor_lt (isReserved_of_count_pos reserved) floor isFloor
    omega

end Reservations

theorem Segments.count_of_addSize (segments : Segments) {reservations : Reservations}
    {other segment : Nat} {bytes : Int}
    (spared : ∀ last, .forceRelease last ∈ segments.storeCalls (.addSize other bytes) →
      last < segment) :
    (reservations.run (segments.storeCalls (.addSize other bytes))).count segment =
      reservations.count segment := by
  cases given : segments.givenUp? other bytes with
  | none =>
      simp only [storeCalls, given]
      rfl
  | some givenUp =>
      simp only [storeCalls, given] at spared ⊢
      have below : givenUp.last < segment := spared givenUp.last List.mem_cons_self
      exact (reservations.count_call (.forceRelease givenUp.last) segment).trans (if_pos below)

namespace SharedLog

def reserves (log : SharedLog) (segment : Nat) : Turn → Bool
  | .call (.reserve other) => other == segment && (log.segments.reserve other).1 = .done
  | _ => false

def Turn.releases (segment : Nat) : Turn → Bool
  | .call (.release other) => other == segment
  | _ => false

def grantedTo (log : SharedLog) (segment : Nat) : List (Nat × Turn) → List Nat
  | [] => []
  | (client, turn) :: turns =>
    (if log.reserves segment turn then [client] else []) ++
      (log.turn turn).grantedTo segment turns

def returnedBy (segment : Nat) (turns : List (Nat × Turn)) : List Nat :=
  (turns.filter fun made => made.2.releases segment).map Prod.fst

/-- At no time has a client given a segment back more often than it was granted it. -/
def WellBehaved (log : SharedLog) (turns : List (Nat × Turn)) : Prop :=
  ∀ made, made <+: turns → ∀ client segment,
    (returnedBy segment made).count client ≤ (log.grantedTo segment made).count client

theorem grantedTo_append (log : SharedLog) (segment : Nat) (first second : List (Nat × Turn)) :
    log.grantedTo segment (first ++ second) =
      log.grantedTo segment first ++
        (log.run (first.map Prod.snd)).grantedTo segment second := by
  induction first generalizing log with
  | nil => rfl
  | cons made first ih =>
      rw [List.cons_append, grantedTo, grantedTo, ih, List.append_assoc]
      rfl

theorem returnedBy_append (segment : Nat) (first second : List (Nat × Turn)) :
    returnedBy segment (first ++ second) =
      returnedBy segment first ++ returnedBy segment second := by
  rw [returnedBy, List.filter_append, List.map_append]
  rfl

theorem WellBehaved.returned_le {log : SharedLog} {turns : List (Nat × Turn)}
    (behaved : log.WellBehaved turns) (segment : Nat) :
    (returnedBy segment turns).length ≤ (log.grantedTo segment turns).length := by
  have each := fun client => behaved turns (List.prefix_refl turns) client segment
  exact (List.subperm_iff_count.2 each).length_le

theorem WellBehaved.before {log : SharedLog} {first second : List (Nat × Turn)}
    (behaved : log.WellBehaved (first ++ second)) : log.WellBehaved first :=
  fun made inside => behaved made (inside.trans (List.prefix_append first second))

theorem wellBehaved_nil (log : SharedLog) : log.WellBehaved [] := by
  intro made inside client segment
  rw [List.prefix_nil.1 inside]
  exact Nat.le_refl 0

theorem WellBehaved.append {log : SharedLog} {turns : List (Nat × Turn)}
    (behaved : log.WellBehaved turns) (client : Nat) (turn : Turn)
    (covered : ∀ segment, turn.releases segment = true →
      (returnedBy segment turns).count client < (log.grantedTo segment turns).count client) :
    log.WellBehaved (turns ++ [(client, turn)]) := by
  intro made inside other segment
  rcases List.prefix_concat_iff.1 inside with rfl | earlier
  · have before := behaved turns (List.prefix_refl turns) other segment
    rw [returnedBy_append, grantedTo_append, List.count_append, List.count_append]
    by_cases returns : turn.releases segment = true
    · have single : returnedBy segment [(client, turn)] = [client] := by simp [returnedBy, returns]
      by_cases same : other = client
      · subst same
        have room := covered segment returns
        rw [single, List.count_singleton_self]
        omega
      · have none : [client].count other = 0 :=
          List.count_eq_zero_of_not_mem fun member => same (List.mem_singleton.1 member)
        rw [single, none]
        omega
    · have nothing : returnedBy segment [(client, turn)] = [] := by simp [returnedBy, returns]
      rw [nothing, List.count_nil]
      omega
  · exact behaved made earlier other segment

theorem turn_count (log : SharedLog) (turn : Turn) (segment : Nat)
    (spared : ∀ last, .forceRelease last ∈ log.storeCalls turn → last < segment)
    (fits : log.segments.reservations.Fits (log.storeCalls turn)) :
    (log.turn turn).segments.reservations.count segment =
      if turn.releases segment then log.segments.reservations.count segment - 1
      else if log.reserves segment turn then log.segments.reservations.count segment + 1
      else log.segments.reservations.count segment := by
  rw [turn_reservations]
  cases turn with
  | truncate threshold => rfl
  | call call =>
      cases call with
      | reserve other =>
          change (log.segments.reservations.call (.reserve other)).count segment = _
          have outcome : (log.segments.reserve other).1 =
              (log.segments.reservations.reserve other).1 := rfl
          simp only [Reservations.count_call, Reservations.countAfter, Turn.releases, reserves,
            outcome, Bool.false_eq_true, if_false, Bool.and_eq_true, beq_iff_eq, decide_eq_true_eq]
          by_cases granted :
              other = segment ∧ (log.segments.reservations.reserve other).1 = .done
          · obtain ⟨rfl, done⟩ := granted
            have small := Reservations.count_lt_of_granted done fits.1
            rw [if_pos ⟨rfl, done⟩, if_pos ⟨rfl, done⟩, Nat.mod_eq_of_lt small]
          · rw [if_neg granted, if_neg granted]
      | release other =>
          change (log.segments.reservations.call (.release other)).count segment = _
          rw [Reservations.count_call]
          simp only [Reservations.countAfter, Turn.releases, reserves, Bool.false_eq_true, if_false,
            beq_iff_eq]
      | raiseFloor other => exact log.segments.reservations.count_call (.raiseFloor other) segment
      | forceRelease other =>
          have below : other < segment := spared other List.mem_cons_self
          exact (log.segments.reservations.count_call (.forceRelease other) segment).trans
            (if_pos below)
      | addSize other bytes => exact log.segments.count_of_addSize spared
      | observe | resetSizes | interrupt | resume => rfl
  | advance number storage =>
      simp only [storeCalls, Turn.releases, reserves, Bool.false_eq_true, if_false] at spared ⊢
      cases current : log.truncations[number]? with
      | none => rfl
      | some truncation =>
          rw [current] at spared
          cases truncation with
          | protecting progress other size =>
              exact log.segments.reservations.count_call (.raiseFloor other) segment
          | accounting progress other size => exact log.segments.count_of_addSize spared
          | start | listing | checking | deleting | done => rfl

theorem storeHistory_append (log : SharedLog) (first second : List Turn) :
    log.storeHistory (first ++ second) =
      log.storeHistory first ++ (log.run first).storeHistory second := by
  induction first generalizing log with
  | nil => rfl
  | cons turn first ih =>
      rw [List.cons_append, storeHistory, storeHistory, ih, List.append_assoc]
      rfl

theorem count_add_returned (options : WalOptions) (onOverflow : Overflow)
    (turns : List (Nat × Turn)) (segment : Nat)
    (behaved : (ofOptions options onOverflow).WellBehaved turns)
    (fits : (Reservations.empty onOverflow).Fits
      ((ofOptions options onOverflow).storeHistory (turns.map Prod.snd)))
    (spared : ∀ last,
      .forceRelease last ∈ (ofOptions options onOverflow).storeHistory (turns.map Prod.snd) →
        last < segment) :
    ((ofOptions options onOverflow).run
        (turns.map Prod.snd)).segments.reservations.count segment +
        (returnedBy segment turns).length =
      ((ofOptions options onOverflow).grantedTo segment turns).length := by
  induction turns using List.reverseRecOn with
  | nil => rfl
  | append_singleton turns made ih =>
      obtain ⟨client, turn⟩ := made
      rw [List.map_append, storeHistory_append] at spared fits
      obtain ⟨fitted, fits⟩ := (Reservations.fits_append _ _ _).1 fits
      have stored : (Reservations.empty onOverflow).run
          ((ofOptions options onOverflow).storeHistory (turns.map Prod.snd)) =
            ((ofOptions options onOverflow).run (turns.map Prod.snd)).segments.reservations :=
        (run_reservations (ofOptions options onOverflow) _).symm
      rw [stored] at fits
      have last_fits := ((Reservations.fits_append _ _ _).1 fits).1
      have before := ih behaved.before fitted fun last member =>
        spared last (List.mem_append_left _ member)
      have now := ((ofOptions options onOverflow).run (turns.map Prod.snd)).turn_count turn segment
        (fun last member => spared last (List.mem_append_right _ (List.mem_append_left _ member)))
        last_fits
      have balance := behaved.returned_le segment
      have next : (ofOptions options onOverflow).run ((turns ++ [(client, turn)]).map Prod.snd) =
          ((ofOptions options onOverflow).run (turns.map Prod.snd)).turn turn := by
        rw [List.map_append, run_append]
        rfl
      rw [returnedBy_append, grantedTo_append, List.length_append, List.length_append] at balance ⊢
      rw [next, now]
      by_cases returns : turn.releases segment
      · -- The readers had more than they had given back, so this reservation was there.
        have notGranted : ((ofOptions options onOverflow).run
            (turns.map Prod.snd)).reserves segment turn = false := by
          cases turn with
          | call call => cases call <;> first | rfl | cases returns
          | truncate threshold => rfl
          | advance number storage => rfl
        simp only [returnedBy, grantedTo, returns, notGranted, List.filter_cons, List.filter_nil,
          if_true, List.map_cons, List.map_nil, List.length_cons, List.length_nil,
          Bool.false_eq_true, if_false, List.append_nil] at balance before ⊢
        omega
      · simp only [returnedBy, grantedTo, returns, List.filter_cons, List.filter_nil,
          List.map_nil, List.length_nil, Bool.false_eq_true, if_false] at before ⊢
        by_cases granted :
            ((ofOptions options onOverflow).run (turns.map Prod.snd)).reserves segment turn
        · simp only [granted, if_true, List.length_append, List.length_cons, List.length_nil]
          omega
        · simp only [granted, Bool.false_eq_true, if_false, List.append_nil, List.length_nil]
          omega

/-- Among readers that give nothing back which they were not granted, and as long as no count runs
over, a release fails exactly if a forced release has taken the segment away, by whomever and for
whatever reason. -/
theorem release_refused_iff (options : WalOptions) (onOverflow : Overflow)
    (turns : List (Nat × Turn)) (reader segment : Nat)
    (behaved : (ofOptions options onOverflow).WellBehaved
      (turns ++ [(reader, .call (.release segment))]))
    (fitting : onOverflow = .fails ∨ (Reservations.empty onOverflow).Fits
      ((ofOptions options onOverflow).storeHistory (turns.map Prod.snd))) :
    (((ofOptions options onOverflow).run (turns.map Prod.snd)).segments.release segment).1 =
        .failed ↔
      ∃ last, .forceRelease last ∈
          (ofOptions options onOverflow).storeHistory (turns.map Prod.snd) ∧
        segment ≤ last := by
  refine (Reservations.release_failed_iff _ segment).trans ⟨?_, ?_⟩
  · intro none
    by_contra spared
    have below : ∀ last,
        .forceRelease last ∈ (ofOptions options onOverflow).storeHistory (turns.map Prod.snd) →
          last < segment := by
      intro last forced
      by_contra within
      exact spared ⟨last, forced, Nat.le_of_not_lt within⟩
    have fits := fitting.elim (fun checked => Reservations.fits_of_fails checked _) id
    have balance := count_add_returned options onOverflow turns segment behaved.before fits below
    have together := behaved.returned_le segment
    have returns : returnedBy segment [(reader, .call (.release segment))] = [reader] := by
      simp [returnedBy, Turn.releases]
    have grants (log : SharedLog) :
        log.grantedTo segment [(reader, .call (.release segment))] = [] := rfl
    rw [returnedBy_append, grantedTo_append, returns, grants, List.length_append,
      List.append_nil, List.length_singleton] at together
    omega
  · rintro ⟨last, forced, within⟩
    rw [run_reservations]
    exact Reservations.count_run_of_forced forced within

theorem storeHistory_replicate_reserve (log : SharedLog) (segment times : Nat) :
    log.storeHistory (List.replicate times (.call (.reserve segment))) =
      List.replicate times (.reserve segment) := by
  induction times generalizing log with
  | zero => rfl
  | succ times ih =>
      rw [List.replicate_succ, List.replicate_succ, storeHistory, ih]
      rfl

/-- Where counts wrap, a segment that was reserved a multiple of 2 ^ 32 times is lost to its readers
although nothing was released by force: its entry stays, and a release fails. -/
theorem release_fails_of_overrun (options : WalOptions) (segment : Nat) {times : Nat}
    (reserved : 0 < times) :
    let turns := List.replicate times (Turn.call (.reserve segment))
    let log := (ofOptions options .wraps).run turns
    ((log.segments.release segment).1 = .failed ↔ times % 2 ^ 32 = 0) ∧
      log.segments.reservations.isReserved segment = true ∧
      ∀ last, .forceRelease last ∉ (ofOptions options .wraps).storeHistory turns := by
  intro turns log
  have history := (ofOptions options .wraps).storeHistory_replicate_reserve segment times
  have left : log.segments.reservations =
      (Reservations.empty .wraps).run (List.replicate times (.reserve segment)) := by
    rw [← history]
    exact run_reservations (ofOptions options .wraps) turns
  obtain ⟨counted, -, -, entered⟩ := Reservations.run_replicate_reserve segment times
  rw [← left] at counted entered
  refine ⟨?_, entered reserved, fun last forced => ?_⟩
  · rw [← counted]
    exact Reservations.release_failed_iff _ segment
  · rw [history] at forced
    cases List.eq_of_mem_replicate forced

def smallArchive : WalOptions :=
  { minArchiveSize := some 400, maxArchiveSize := some 1000, version := .v2 }

def sparedReaders : List (Nat × Turn) :=
  [(0, .call (.reserve 3)), (2, .call (.addSize 1 700)), (1, .call (.reserve 3)),
    (2, .call (.addSize 2 350)), (0, .call (.release 3))]

theorem sparedReaders_release :
    (ofOptions smallArchive .wraps).WellBehaved (sparedReaders ++ [(1, .call (.release 3))]) ∧
      (((ofOptions smallArchive .wraps).run
        (sparedReaders.map Prod.snd)).segments.reserve 1).1 = .refused ∧
      (((ofOptions smallArchive .wraps).run
        (sparedReaders.map Prod.snd)).segments.release 3).1 ≠ .failed := by
  have reading : (ofOptions smallArchive .wraps).WellBehaved (sparedReaders.take 4) :=
    ((((wellBehaved_nil _).append 0 _ fun _ returns => Bool.noConfusion returns).append 2 _
      fun _ returns => Bool.noConfusion returns).append 1 _
      fun _ returns => Bool.noConfusion returns).append 2 _ fun _ returns =>
        Bool.noConfusion returns
  have finished : (ofOptions smallArchive .wraps).WellBehaved sparedReaders := by
    refine reading.append 0 (.call (.release 3)) fun segment returns => ?_
    cases of_decide_eq_true returns
    decide
  have both : (ofOptions smallArchive .wraps).WellBehaved
      (sparedReaders ++ [(1, .call (.release 3))]) := by
    refine finished.append 1 (.call (.release 3)) fun segment returns => ?_
    cases of_decide_eq_true returns
    decide
  have history : (ofOptions smallArchive .wraps).storeHistory (sparedReaders.map Prod.snd) =
      [.reserve 3, .reserve 3, .forceRelease 1, .release 3] := by decide
  have fits : (Reservations.empty .wraps).Fits
      ((ofOptions smallArchive .wraps).storeHistory (sparedReaders.map Prod.snd)) := by
    rw [history]
    exact Reservations.fits_of_length_lt .wraps (by decide)
  refine ⟨both, by decide, fun failed => ?_⟩
  obtain ⟨last, forced, within⟩ :=
    (release_refused_iff smallArchive .wraps sparedReaders 1 3 both (.inr fits)).1 failed
  rw [history] at forced
  have only : last = 1 := by simpa using forced
  omega

def revokedReader : List (Nat × Turn) :=
  [(0, .call (.reserve 1)), (1, .call (.addSize 1 1000))]

/-- It gives back what it was granted, once, and is refused. -/
theorem revokedReader_release :
    (ofOptions smallArchive .wraps).WellBehaved (revokedReader ++ [(0, .call (.release 1))]) ∧
      (((ofOptions smallArchive .wraps).run
        (revokedReader.map Prod.snd)).segments.release 1).1 = .failed := by
  have reading : (ofOptions smallArchive .wraps).WellBehaved revokedReader :=
    ((wellBehaved_nil _).append 0 _ fun _ returns => Bool.noConfusion returns).append 1 _
      fun _ returns => Bool.noConfusion returns
  refine ⟨reading.append 0 (.call (.release 1)) fun segment returns => ?_, by decide⟩
  cases of_decide_eq_true returns
  decide

end SharedLog

end Durability
