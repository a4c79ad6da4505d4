import Durability.Proofs.Log.SharedLog
import Mathlib.Data.List.Infix

/-! What observers of the lowest reserved segment are told. Every call to the store of reservations
tells each observer the new lowest segment if the call changed it, and nothing otherwise. So an
observer that keeps what it was told last always knows the lowest reserved segment. -/

namespace Durability

namespace Reservations

def changed? (reservations : Reservations) (call : Call) : Option (Option Nat) :=
  let after := reservations.call call
  if after.lowest? = reservations.lowest? then none else some after.lowest?

def changes (reservations : Reservations) : List Call → List (Option Nat)
  | [] => []
  | call :: calls =>
    (reservations.changed? call).toList ++ (reservations.call call).changes calls

theorem changes_append (reservations : Reservations) (first second : List Call) :
    reservations.changes (first ++ second) =
      reservations.changes first ++ (reservations.run first).changes second := by
  induction first generalizing reservations with
  | nil => rfl
  | cons call first ih =>
      rw [List.cons_append, changes, changes, ih, List.append_assoc]
      rfl

theorem changes_getLastD (reservations : Reservations) (calls : List Call) :
    (reservations.changes calls).getLastD reservations.lowest? =
      (reservations.run calls).lowest? := by
  induction calls generalizing reservations with
  | nil => rfl
  | cons call calls ih =>
      have rest := ih (reservations.call call)
      change _ = ((reservations.call call).run calls).lowest?
      rw [← rest, changes, changed?]
      split
      next same => rw [Option.toList_none, List.nil_append, same]
      next => rw [Option.toList_some, List.singleton_append, List.getLastD_cons]

theorem changes_isChain (reservations : Reservations) (calls : List Call) :
    List.IsChain (· ≠ ·) (reservations.lowest? :: reservations.changes calls) := by
  induction calls generalizing reservations with
  | nil => exact .singleton _
  | cons call calls ih =>
      have rest := ih (reservations.call call)
      rw [changes, changed?]
      split
      next same =>
        rw [same] at rest
        exact rest
      next differs => exact .cons_cons (Ne.symm differs) rest

theorem changes_of_length_le (reservations : Reservations) {calls : List Call}
    (few : calls.length ≤ 1) :
    let after := reservations.run calls
    reservations.changes calls =
      (if after.lowest? = reservations.lowest? then none else some after.lowest?).toList := by
  match calls with
  | [] =>
      change [] = (if reservations.lowest? = reservations.lowest? then none else _).toList
      rw [if_pos rfl]
      rfl
  | [call] => exact List.append_nil _
  | _ :: _ :: _ => simp at few

theorem lowest?_eq_none_iff (reservations : Reservations) :
    reservations.lowest? = none ↔ reservations.counts.entries = [] := by
  rw [lowest?, Option.map_eq_none_iff, KeyMap.least?, List.head?_eq_none_iff]

end Reservations

def told (observer : Nat) (journal : List Notice) : List (Option Nat) :=
  journal.filterMap fun notice => match notice with
    | .lowestReserved number segment => if number = observer then some segment else none
    | .forceReleased _ _ | .deleted _ | .deletionFailed _ => none

theorem told_append (observer : Nat) (first second : List Notice) :
    told observer (first ++ second) = told observer first ++ told observer second :=
  List.filterMap_append

theorem told_range (observer count : Nat) (segment : Option Nat) :
    told observer ((List.range count).map fun number => .lowestReserved number segment) =
      if observer < count then [segment] else [] := by
  induction count with
  | zero => rfl
  | succ count ih =>
      rw [List.range_succ, List.map_append, told_append, ih]
      rcases Nat.lt_trichotomy observer count with below | same | above
      · rw [if_pos below, if_pos (Nat.lt_succ_of_lt below)]
        have other : ¬ count = observer := by omega
        simp [told, other]
      · simp [told, same]
      · have beyond : ¬ observer < count + 1 := by omega
        have other : ¬ count = observer := by omega
        rw [if_neg (by omega), if_neg beyond]
        simp [told, other]

namespace Segments

/-- From one state of the log to another its reservations went through these calls, and so much is
what everyone was told: each observer the changes that the calls made, and nobody else anything. -/
structure Tells (before after : Segments) (calls : List Reservations.Call) : Prop where
  observers : before.observers ≤ after.observers
  reservations : after.reservations = before.reservations.run calls
  observer : ∀ observer < before.observers, told observer after.journal =
    told observer before.journal ++ before.reservations.changes calls
  nobody : ∀ observer ≥ after.observers, told observer after.journal =
    told observer before.journal

theorem Tells.trans {first second third : Segments} {calls others : List Reservations.Call}
    (one : first.Tells second calls) (other : second.Tells third others) :
    first.Tells third (calls ++ others) := by
  refine ⟨one.observers.trans other.observers, ?_, ?_, ?_⟩
  · rw [other.reservations, one.reservations]
    exact List.foldl_append.symm
  · intro observer registered
    have still := Nat.lt_of_lt_of_le registered one.observers
    rw [other.observer observer still, one.observer observer registered, List.append_assoc,
      Reservations.changes_append, one.reservations]
  · intro observer unknown
    have before := Nat.le_trans other.observers unknown
    rw [other.nobody observer unknown, one.nobody observer before]

theorem tells_nothing {before after : Segments} (observers : before.observers ≤ after.observers)
    (same : after.reservations = before.reservations)
    (silent : ∀ observer, told observer after.journal = told observer before.journal) :
    before.Tells after [] :=
  ⟨observers, same, fun observer _ => (silent observer).trans (List.append_nil _).symm,
    fun observer _ => silent observer⟩

/-- What observers are told when the reservations become others: the lowest reserved segment, each
of them once, if it is not the same as before. -/
def news (segments : Segments) (reservations : Reservations) : List Notice :=
  if reservations.lowest? = segments.reservations.lowest? then []
  else (List.range segments.observers).map fun observer =>
    .lowestReserved observer reservations.lowest?

theorem withReservations_journal (segments : Segments) (reservations : Reservations) :
    (segments.withReservations reservations).journal =
      segments.journal ++ segments.news reservations := by
  unfold withReservations news
  by_cases same : reservations.lowest? = segments.reservations.lowest?
  · rw [if_pos same, if_pos same, List.append_nil]
  · rw [if_neg same, if_neg same]
    rfl

theorem withReservations_observers (segments : Segments) (reservations : Reservations) :
    (segments.withReservations reservations).observers = segments.observers := by
  unfold withReservations
  split <;> rfl

theorem told_news (segments : Segments) (reservations : Reservations) (observer : Nat) :
    told observer (segments.news reservations) =
      if observer < segments.observers then
        (if reservations.lowest? = segments.reservations.lowest? then none
          else some reservations.lowest?).toList
      else [] := by
  unfold news
  by_cases same : reservations.lowest? = segments.reservations.lowest?
  · rw [if_pos same, if_pos same, Option.toList_none, ite_self]
    rfl
  · rw [if_neg same, if_neg same, told_range]
    rfl

theorem withReservations_tells (segments : Segments) {call : Reservations.Call}
    {after : Reservations} (answered : segments.reservations.call call = after) :
    segments.Tells (segments.withReservations after) [call] := by
  have changes : segments.reservations.changes [call] =
      (segments.reservations.changed? call).toList := List.append_nil _
  rw [Reservations.changed?, answered] at changes
  have observers := segments.withReservations_observers after
  refine ⟨observers.ge, ?_, ?_, ?_⟩
  · rw [withReservations_reservations]
    exact answered.symm
  · intro observer registered
    rw [withReservations_journal, told_append, told_news, if_pos registered, changes]
  · intro observer unknown
    rw [observers] at unknown
    rw [withReservations_journal, told_append, told_news, if_neg (Nat.not_lt.2 unknown),
      List.append_nil]

theorem tells_of_unchanged {before after : Segments} {call : Reservations.Call}
    (answered : before.reservations.call call = after.reservations)
    (same : after.reservations.counts = before.reservations.counts)
    (observers : after.observers = before.observers) (journal : after.journal = before.journal) :
    before.Tells after [call] := by
  have unchanged : before.reservations.changes [call] = [] := by
    have lowest : (before.reservations.call call).lowest? = before.reservations.lowest? := by
      rw [answered, Reservations.lowest?, same]
      rfl
    rw [Reservations.changes, Reservations.changed?, if_pos lowest]
    rfl
  refine ⟨observers.ge, answered.symm, ?_, fun _ _ => by rw [journal]⟩
  intro observer registered
  rw [journal, unchanged, List.append_nil]

theorem raiseFloor_tells (segments : Segments) (segment : Nat) :
    segments.Tells (segments.raiseFloor segment).2 [.raiseFloor segment] := by
  refine tells_of_unchanged rfl ?_ rfl rfl
  change (segments.reservations.raiseFloor segment).2.counts = _
  have made := segments.reservations.raiseFloor_raised segment
  generalize segments.reservations.raiseFloor segment = after at made ⊢
  cases made <;> rfl

theorem addSize_tells (segments : Segments) (segment : Nat) (change : Int) :
    segments.Tells (segments.addSize segment change)
      (segments.storeCalls (.addSize segment change)) := by
  cases answer : segments.givenUp? segment change with
  | none =>
      rw [addSize_of_none answer, storeCalls, answer]
      exact tells_nothing (Nat.le_refl _) rfl fun _ => rfl
  | some givenUp =>
      rw [addSize_of_givenUp answer, storeCalls, answer]
      -- The report of what was given up is nothing that observers are told.
      let updated : Segments :=
        { segments with archive := segments.archive.addSize segment change }
      let reported := updated.report
        [.forceReleased (segments.archive.window.elim 0 (·.max)) givenUp]
      have silent : segments.Tells reported [] :=
        tells_nothing (Nat.le_refl _) rfl fun observer =>
          (told_append observer _ _).trans (List.append_nil _)
      exact silent.trans (reported.withReservations_tells rfl)

theorem call_tells (segments : Segments) (call : Call) :
    segments.Tells (segments.call call) (segments.storeCalls call) := by
  cases call with
  | reserve segment => exact segments.withReservations_tells rfl
  | release segment => exact segments.withReservations_tells rfl
  | raiseFloor segment => exact segments.raiseFloor_tells segment
  | forceRelease segment => exact segments.withReservations_tells rfl
  | addSize segment change => exact segments.addSize_tells segment change
  | observe => exact tells_nothing (Nat.le_succ _) rfl fun _ => rfl
  | resetSizes | interrupt | resume => exact tells_nothing (Nat.le_refl _) rfl fun _ => rfl

end Segments

theorem Truncation.step_tells (storage : Storage) (segments : Segments)
    (truncation : Truncation) :
    segments.Tells (step storage segments truncation).2 (truncation.storeCalls segments) := by
  have same : segments.Tells segments [] :=
    Segments.tells_nothing (Nat.le_refl _) rfl fun _ => rfl
  cases truncation with
  | start threshold =>
      simp only [step]
      split <;> exact same
  | listing threshold checkpoint => exact same
  | checking progress =>
      simp only [step]
      split
      · exact same
      · split <;> exact same
  | protecting progress segment size =>
      rw [step_protecting]
      exact segments.raiseFloor_tells segment
  | deleting progress segment size =>
      simp only [step]
      split
      · exact same
      · exact Segments.tells_nothing (Nat.le_refl _) rfl fun observer =>
          (told_append observer _ _).trans (List.append_nil _)
  | accounting progress segment size => exact segments.addSize_tells segment (-size)
  | done result => exact same

namespace SharedLog

theorem turn_tells (log : SharedLog) (turn : Turn) :
    log.segments.Tells (log.turn turn).segments (log.storeCalls turn) := by
  have same : log.segments.Tells log.segments [] :=
    Segments.tells_nothing (Nat.le_refl _) rfl fun _ => rfl
  cases turn with
  | call call => exact log.segments.call_tells call
  | truncate threshold => exact same
  | advance number storage =>
      simp only [SharedLog.turn, storeCalls]
      cases log.truncations[number]? with
      | none => exact same
      | some truncation => exact truncation.step_tells storage log.segments

theorem run_tells (log : SharedLog) (turns : List Turn) :
    log.segments.Tells (log.run turns).segments (log.storeHistory turns) := by
  induction turns generalizing log with
  | nil => exact Segments.tells_nothing (Nat.le_refl _) rfl fun _ => rfl
  | cons turn turns ih => exact (log.turn_tells turn).trans (ih (log.turn turn))

theorem storeCalls_length_le (log : SharedLog) (turn : Turn) :
    (log.storeCalls turn).length ≤ 1 := by
  have grown (segments : Segments) (segment : Nat) (change : Int) :
      (segments.storeCalls (.addSize segment change)).length ≤ 1 := by
    rw [Segments.storeCalls, List.length_map]
    cases segments.givenUp? segment change with
    | none => exact Nat.zero_le 1
    | some givenUp => exact Nat.le_refl 1
  cases turn with
  | call call =>
      cases call with
      | addSize segment change => exact grown log.segments segment change
      | reserve | release | raiseFloor | forceRelease => exact Nat.le_refl 1
      | observe | resetSizes | interrupt | resume => exact Nat.zero_le 1
  | truncate threshold => exact Nat.zero_le 1
  | advance number storage =>
      simp only [storeCalls]
      cases log.truncations[number]? with
      | none => exact Nat.zero_le 1
      | some truncation =>
          cases truncation with
          | accounting progress segment size => exact grown log.segments segment (-size)
          | protecting => exact Nat.le_refl 1
          | start | listing | checking | deleting | done => exact Nat.zero_le 1

/-- An observer registered at any point of a run is told the lowest reserved segment after each of
the later calls to the store of reservations that changed it. What it is told is always news, and
what it was told last, or else the lowest segment at its registration, is the lowest one now. The
next turn tells it at most once, and that nothing is reserved exactly if the store becomes empty. -/
theorem observer_told (options : WalOptions) (onOverflow : Overflow) (earlier later : List Turn)
    (turn : Turn) :
    let before := (ofOptions options onOverflow).run earlier
    let observer := before.segments.observers
    let registered := before.turn (.call .observe)
    let history := registered.storeHistory later
    let log := registered.run later
    let values := told observer log.segments.journal
    let next := log.turn turn
    log.segments.reservations = registered.segments.reservations.run history ∧
      values = registered.segments.reservations.changes history ∧
      List.IsChain (· ≠ ·) (registered.segments.reservations.lowest? :: values) ∧
      values.getLastD registered.segments.reservations.lowest? =
        log.segments.reservations.lowest? ∧
      ∃ news : Option (Option Nat), told observer next.segments.journal = values ++ news.toList ∧
        (∀ lowest, news = some lowest ↔
          next.segments.reservations.lowest? ≠ log.segments.reservations.lowest? ∧
            lowest = next.segments.reservations.lowest?) ∧
        (news = some none ↔ log.segments.reservations.counts.entries ≠ [] ∧
          next.segments.reservations.counts.entries = []) := by
  intro before observer registered history log values next
  have silent : told observer registered.segments.journal = [] :=
    ((ofOptions options onOverflow).run_tells earlier).nobody observer (Nat.le_refl _)
  have known : observer < registered.segments.observers := Nat.lt_succ_self _
  have tells : registered.segments.Tells log.segments history := registered.run_tells later
  have values_eq : values = registered.segments.reservations.changes history := by
    have heard := tells.observer observer known
    rw [silent, List.nil_append] at heard
    exact heard
  have step : log.segments.Tells next.segments (log.storeCalls turn) := log.turn_tells turn
  refine ⟨tells.reservations, values_eq, ?_, ?_, ?_⟩
  · rw [values_eq]
    exact Reservations.changes_isChain _ history
  · rw [values_eq, Reservations.changes_getLastD, tells.reservations]
  · have heard := step.observer observer (Nat.lt_of_lt_of_le known tells.observers)
    rw [Reservations.changes_of_length_le _ (log.storeCalls_length_le turn),
      ← step.reservations] at heard
    refine ⟨_, heard, ?_, ?_⟩
    · intro lowest
      by_cases same : next.segments.reservations.lowest? = log.segments.reservations.lowest?
      · simp [same]
      · simp [same, eq_comm]
    · rw [← Reservations.lowest?_eq_none_iff, Ne, ← Reservations.lowest?_eq_none_iff]
      by_cases same : next.segments.reservations.lowest? = log.segments.reservations.lowest?
      · simp [same]
      · rw [if_neg same, Option.some_inj]
        constructor
        · intro empty
          exact ⟨fun reserved => same (empty.trans reserved.symm), empty⟩
        · exact And.right

example :
    let start := ofOptions { minArchiveSize := none, maxArchiveSize := none, version := .v2 } .wraps
    let after := start.run
      [.call .observe, .call (.reserve 5), .call (.reserve 5), .call (.release 5),
        .call (.release 5)]
    told 0 after.segments.journal = [some 5, none] := by decide

end SharedLog

end Durability
