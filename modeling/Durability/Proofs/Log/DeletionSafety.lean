import Durability.Proofs.Log.ReservationFloor
import Mathlib.Data.List.Basic

/-! No segment is deleted under a reader. A truncation looks at a segment in one call and deletes
it in a later one, and other clients make calls in between. What makes the deletion safe is the
floor: once the segment was put below it, every reservation lies above the segment, and since the
floor only rises no client can change that any more. -/

namespace Durability

deriving instance DecidableEq for Truncation

namespace Truncation

def checkpoint? : Truncation → Option Nat
  | .start _ | .done _ => none
  | .listing _ checkpoint => some checkpoint
  | .checking progress | .protecting progress _ _ | .deleting progress _ _
  | .accounting progress _ _ => some progress.checkpoint

/-- What a truncation relies on at its next call: the segment it works on lies below the
checkpoint it read, and from the deletion on also at or below the floor. -/
def Guarded (floor : Option Nat) : Truncation → Prop
  | .start _ | .listing _ _ | .checking _ | .done _ => True
  | .protecting progress segment _ => segment < progress.checkpoint
  | .deleting progress segment _ | .accounting progress segment _ =>
    segment < progress.checkpoint ∧ ∃ least ∈ floor, segment ≤ least

theorem Guarded.mono {before after : Option Nat} {truncation : Truncation}
    (guarded : truncation.Guarded before)
    (rises : ∀ floor ∈ before, ∃ raised ∈ after, floor ≤ raised) : truncation.Guarded after := by
  have higher {segment : Nat} (low : ∃ least ∈ before, segment ≤ least) :
      ∃ least ∈ after, segment ≤ least := by
    obtain ⟨least, isFloor, reached⟩ := low
    obtain ⟨raised, isRaised, above⟩ := rises least isFloor
    exact ⟨raised, isRaised, Nat.le_trans reached above⟩
  cases truncation with
  | deleting progress segment size => exact ⟨guarded.1, higher guarded.2⟩
  | accounting progress segment size => exact ⟨guarded.1, higher guarded.2⟩
  | start | listing | checking | protecting | done => exact guarded

theorem Guarded.step {segments : Segments} {truncation : Truncation}
    (guarded : truncation.Guarded segments.reservations.floor) (storage : Storage) :
    (truncation.step storage segments).1.Guarded
      (truncation.step storage segments).2.reservations.floor := by
  cases truncation with
  | start threshold =>
      simp only [Truncation.step]
      split <;> trivial
  | listing threshold checkpoint => trivial
  | checking progress =>
      simp only [Truncation.step]
      split
      · trivial
      · split
        · trivial
        next goesOn => exact Nat.lt_of_not_le fun ends => goesOn (Or.inr ends)
  | protecting progress segment size =>
      simp only [Truncation.step]
      split
      next after lowered =>
        have made := segments.reservations.raiseFloor_raised segment
        obtain ⟨outcome, same⟩ := Prod.ext_iff.1 lowered
        change (segments.reservations.raiseFloor segment).1 = .done at outcome
        cases same
        change Guarded (segments.reservations.raiseFloor segment).2.floor _
        generalize segments.reservations.raiseFloor segment = answer at made outcome ⊢
        cases made with
        | refused => cases outcome
        | done above =>
            refine ⟨guarded, _, rfl, ?_⟩
            -- The floor is now the segment, or it was above it already.
            cases segments.reservations.floor with
            | none => exact Nat.le_refl segment
            | some floor => exact Nat.le_max_right floor segment
      next => trivial
  | deleting progress segment size =>
      simp only [Truncation.step]
      split
      · trivial
      · exact guarded
  | accounting progress segment size => trivial
  | done result => trivial

theorem checkpoint?_step {storage : Storage} {segments : Segments} {truncation : Truncation}
    {checkpoint : Nat}
    (known : (truncation.step storage segments).1.checkpoint? = some checkpoint) :
    truncation.checkpoint? = some checkpoint ∨
      storage.checkpoint = some checkpoint ∧ ∃ threshold, truncation = .start threshold := by
  cases truncation with
  | start threshold =>
      simp only [step] at known
      split at known
      next => cases known
      next read found => exact Or.inr ⟨found.trans known, threshold, rfl⟩
  | listing threshold checkpoint => exact Or.inl known
  | checking progress =>
      simp only [step] at known
      split at known
      · cases known
      · split at known
        · cases known
        · exact Or.inl known
  | protecting progress segment size =>
      simp only [step] at known
      split at known
      · exact Or.inl known
      · cases known
  | deleting progress segment size =>
      simp only [step] at known
      split at known
      · cases known
      · exact Or.inl known
  | accounting progress segment size => exact Or.inl known
  | done result => cases known

end Truncation

namespace SharedLog

/-- In the course of a run a truncation made its first call and found this checkpoint. -/
def ReadCheckpoint (log : SharedLog) (turns : List Turn) (number checkpoint : Nat) : Prop :=
  ∃ before storage after threshold, turns = before ++ .advance number storage :: after ∧
    (log.run before).truncations[number]? = some (.start threshold) ∧
    storage.checkpoint = some checkpoint

theorem ReadCheckpoint.append {log : SharedLog} {turns : List Turn} {number checkpoint : Nat}
    (read : log.ReadCheckpoint turns number checkpoint) (later : List Turn) :
    log.ReadCheckpoint (turns ++ later) number checkpoint := by
  obtain ⟨before, storage, after, threshold, rfl, waiting, found⟩ := read
  exact ⟨before, storage, after ++ later, threshold, by simp, waiting, found⟩

/-- What is known of the truncations after a run: each relies only on what holds, and each
checkpoint it knows it has read. -/
structure Orderly (start : SharedLog) (turns : List Turn) (log : SharedLog) : Prop where
  guarded : ∀ truncation ∈ log.truncations, truncation.Guarded log.segments.reservations.floor
  read : ∀ number truncation checkpoint, log.truncations[number]? = some truncation →
    truncation.checkpoint? = some checkpoint → start.ReadCheckpoint turns number checkpoint

theorem Orderly.turn {start : SharedLog} {turns : List Turn}
    (orderly : start.Orderly turns (start.run turns)) (turn : Turn) :
    start.Orderly (turns ++ [turn]) ((start.run turns).turn turn) := by
  have rises := (start.run turns).floor_le_run_floor [turn]
  have kept : ∀ truncation ∈ (start.run turns).truncations,
      truncation.Guarded ((start.run turns).turn turn).segments.reservations.floor :=
    fun truncation member => (orderly.guarded truncation member).mono rises
  have known := fun number truncation checkpoint found readBefore =>
    (orderly.read number truncation checkpoint found readBefore).append [turn]
  cases turn with
  | call call => exact ⟨kept, known⟩
  | truncate threshold =>
      constructor
      · intro truncation member
        rcases List.mem_append.1 member with old | new
        · exact kept truncation old
        · cases List.mem_singleton.1 new
          trivial
      · intro number truncation checkpoint found readBefore
        by_cases old : number < (start.run turns).truncations.length
        · exact known number truncation checkpoint
            ((List.getElem?_append_left old).symm.trans found) readBefore
        · have new : truncation ∈ [Truncation.start threshold] :=
            List.mem_of_getElem? ((List.getElem?_append_right (by omega)).symm.trans found)
          cases List.mem_singleton.1 new
          cases readBefore
  | advance number storage =>
      cases current : (start.run turns).truncations[number]? with
      | none =>
          simp only [SharedLog.turn, current] at kept ⊢
          exact ⟨kept, known⟩
      | some truncation =>
          have guarded := orderly.guarded truncation (List.mem_of_getElem? current)
          simp only [SharedLog.turn, current] at kept ⊢
          constructor
          · -- The others did nothing, and the floor they rely on can only have risen.
            intro other member
            rcases List.mem_or_eq_of_mem_set member with old | rfl
            · exact kept other old
            · exact guarded.step storage
          · intro other after checkpoint found readBefore
            by_cases same : number = other
            · subst same
              have inside := (List.getElem?_eq_some_iff.1 current).1
              simp only [List.getElem?_set_self inside, Option.some.injEq] at found
              subst found
              -- It knew the checkpoint before, or it has just read it.
              rcases Truncation.checkpoint?_step readBefore with old | ⟨found, threshold, rfl⟩
              · exact known number truncation checkpoint current old
              · exact ⟨turns, storage, [], threshold, rfl, current, found⟩
            · simp only [List.getElem?_set_ne same] at found
              exact known other after checkpoint found readBefore

theorem orderly_run (options : WalOptions) (onOverflow : Overflow) (turns : List Turn) :
    (ofOptions options onOverflow).Orderly turns ((ofOptions options onOverflow).run turns) :=
  run_induction (ofOptions options onOverflow)
    ⟨fun _ member => absurd member List.not_mem_nil, fun _ _ _ found => by cases found⟩
    (fun _ turn orderly => orderly.turn turn) turns

/-- Whenever a truncation is about to delete a segment, whatever other clients and truncations
did between its calls: the segment lies below the checkpoint that this truncation read, nothing
at or below the segment is reserved, and from then on whoever reserves such a segment is refused. -/
theorem deletion_safe (options : WalOptions) (onOverflow : Overflow) (turns : List Turn)
    (number segment : Nat) (progress : Truncation.Progress) (size : Int)
    (deleting : ((ofOptions options onOverflow).run turns).truncations[number]? =
      some (.deleting progress segment size)) :
    (∃ checkpoint, (ofOptions options onOverflow).ReadCheckpoint turns number checkpoint ∧
      segment < checkpoint) ∧
      (∀ reserved ≤ segment, ((ofOptions options onOverflow).run
        turns).segments.reservations.isReserved reserved = false) ∧
      ∀ later : List Turn, ∀ reserved ≤ segment, (((ofOptions options onOverflow).run
        (turns ++ later)).segments.reserve reserved).1 = .refused := by
  have orderly := orderly_run options onOverflow turns
  obtain ⟨below, floor, isFloor, reached⟩ :=
    orderly.guarded _ (List.mem_of_getElem? deleting)
  refine ⟨⟨progress.checkpoint, orderly.read _ _ _ deleting rfl, below⟩, ?_, ?_⟩
  · intro reserved least
    refine Bool.eq_false_iff.2 fun entered => ?_
    have above := (wellKept_run options onOverflow turns).floor_lt entered floor isFloor
    omega
  · intro later reserved least
    rw [run_append]
    obtain ⟨raised, isRaised, higher⟩ :=
      ((ofOptions options onOverflow).run turns).floor_le_run_floor later floor isFloor
    exact (Reservations.reserve_refused_iff _ reserved).2 ⟨raised, isRaised, by omega⟩

def disturbedRun : List Turn :=
  let storage : Storage := { checkpoint := some 9, failure := fun _ => none }
  let later : Storage := { checkpoint := some 12, failure := fun _ => none }
  [.call (.addSize 3 300), .call (.reserve 4), .call (.addSize 5 400), .truncate 0,
    .advance 0 storage, .truncate 100, .advance 1 later, .advance 1 later, .advance 0 storage,
    .advance 0 storage, .call (.reserve 2), .call (.release 2), .advance 0 storage,
    .call (.reserve 3), .call (.addSize 6 50), .advance 1 later, .advance 1 later,
    .call (.release 4)]

theorem deletion_safe_disturbedRun :
    let start := ofOptions .default .wraps
    let log := start.run disturbedRun
    log.truncations[1]? = some (.deleting
        { threshold := 100, checkpoint := 12, deleted := 0, remaining := [(5, 400)] } 3 300) ∧
      (∃ checkpoint, start.ReadCheckpoint disturbedRun 1 checkpoint ∧ 3 < checkpoint) ∧
      (∀ reserved ≤ 3, log.segments.reservations.isReserved reserved = false) ∧
      ∀ later : List Turn, ∀ reserved ≤ 3,
        ((start.run (disturbedRun ++ later)).segments.reserve reserved).1 = .refused := by
  intro start log
  have deleting : log.truncations[1]? = some (.deleting
      { threshold := 100, checkpoint := 12, deleted := 0, remaining := [(5, 400)] } 3 300) := by
    decide +kernel
  exact ⟨deleting, deletion_safe .default .wraps disturbedRun 1 3 _ 300 deleting⟩

end SharedLog

end Durability
