import Durability.Proofs.Log.Readers
import Mathlib.Data.List.DropRight
import Mathlib.Data.Nat.ModEq

/-! The counts of reservations as a ledger. The calls to the store are written down with what became
of each. Of one segment only the part of the ledger behind the last forced release that reached it
matters, and its count is what was granted there less what was given back: exactly as long as no
count runs over, and up to a multiple of 2 ^ 32 in any case. -/

namespace Durability

namespace Reservations

def Call.takesAway (segment : Nat) : Call → Bool
  | .forceRelease last => segment ≤ last
  | .reserve _ | .release _ | .raiseFloor _ => false

def ledger (reservations : Reservations) : List Call → List (Call × Outcome)
  | [] => []
  | call :: calls =>
    (call, (reservations.answer call).1) :: (reservations.call call).ledger calls

/-- The part of a ledger behind the last forced release at or above `segment`. -/
def sinceTaken (segment : Nat) (ledger : List (Call × Outcome)) : List (Call × Outcome) :=
  ledger.rtakeWhile fun made => ¬ made.1.takesAway segment

def granted (segment : Nat) (ledger : List (Call × Outcome)) : Nat :=
  ledger.count (.reserve segment, .done)

def returned (segment : Nat) (ledger : List (Call × Outcome)) : Nat :=
  ledger.count (.release segment, .done)

theorem ledger_append (reservations : Reservations) (first second : List Call) :
    reservations.ledger (first ++ second) =
      reservations.ledger first ++ (reservations.run first).ledger second := by
  induction first generalizing reservations with
  | nil => rfl
  | cons call first ih =>
      rw [List.cons_append, ledger, ledger, ih, List.cons_append]
      rfl

theorem sinceTaken_concat (segment : Nat) (ledger : List (Call × Outcome))
    (made : Call × Outcome) :
    sinceTaken segment (ledger ++ [made]) =
      if made.1.takesAway segment then [] else sinceTaken segment ledger ++ [made] := by
  unfold sinceTaken
  rw [List.rtakeWhile_concat]
  cases made.1.takesAway segment <;> rfl

theorem release_done_iff (reservations : Reservations) (segment : Nat) :
    (reservations.release segment).1 = .done ↔ reservations.count segment ≠ 0 := by
  rw [Ne, ← release_failed_iff]
  have made := reservations.release_released segment
  generalize reservations.release segment = after at made ⊢
  cases made <;> simp

theorem count_call_add_returned (reservations : Reservations) (call : Call) (segment : Nat)
    (spared : call.takesAway segment = false) {modulus : Nat}
    (fits : ¬ reservations.Overruns call ∨ modulus = 2 ^ 32) :
    (reservations.call call).count segment +
        returned segment [(call, (reservations.answer call).1)] ≡
      reservations.count segment +
        granted segment [(call, (reservations.answer call).1)] [MOD modulus] := by
  rw [count_call]
  cases call with
  | reserve other =>
      simp only [countAfter, answer, returned, granted, List.count_singleton, beq_iff_eq,
        Prod.mk.injEq, Call.reserve.injEq, reduceCtorEq, false_and, if_false, Nat.add_zero]
      by_cases done : other = segment ∧ (reservations.reserve other).1 = .done
      · obtain ⟨rfl, done⟩ := done
        rw [if_pos ⟨rfl, done⟩, if_pos ⟨rfl, done⟩]
        rcases fits with fits | rfl
        · rw [Nat.mod_eq_of_lt (count_lt_of_granted done fits)]
        · exact Nat.mod_modEq _ _
      · rw [if_neg done, if_neg done]
        rfl
  | release other =>
      simp only [countAfter, answer, release_done_iff, returned, granted, List.count_singleton,
        beq_iff_eq, Prod.mk.injEq, Call.release.injEq, reduceCtorEq, false_and, if_false,
        Nat.add_zero]
      refine congrArg (· % modulus) ?_
      by_cases same : other = segment
      · subst same
        by_cases none : reservations.count other = 0
        · simp [none]
        · rw [if_pos rfl, if_pos ⟨rfl, none⟩]
          omega
      · rw [if_neg same, if_neg fun both => same both.1]
        rfl
  | raiseFloor other => rfl
  | forceRelease other =>
      have above : other < segment := Nat.lt_of_not_le (of_decide_eq_false spared)
      exact congrArg (· % modulus) (if_pos above)

/-- The count of a segment is what was granted since it was last taken away by force, less what
was given back since then. -/
theorem count_run_add_returned (onOverflow : Overflow) (calls : List Call) (segment : Nat)
    {modulus : Nat} (fits : (empty onOverflow).Fits calls ∨ modulus = 2 ^ 32) :
    let ledger := (empty onOverflow).ledger calls
    ((empty onOverflow).run calls).count segment + returned segment (sinceTaken segment ledger) ≡
      granted segment (sinceTaken segment ledger) [MOD modulus] := by
  intro ledger
  induction calls using List.reverseRecOn with
  | nil => rfl
  | append_singleton calls call ih =>
      have last : ledger = (empty onOverflow).ledger calls ++
          [(call, (((empty onOverflow).run calls).answer call).1)] :=
        (empty onOverflow).ledger_append calls [call]
      have moved : (empty onOverflow).run (calls ++ [call]) =
          ((empty onOverflow).run calls).call call := (empty onOverflow).run_append calls [call]
      rw [fits_append] at fits
      rw [last, moved, sinceTaken_concat]
      cases taken : call.takesAway segment with
      | true =>
          rw [if_pos rfl]
          refine congrArg (· % modulus) ?_
          change (((empty onOverflow).run calls).call call).count segment = 0
          cases call with
          | forceRelease other =>
              have reached : segment ≤ other := of_decide_eq_true taken
              rw [count_call]
              exact if_neg (Nat.not_lt.2 reached)
          | reserve | release | raiseFloor => cases taken
      | false =>
          have before := ih (fits.imp_left And.left)
          have step := ((empty onOverflow).run calls).count_call_add_returned call segment taken
            (fits.imp_left fun both => both.2.1)
          rw [if_neg Bool.false_ne_true]
          simp only [returned, granted, List.count_append] at before step ⊢
          calc _ = (((empty onOverflow).run calls).call call).count segment + List.count _ _ +
                List.count _ _ := Nat.add_left_comm _ _ _ |>.trans (Nat.add_comm _ _)
            _ ≡ _ [MOD modulus] := step.add_right _
            _ = ((empty onOverflow).run calls).count segment + List.count _ _ +
                List.count _ _ := Nat.add_right_comm _ _ _
            _ ≡ _ [MOD modulus] := before.add_right _

theorem lowest?_eq_some_iff (reservations : Reservations) (segment : Nat) :
    reservations.lowest? = some segment ↔
      reservations.isReserved segment = true ∧
        ∀ reserved, reservations.isReserved reserved = true → segment ≤ reserved := by
  have ascending := reservations.counts.ascending
  simp only [isReserved_iff]
  unfold lowest? KeyMap.least?
  cases listed : reservations.counts.entries with
  | nil => simp
  | cons entry rest =>
      rw [listed] at ascending
      have below : ∀ reserved, (∃ uses, (reserved, uses) ∈ entry :: rest) →
          entry.1 ≤ reserved := by
        rintro reserved ⟨uses, member⟩
        rcases List.mem_cons.1 member with same | behind
        · exact Nat.le_of_eq (congrArg Prod.fst same).symm
        · exact Nat.le_of_lt ((List.pairwise_cons.1 ascending).1 _ behind)
      change some entry.1 = some segment ↔ _
      rw [Option.some.injEq]
      constructor
      · rintro rfl
        exact ⟨⟨entry.2, List.mem_cons_self⟩, below⟩
      · rintro ⟨entered, least⟩
        exact Nat.le_antisymm (below segment entered) (least entry.1 ⟨_, List.mem_cons_self⟩)

end Reservations

namespace Segments

theorem withReservations_self (segments : Segments) :
    segments.withReservations segments.reservations = segments := if_pos rfl

theorem call_of_not_done {segments : Segments} {call : Call}
    (declined : (segments.answer call).1 ≠ .done) : segments.call call = segments := by
  cases call with
  | reserve segment =>
      have same : segments.reservations.call (.reserve segment) = segments.reservations :=
        Reservations.call_of_not_done declined
      exact (congrArg segments.withReservations same).trans segments.withReservations_self
  | release segment =>
      have same : segments.reservations.call (.release segment) = segments.reservations :=
        Reservations.call_of_not_done declined
      exact (congrArg segments.withReservations same).trans segments.withReservations_self
  | raiseFloor segment =>
      have same : segments.reservations.call (.raiseFloor segment) = segments.reservations :=
        Reservations.call_of_not_done declined
      exact congrArg (fun reservations => { segments with reservations }) same
  | observe | forceRelease | addSize | resetSizes | interrupt | resume =>
      exact absurd rfl declined

end Segments

namespace SharedLog

end SharedLog

end Durability
