import Durability.Log.Reservations
import Durability.Proofs.KeyMap
import Mathlib.Algebra.Group.Nat.Defs

/-! The store of reservations under any sequence of calls. Every reservation lies above the floor,
whatever is called; from that the answer to each call follows, and the floor is the highest segment
that a call put below it. As long as no count runs over, an entry stands for at least one
reservation. -/

namespace Durability

namespace Overflow

variable {onOverflow : Overflow}

theorem next?_eq_none_iff (number : UInt32) :
    onOverflow.next? number = none ↔ onOverflow = fails ∧ number.toNat + 1 = 2 ^ 32 := by
  have last : number + 1 = 0 ↔ number.toNat + 1 = 2 ^ 32 := by
    have small := number.toNat_lt
    rw [← UInt32.toNat_inj, UInt32.toNat_add, UInt32.toNat_one, UInt32.toNat_zero]
    omega
  rw [next?, ← last]
  split <;> simp_all

theorem toNat_of_next? {number next : UInt32} (found : onOverflow.next? number = some next) :
    next.toNat = (number.toNat + 1) % 2 ^ 32 := by
  unfold next? at found
  split at found
  · cases found
  · cases found
    exact UInt32.toNat_add number 1

end Overflow

namespace Reservations

inductive Call where
  | reserve (segment : Nat)
  | release (segment : Nat)
  | raiseFloor (segment : Nat)
  | forceRelease (segment : Nat)
  deriving DecidableEq, Repr

def answer (reservations : Reservations) : Call → Outcome × Reservations
  | .reserve segment => reservations.reserve segment
  | .release segment => reservations.release segment
  | .raiseFloor segment => reservations.raiseFloor segment
  | .forceRelease segment => (.done, reservations.forceRelease segment)

def call (reservations : Reservations) (call : Call) : Reservations := (reservations.answer call).2

def run (reservations : Reservations) (calls : List Call) : Reservations :=
  calls.foldl call reservations

def lowered? (reservations : Reservations) : Call → Option Nat
  | .reserve _ | .release _ => none
  | .raiseFloor segment =>
    if (reservations.raiseFloor segment).1 = .done then some segment else none
  | .forceRelease segment => some segment

def lowered (reservations : Reservations) : List Call → List Nat
  | [] => []
  | call :: calls => (reservations.lowered? call).toList ++ (reservations.call call).lowered calls

/-! ### Single calls -/

theorem grants_iff (reservations : Reservations) (segment : Nat) :
    reservations.grants segment = true ↔ ∀ floor ∈ reservations.floor, floor < segment := by
  unfold grants
  cases reservations.floor <;> simp

theorem protects_iff (reservations : Reservations) (segment : Nat) :
    reservations.protects segment = true ↔
      ∃ entry ∈ reservations.counts.entries, entry.1 ≤ segment := by
  simp [protects]

def isReserved (reservations : Reservations) (segment : Nat) : Bool :=
  reservations.counts.contains segment

theorem isReserved_iff (reservations : Reservations) (segment : Nat) :
    reservations.isReserved segment = true ↔
      ∃ uses, (segment, uses) ∈ reservations.counts.entries := by
  rw [isReserved, KeyMap.contains, Option.isSome_iff_exists]
  exact exists_congr fun uses => KeyMap.find?_eq_some_iff _ _ _

theorem protects_iff_isReserved (reservations : Reservations) (segment : Nat) :
    reservations.protects segment = true ↔
      ∃ reserved ≤ segment, reservations.isReserved reserved = true := by
  rw [protects_iff]
  constructor
  · rintro ⟨⟨reserved, uses⟩, member, within⟩
    exact ⟨reserved, within, (reservations.isReserved_iff reserved).2 ⟨uses, member⟩⟩
  · rintro ⟨reserved, within, entered⟩
    obtain ⟨uses, member⟩ := (reservations.isReserved_iff reserved).1 entered
    exact ⟨(reserved, uses), member, within⟩

theorem mem_entries_of_count_pos {reservations : Reservations} {segment : Nat}
    (reserved : 0 < reservations.count segment) :
    (segment, reservations.uses segment) ∈ reservations.counts.entries := by
  rw [← KeyMap.find?_eq_some_iff]
  unfold count uses at reserved
  unfold uses
  cases found : reservations.counts.find? segment with
  | none => simp [found] at reserved
  | some value => rfl

theorem isReserved_of_count_pos {reservations : Reservations} {segment : Nat}
    (reserved : 0 < reservations.count segment) : reservations.isReserved segment = true :=
  (reservations.isReserved_iff segment).2 ⟨_, mem_entries_of_count_pos reserved⟩

theorem count_of_mem_entries {reservations : Reservations} {segment : Nat} {value : UInt32}
    (member : (segment, value) ∈ reservations.counts.entries) :
    reservations.count segment = value.toNat := by
  rw [count, uses, (KeyMap.find?_eq_some_iff _ _ _).2 member]
  rfl

theorem count_lt (reservations : Reservations) (segment : Nat) :
    reservations.count segment < 2 ^ 32 := UInt32.toNat_lt _

inductive Reserved (reservations : Reservations) (segment : Nat) : Outcome × Reservations → Prop
  | refused (within : ∃ floor ∈ reservations.floor, segment ≤ floor) :
      Reserved reservations segment (.refused, reservations)
  | failed (above : ∀ floor ∈ reservations.floor, floor < segment)
      (checked : reservations.onOverflow = .fails)
      (full : reservations.count segment + 1 = 2 ^ 32) :
      Reserved reservations segment (.failed, reservations)
  | done {uses : UInt32} (above : ∀ floor ∈ reservations.floor, floor < segment)
      (counted : uses.toNat = (reservations.count segment + 1) % 2 ^ 32)
      (room : reservations.onOverflow = .fails → reservations.count segment + 1 < 2 ^ 32) :
      Reserved reservations segment
        (.done, { reservations with counts := reservations.counts.insert segment uses })

theorem reserve_reserved (reservations : Reservations) (segment : Nat) :
    Reserved reservations segment (reservations.reserve segment) := by
  unfold reserve
  by_cases granted : reservations.grants segment = true
  · have above := (reservations.grants_iff segment).1 granted
    rw [if_pos granted]
    cases next : reservations.onOverflow.next? (reservations.uses segment) with
    | none =>
        obtain ⟨checked, full⟩ := (Overflow.next?_eq_none_iff _).1 next
        exact .failed above checked full
    | some uses =>
        refine .done above (Overflow.toNat_of_next? next) fun checked => ?_
        have small := reservations.count_lt segment
        have notFull : reservations.count segment + 1 ≠ 2 ^ 32 := by
          intro full
          have absent := (Overflow.next?_eq_none_iff _).2 ⟨checked, full⟩
          rw [next] at absent
          cases absent
        omega
  · rw [if_neg granted]
    simp only [grants_iff, Classical.not_forall, Nat.not_lt] at granted
    obtain ⟨floor, isFloor, within⟩ := granted
    exact .refused ⟨floor, isFloor, within⟩

inductive Released (reservations : Reservations) (segment : Nat) : Outcome × Reservations → Prop
  | failed (unreserved : reservations.count segment = 0) :
      Released reservations segment (.failed, reservations)
  | last (single : reservations.count segment = 1) :
      Released reservations segment
        (.done, { reservations with counts := reservations.counts.erase segment })
  | done {uses : UInt32} (several : 1 < reservations.count segment)
      (counted : uses.toNat = reservations.count segment - 1) :
      Released reservations segment
        (.done, { reservations with counts := reservations.counts.insert segment uses })

theorem release_released (reservations : Reservations) (segment : Nat) :
    Released reservations segment (reservations.release segment) := by
  unfold release
  by_cases unreserved : reservations.uses segment = 0
  · rw [if_pos unreserved]
    exact .failed (congrArg UInt32.toNat unreserved)
  · rw [if_neg unreserved]
    by_cases single : reservations.uses segment = 1
    · rw [if_pos single]
      exact .last (congrArg UInt32.toNat single)
    · rw [if_neg single]
      have several : 1 < reservations.count segment := by
        rw [← UInt32.toNat_inj] at unreserved single
        rw [UInt32.toNat_zero] at unreserved
        rw [UInt32.toNat_one] at single
        unfold count
        omega
      refine .done several ?_
      have below : (1 : UInt32) ≤ reservations.uses segment :=
        UInt32.le_iff_toNat_le.2 (Nat.le_of_lt several)
      exact UInt32.toNat_sub_of_le _ _ below

inductive Raised (reservations : Reservations) (segment : Nat) : Outcome × Reservations → Prop
  | refused (protects : reservations.protects segment = true) :
      Raised reservations segment (.refused, reservations)
  | done (above : ∀ entry ∈ reservations.counts.entries, segment < entry.1) :
      Raised reservations segment
        (.done, { reservations with floor := raised reservations.floor segment })

theorem raiseFloor_of_protects {reservations : Reservations} {segment : Nat}
    (protects : reservations.protects segment = true) :
    reservations.raiseFloor segment = (.refused, reservations) := if_pos protects

theorem raiseFloor_of_unreserved {reservations : Reservations} {segment : Nat}
    (above : ∀ entry ∈ reservations.counts.entries, segment < entry.1) :
    reservations.raiseFloor segment =
      (.done, { reservations with floor := raised reservations.floor segment }) := by
  have unprotected : ¬ reservations.protects segment = true := by
    rw [protects_iff]
    rintro ⟨entry, member, within⟩
    exact absurd (above entry member) (Nat.not_lt.2 within)
  exact if_neg unprotected

theorem raiseFloor_raised (reservations : Reservations) (segment : Nat) :
    Raised reservations segment (reservations.raiseFloor segment) := by
  by_cases protects : reservations.protects segment = true
  · rw [raiseFloor_of_protects protects]
    exact .refused protects
  · have above : ∀ entry ∈ reservations.counts.entries, segment < entry.1 := by
      intro entry member
      rw [protects_iff] at protects
      exact Nat.not_le.1 fun within => protects ⟨entry, member, within⟩
    rw [raiseFloor_of_unreserved above]
    exact .done above

theorem reserve_refused_iff (reservations : Reservations) (segment : Nat) :
    (reservations.reserve segment).1 = .refused ↔
      ∃ floor ∈ reservations.floor, segment ≤ floor := by
  have made := reservations.reserve_reserved segment
  generalize reservations.reserve segment = after at made ⊢
  cases made with
  | refused within => exact iff_of_true rfl within
  | failed above | done above =>
      refine iff_of_false nofun ?_
      rintro ⟨floor, isFloor, within⟩
      exact absurd (above floor isFloor) (Nat.not_lt.2 within)

theorem reserve_done_iff (reservations : Reservations) (segment : Nat) :
    (reservations.reserve segment).1 = .done ↔
      (∀ floor ∈ reservations.floor, floor < segment) ∧
        ¬ (reservations.onOverflow = .fails ∧ reservations.count segment + 1 = 2 ^ 32) := by
  have made := reservations.reserve_reserved segment
  generalize reservations.reserve segment = after at made ⊢
  cases made with
  | refused within =>
      refine iff_of_false nofun fun granted => ?_
      obtain ⟨floor, isFloor, reached⟩ := within
      exact absurd (granted.1 floor isFloor) (Nat.not_lt.2 reached)
  | failed above checked full => exact iff_of_false nofun fun granted => granted.2 ⟨checked, full⟩
  | done above counted room =>
      refine iff_of_true rfl ⟨above, fun full => ?_⟩
      have fits := room full.1
      omega

theorem release_failed_iff (reservations : Reservations) (segment : Nat) :
    (reservations.release segment).1 = .failed ↔ reservations.count segment = 0 := by
  have made := reservations.release_released segment
  generalize reservations.release segment = after at made ⊢
  cases made with
  | failed unreserved => exact iff_of_true rfl unreserved
  | last single => exact iff_of_false nofun (by omega)
  | done several => exact iff_of_false nofun (by omega)

theorem raiseFloor_done_iff (reservations : Reservations) (segment : Nat) :
    (reservations.raiseFloor segment).1 = .done ↔
      ∀ reserved ≤ segment, reservations.isReserved reserved = false := by
  have unprotected : (∀ reserved ≤ segment, reservations.isReserved reserved = false) ↔
      ¬ reservations.protects segment = true := by
    rw [protects_iff_isReserved]
    simp
  rw [unprotected]
  unfold raiseFloor
  split <;> simp_all

theorem call_of_not_done {reservations : Reservations} {call : Call}
    (declined : (reservations.answer call).1 ≠ .done) :
    reservations.call call = reservations := by
  unfold Reservations.call
  cases call with
  | reserve segment =>
      change (reservations.reserve segment).1 ≠ .done at declined
      change (reservations.reserve segment).2 = reservations
      have made := reservations.reserve_reserved segment
      generalize reservations.reserve segment = after at made declined ⊢
      cases made with
      | refused | failed => rfl
      | done => exact absurd rfl declined
  | release segment =>
      change (reservations.release segment).1 ≠ .done at declined
      change (reservations.release segment).2 = reservations
      have made := reservations.release_released segment
      generalize reservations.release segment = after at made declined ⊢
      cases made with
      | failed => rfl
      | last | done => exact absurd rfl declined
  | raiseFloor segment =>
      change (reservations.raiseFloor segment).1 ≠ .done at declined
      change (reservations.raiseFloor segment).2 = reservations
      have made := reservations.raiseFloor_raised segment
      generalize reservations.raiseFloor segment = after at made declined ⊢
      cases made with
      | refused => rfl
      | done => exact absurd rfl declined
  | forceRelease segment => exact absurd rfl declined

/-! ### What every call keeps -/

/-- Every reservation lies above the floor. -/
def WellKept (reservations : Reservations) : Prop :=
  ∀ entry ∈ reservations.counts.entries, ∀ floor ∈ reservations.floor, floor < entry.1

theorem wellKept_empty (onOverflow : Overflow) : (empty onOverflow).WellKept :=
  fun _ member => absurd member List.not_mem_nil

theorem WellKept.insert {reservations : Reservations} (kept : reservations.WellKept)
    {segment : Nat} (above : ∀ floor ∈ reservations.floor, floor < segment) (uses : UInt32) :
    { reservations with counts := reservations.counts.insert segment uses }.WellKept := by
  intro entry member
  rcases (KeyMap.mem_entries_insert _ _ _ _).1 member with rfl | ⟨old, -⟩
  · exact above
  · exact kept entry old

theorem WellKept.lower {reservations : Reservations} (kept : reservations.WellKept)
    {segment : Nat} {counts : KeyMap Nat UInt32}
    (remaining : ∀ entry ∈ counts.entries,
      entry ∈ reservations.counts.entries ∧ segment < entry.1) :
    WellKept { reservations with counts, floor := raised reservations.floor segment } := by
  intro entry member floor isFloor
  obtain ⟨old, beyond⟩ := remaining entry member
  have above := kept entry old
  -- The new floor is the segment, or the old floor if that was higher.
  cases Option.some.inj isFloor
  cases before : reservations.floor with
  | none => exact beyond
  | some least => exact Nat.max_lt.2 ⟨above least before, beyond⟩

theorem WellKept.call {reservations : Reservations} (kept : reservations.WellKept) (call : Call) :
    (reservations.call call).WellKept := by
  cases call with
  | reserve segment =>
      change (reservations.reserve segment).2.WellKept
      have made := reservations.reserve_reserved segment
      generalize reservations.reserve segment = after at made ⊢
      cases made with
      | refused | failed => exact kept
      | done above => exact kept.insert above _
  | release segment =>
      change (reservations.release segment).2.WellKept
      have made := reservations.release_released segment
      generalize reservations.release segment = after at made ⊢
      cases made with
      | failed => exact kept
      | last => exact fun entry member => kept entry ((KeyMap.mem_entries_erase _ _ _).1 member).1
      | done several =>
          have positive : 0 < reservations.count segment := by omega
          exact kept.insert (kept _ (mem_entries_of_count_pos positive)) _
  | raiseFloor segment =>
      change (reservations.raiseFloor segment).2.WellKept
      have made := reservations.raiseFloor_raised segment
      generalize reservations.raiseFloor segment = after at made ⊢
      cases made with
      | refused => exact kept
      | done above => exact kept.lower fun entry member => ⟨member, above entry member⟩
  | forceRelease segment =>
      exact kept.lower fun entry member => (KeyMap.mem_entries_dropThrough _ _ _).1 member

theorem WellKept.run {reservations : Reservations} (kept : reservations.WellKept)
    (calls : List Call) : (reservations.run calls).WellKept := by
  induction calls generalizing reservations with
  | nil => exact kept
  | cons call calls ih => exact ih (kept.call call)

theorem WellKept.floor_lt {reservations : Reservations} (kept : reservations.WellKept)
    {segment : Nat} (reserved : reservations.isReserved segment = true) :
    ∀ floor ∈ reservations.floor, floor < segment := by
  obtain ⟨uses, member⟩ := (reservations.isReserved_iff segment).1 reserved
  exact kept _ member

theorem call_onOverflow (reservations : Reservations) (call : Call) :
    (reservations.call call).onOverflow = reservations.onOverflow := by
  cases call with
  | reserve segment =>
      change (reservations.reserve segment).2.onOverflow = _
      have made := reservations.reserve_reserved segment
      generalize reservations.reserve segment = after at made ⊢
      cases made <;> rfl
  | release segment =>
      change (reservations.release segment).2.onOverflow = _
      have made := reservations.release_released segment
      generalize reservations.release segment = after at made ⊢
      cases made <;> rfl
  | raiseFloor segment =>
      change (reservations.raiseFloor segment).2.onOverflow = _
      have made := reservations.raiseFloor_raised segment
      generalize reservations.raiseFloor segment = after at made ⊢
      cases made <;> rfl
  | forceRelease segment => rfl

theorem run_onOverflow (reservations : Reservations) (calls : List Call) :
    (reservations.run calls).onOverflow = reservations.onOverflow := by
  induction calls generalizing reservations with
  | nil => rfl
  | cons call calls ih =>
      exact (ih (reservations.call call)).trans (reservations.call_onOverflow call)

/-! ### Counts that run over -/

/-- A call is a reservation beyond the largest count of its segment, and nobody notices. -/
def Overruns (reservations : Reservations) (call : Call) : Prop :=
  ∃ segment, call = .reserve segment ∧ (∀ floor ∈ reservations.floor, floor < segment) ∧
    reservations.onOverflow = .wraps ∧ reservations.count segment + 1 = 2 ^ 32

/-- No call of a sequence lets a count run over. -/
def Fits (reservations : Reservations) : List Call → Prop
  | [] => True
  | call :: calls => ¬ reservations.Overruns call ∧ (reservations.call call).Fits calls

theorem fits_append (reservations : Reservations) (first second : List Call) :
    reservations.Fits (first ++ second) ↔
      reservations.Fits first ∧ (reservations.run first).Fits second := by
  induction first generalizing reservations with
  | nil => exact (true_and _).symm ▸ Iff.rfl
  | cons call first ih =>
      rw [List.cons_append, Fits, Fits, ih, and_assoc]
      rfl

theorem fits_of_fails {reservations : Reservations} (checked : reservations.onOverflow = .fails)
    (calls : List Call) : reservations.Fits calls := by
  induction calls generalizing reservations with
  | nil => trivial
  | cons call calls ih =>
      refine ⟨?_, ih ((reservations.call_onOverflow call).trans checked)⟩
      rintro ⟨segment, -, -, unchecked, -⟩
      rw [checked] at unchecked
      cases unchecked

/-- Every entry stands for a reservation. -/
def Counted (reservations : Reservations) : Prop :=
  ∀ entry ∈ reservations.counts.entries, 0 < entry.2

theorem Counted.insert {reservations : Reservations} (counted : reservations.Counted)
    (segment : Nat) {uses : UInt32} (positive : 0 < uses.toNat) :
    { reservations with counts := reservations.counts.insert segment uses }.Counted := by
  intro entry member
  rcases (KeyMap.mem_entries_insert _ _ _ _).1 member with rfl | ⟨old, -⟩
  · exact UInt32.lt_iff_toNat_lt.2 positive
  · exact counted entry old

theorem Counted.call {reservations : Reservations} (counted : reservations.Counted) {call : Call}
    (fits : ¬ reservations.Overruns call) : (reservations.call call).Counted := by
  cases call with
  | reserve segment =>
      change (reservations.reserve segment).2.Counted
      have made := reservations.reserve_reserved segment
      generalize reservations.reserve segment = after at made ⊢
      cases made with
      | refused | failed => exact counted
      | done above next room =>
          have small : reservations.count segment + 1 < 2 ^ 32 := by
            cases mode : reservations.onOverflow with
            | fails => exact room mode
            | wraps =>
                have below := reservations.count_lt segment
                have notFull : reservations.count segment + 1 ≠ 2 ^ 32 :=
                  fun full => fits ⟨segment, rfl, above, mode, full⟩
                omega
          rw [Nat.mod_eq_of_lt small] at next
          exact counted.insert segment (by omega)
  | release segment =>
      change (reservations.release segment).2.Counted
      have made := reservations.release_released segment
      generalize reservations.release segment = after at made ⊢
      cases made with
      | failed => exact counted
      | last =>
          exact fun entry member => counted entry ((KeyMap.mem_entries_erase _ _ _).1 member).1
      | done several next => exact counted.insert segment (by omega)
  | raiseFloor segment =>
      change (reservations.raiseFloor segment).2.Counted
      have made := reservations.raiseFloor_raised segment
      generalize reservations.raiseFloor segment = after at made ⊢
      cases made <;> exact counted
  | forceRelease segment =>
      exact fun entry member => counted entry ((KeyMap.mem_entries_dropThrough _ _ _).1 member).1

theorem counted_run {onOverflow : Overflow} {calls : List Call}
    (fits : (empty onOverflow).Fits calls) : ((empty onOverflow).run calls).Counted := by
  suffices goesOn : ∀ {reservations : Reservations}, reservations.Counted →
      reservations.Fits calls → (reservations.run calls).Counted from
    goesOn (fun _ member => absurd member List.not_mem_nil) fits
  clear fits
  intro reservations counted fits
  induction calls generalizing reservations with
  | nil => exact counted
  | cons call calls ih => exact ih (counted.call fits.1) fits.2

theorem Counted.isReserved_iff_count {reservations : Reservations} (counted : reservations.Counted)
    (segment : Nat) :
    reservations.isReserved segment = true ↔ 0 < reservations.count segment := by
  refine ⟨fun reserved => ?_, isReserved_of_count_pos⟩
  obtain ⟨uses, member⟩ := (reservations.isReserved_iff segment).1 reserved
  rw [count_of_mem_entries member]
  exact UInt32.lt_iff_toNat_lt.1 (counted _ member)

/-! ### The floor over a run -/

theorem raised_raised (floor : Option Nat) {earlier later : Nat} (rises : earlier ≤ later) :
    raised (raised floor earlier) later = raised floor later := by
  cases floor with
  | none => exact congrArg some (Nat.max_eq_right rises)
  | some floor =>
      apply congrArg some
      change max (max floor earlier) later = max floor later
      omega

theorem call_floor (reservations : Reservations) (call : Call) :
    (reservations.call call).floor =
      (reservations.floor.toList ++ (reservations.lowered? call).toList).max? := by
  have same : reservations.floor = reservations.floor.toList.max? := by
    cases reservations.floor <;> rfl
  cases call with
  | reserve segment =>
      rw [lowered?, Option.toList_none, List.append_nil]
      change (reservations.reserve segment).2.floor = _
      have made := reservations.reserve_reserved segment
      generalize reservations.reserve segment = after at made ⊢
      cases made <;> exact same
  | release segment =>
      rw [lowered?, Option.toList_none, List.append_nil]
      change (reservations.release segment).2.floor = _
      have made := reservations.release_released segment
      generalize reservations.release segment = after at made ⊢
      cases made <;> exact same
  | raiseFloor segment =>
      rw [lowered?]
      change (reservations.raiseFloor segment).2.floor = _
      have made := reservations.raiseFloor_raised segment
      generalize reservations.raiseFloor segment = after at made ⊢
      cases made with
      | refused =>
          rw [if_neg nofun, Option.toList_none, List.append_nil]
          exact same
      | done => cases before : reservations.floor <;> rfl
  | forceRelease segment =>
      change raised reservations.floor segment = _
      cases before : reservations.floor <;> rfl

theorem run_floor (reservations : Reservations) (calls : List Call) :
    (reservations.run calls).floor =
      (reservations.floor.toList ++ reservations.lowered calls).max? := by
  induction calls generalizing reservations with
  | nil =>
      change reservations.floor = (reservations.floor.toList ++ []).max?
      cases reservations.floor <;> rfl
  | cons call calls ih =>
      -- The maximum of a floor that was already taken into account is that floor.
      change ((reservations.call call).run calls).floor = _
      rw [ih, call_floor, lowered, ← List.append_assoc]
      cases reservations.floor <;> cases reservations.lowered? call <;> rfl

theorem floor_le_run_floor (reservations : Reservations) (calls : List Call) (floor : Nat)
    (isFloor : floor ∈ reservations.floor) :
    ∃ later ∈ (reservations.run calls).floor, floor ≤ later := by
  rw [run_floor, Option.mem_def.1 isFloor]
  have nonempty : (some floor).toList ++ reservations.lowered calls ≠ [] := by simp
  obtain ⟨later, highest⟩ := Option.isSome_iff_exists.1 (List.isSome_max?_of_ne_nil nonempty)
  have bound := (List.max?_eq_some_iff.1 highest).2 floor
  exact ⟨later, highest, bound (by simp)⟩

end Reservations

end Durability
