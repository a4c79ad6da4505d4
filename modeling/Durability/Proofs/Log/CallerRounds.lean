import Durability.Log.LogHost
import Durability.Proofs.Log.CleanerRest
import Mathlib.Data.List.Perm.Basic

/-! Background callers that go on. Every wait for the size among them is accounted for: it is still
there, or it has a result. A wait looks at the archive as the request before left it or as the
cleaner did, since nobody but the cleaner touches the log, and a second round changes no sizes. -/

namespace Durability

namespace Caller

/-- The number of a wait for the size, and the size, whatever became of the wait. -/
def wait? : Caller → Option (Nat × Int)
  | sizeWait number size _ | returning number size _ | broken number size => some (number, size)
  | cleaner _ => none

def isCleaner (caller : Caller) : Bool := caller.wait?.isNone

def numbers (callers : List Caller) : List Nat := (callers.filterMap wait?).map Prod.fst

theorem numbers_append (one other : List Caller) :
    numbers (one ++ other) = numbers one ++ numbers other := by
  rw [numbers, List.filterMap_append, List.map_append]
  rfl

def cleaners (callers : List Caller) : Nat := callers.countP isCleaner

theorem cleaners_append (one other : List Caller) :
    cleaners (one ++ other) = cleaners one + cleaners other := List.countP_append

theorem cleaners_cons_cleaner (cleaner : Cleaner) (callers : List Caller) :
    cleaners (.cleaner cleaner :: callers) = cleaners callers + 1 := List.countP_cons_of_pos rfl

theorem cleaners_cons_of_waits {caller : Caller} (waits : caller.isCleaner = false)
    (callers : List Caller) : cleaners (caller :: callers) = cleaners callers :=
  List.countP_cons_of_neg (Bool.eq_false_iff.1 waits)

theorem eq_cleaner_of_isCleaner {caller : Caller} (cleans : caller.isCleaner = true) :
    ∃ cleaner, caller = .cleaner cleaner := by
  cases caller with
  | cleaner cleaner => exact ⟨cleaner, rfl⟩
  | sizeWait | returning | broken => cases cleans

theorem cleaner_not_mem {callers : List Caller} (none : cleaners callers = 0) (cleaner : Cleaner) :
    .cleaner cleaner ∉ callers := by
  intro member
  exact absurd rfl (List.countP_eq_zero.1 none _ member)

end Caller

namespace LogHost

open Caller

/-! ### Callers that go on -/

def Found (archive : Archive) (size : Int) (result : Except Error Unit) : Prop :=
  result = .ok () ∧ archive.interrupted = false ∧ archive.Reaches size ∨
    result = .error .sizeWaitInterrupted ∧ archive.interrupted = true

/-- Some callers went on, each at one of these moments, which left the callers `kept` and gave
these results. A wait that stays has looked at the archive or had no signal to look again, and
those that were about to return did so. -/
structure Visit (moments : Archive → Prop) (callers kept : List Caller)
    (finished : List Finished) : Prop where
  accounted : (numbers kept ++ finished.map Prod.fst).Perm (numbers callers)
  stays : ∀ number size seen, .sizeWait number size seen ∈ kept →
    ∃ archive, moments archive ∧ seen = some archive.signals ∧
      (.sizeWait number size seen ∈ callers ∨
        (∃ earlier, .sizeWait number size earlier ∈ callers) ∧
          archive.interrupted = false ∧ archive.Lacks size)
  breaks : ∀ number size, .broken number size ∈ kept → .broken number size ∈ callers ∨
    ∃ earlier archive, .sizeWait number size earlier ∈ callers ∧ moments archive ∧
      archive.lack? size = none
  returned : ∀ number size result, .returning number size result ∉ kept
  ends : ∀ number result, (number, result) ∈ finished → ∃ size,
    .returning number size result ∈ callers ∨
      ∃ earlier archive, .sizeWait number size earlier ∈ callers ∧ moments archive ∧
        Found archive size result

variable {moments : Archive → Prop} {callers kept : List Caller} {finished : List Finished}
  {clock : Nat} {storage : Storage} {segments : Segments}

theorem Visit.mono {others : Archive → Prop} (visit : Visit moments callers kept finished)
    (within : ∀ archive, moments archive → others archive) :
    Visit others callers kept finished := by
  refine ⟨visit.accounted, ?_, ?_, visit.returned, ?_⟩
  · intro number size seen member
    obtain ⟨archive, moment, rest⟩ := visit.stays number size seen member
    exact ⟨archive, within archive moment, rest⟩
  · intro number size member
    refine (visit.breaks number size member).imp_right ?_
    rintro ⟨earlier, archive, there, moment, unknown⟩
    exact ⟨earlier, archive, there, within archive moment, unknown⟩
  · intro number result member
    obtain ⟨size, why⟩ := visit.ends number result member
    refine ⟨size, why.imp_right ?_⟩
    rintro ⟨earlier, archive, there, moment, found⟩
    exact ⟨earlier, archive, there, within archive moment, found⟩

theorem Visit.widen {others : List Caller} (visit : Visit moments callers kept finished)
    (inside : callers ⊆ others) :
    (∀ number size seen, .sizeWait number size seen ∈ kept →
      ∃ archive, moments archive ∧ seen = some archive.signals ∧
        (.sizeWait number size seen ∈ others ∨
          (∃ earlier, .sizeWait number size earlier ∈ others) ∧
            archive.interrupted = false ∧ archive.Lacks size)) ∧
      (∀ number size, .broken number size ∈ kept → .broken number size ∈ others ∨
        ∃ earlier archive, .sizeWait number size earlier ∈ others ∧ moments archive ∧
          archive.lack? size = none) ∧
      ∀ number result, (number, result) ∈ finished → ∃ size,
        .returning number size result ∈ others ∨
          ∃ earlier archive, .sizeWait number size earlier ∈ others ∧ moments archive ∧
            Found archive size result := by
  refine ⟨?_, ?_, ?_⟩
  · intro number size seen member
    obtain ⟨archive, moment, known, why⟩ := visit.stays number size seen member
    refine ⟨archive, moment, known, why.imp (@inside _) ?_⟩
    rintro ⟨⟨earlier, there⟩, low⟩
    exact ⟨⟨earlier, inside there⟩, low⟩
  · intro number size member
    refine (visit.breaks number size member).imp (@inside _) ?_
    rintro ⟨earlier, archive, there, rest⟩
    exact ⟨earlier, archive, inside there, rest⟩
  · intro number result member
    obtain ⟨size, why⟩ := visit.ends number result member
    refine ⟨size, why.imp (@inside _) ?_⟩
    rintro ⟨earlier, archive, there, rest⟩
    exact ⟨earlier, archive, inside there, rest⟩

theorem Visit.append {others kept' : List Caller} {finished' : List Finished}
    (one : Visit moments callers kept finished) (other : Visit moments others kept' finished') :
    Visit moments (callers ++ others) (kept ++ kept') (finished ++ finished') := by
  obtain ⟨stays, breaks, ends⟩ := one.widen (List.subset_append_left callers others)
  obtain ⟨stays', breaks', ends'⟩ := other.widen (List.subset_append_right callers others)
  refine ⟨?_, ?_, ?_, ?_, ?_⟩
  · have accounted := one.accounted.append other.accounted
    rw [numbers_append, numbers_append, List.map_append]
    refine List.Perm.trans ?_ accounted
    rw [List.append_assoc, List.append_assoc]
    exact (List.perm_append_comm_assoc _ _ _).append_left _
  · intro number size seen member
    exact (List.mem_append.1 member).elim (stays number size seen) (stays' number size seen)
  · intro number size member
    exact (List.mem_append.1 member).elim (breaks number size) (breaks' number size)
  · intro number size result member
    exact (List.mem_append.1 member).elim (one.returned number size result)
      (other.returned number size result)
  · intro number result member
    exact (List.mem_append.1 member).elim (ends number result) (ends' number result)

theorem Visit.trans {left : List Caller} {finished' : List Finished}
    (first : Visit moments callers kept finished) (second : Visit moments kept left finished') :
    Visit moments callers left (finished ++ finished') := by
  -- A wait that went on the second time was there the first time.
  have before : ∀ number size seen, .sizeWait number size seen ∈ kept →
      ∃ earlier, .sizeWait number size earlier ∈ callers := by
    intro number size seen member
    obtain ⟨-, -, -, same | ⟨there, -⟩⟩ := first.stays number size seen member
    · exact ⟨seen, same⟩
    · exact there
  refine ⟨?_, ?_, ?_, second.returned, ?_⟩
  · refine List.Perm.trans ?_ first.accounted
    refine List.Perm.trans ?_ (second.accounted.append_right _)
    rw [List.map_append, List.append_assoc]
    exact List.Perm.append_left _ List.perm_append_comm
  · intro number size seen member
    obtain ⟨archive, moment, known, waited | ⟨⟨earlier, there⟩, low⟩⟩ :=
      second.stays number size seen member
    · exact first.stays number size seen waited
    · exact ⟨archive, moment, known, Or.inr ⟨before number size earlier there, low⟩⟩
  · intro number size member
    rcases second.breaks number size member with broke | ⟨earlier, archive, there, rest⟩
    · exact first.breaks number size broke
    · obtain ⟨oldest, was⟩ := before number size earlier there
      exact Or.inr ⟨oldest, archive, was, rest⟩
  · intro number result member
    rcases List.mem_append.1 member with early | late
    · exact first.ends number result early
    · obtain ⟨size, returns | ⟨earlier, archive, there, rest⟩⟩ := second.ends number result late
      · exact absurd returns (first.returned number size result)
      · obtain ⟨oldest, was⟩ := before number size earlier there
        exact ⟨size, Or.inr ⟨oldest, archive, was, rest⟩⟩

theorem visit_nil (moments : Archive → Prop) : Visit moments [] [] [] :=
  ⟨.refl _, nofun, nofun, nofun, nofun⟩

theorem visit_cleaner (moments : Archive → Prop) (before after : Cleaner) :
    Visit moments [.cleaner before] [.cleaner after] [] := by
  refine ⟨.refl _, ?_, ?_, ?_, nofun⟩ <;> intros <;> simp_all

inductive Looks (archive : Archive) (number : Nat) (size : Int) : Caller → Prop
  | blocked (clear : archive.interrupted = false) (lacks : archive.Lacks size) :
      Looks archive number size (.sizeWait number size (some archive.signals))
  | returning {result : Except Error Unit} (found : Found archive size result) :
      Looks archive number size (.returning number size result)
  | broken (unknown : archive.lack? size = none) :
      Looks archive number size (.broken number size)

theorem look_looks (archive : Archive) (number : Nat) (size : Int) (seen : Option Nat) :
    Looks archive number size (Caller.look archive (.sizeWait number size seen)) := by
  have sees := archive.look_sees size
  simp only [Caller.look]
  generalize archive.look size = found at sees ⊢
  cases sees with
  | lacking clear lacks => exact .blocked clear lacks
  | reached clear reaches => exact .returning (Or.inl ⟨rfl, clear, reaches⟩)
  | calledOff off => exact .returning (Or.inr ⟨rfl, off⟩)
  | broken unknown => exact .broken unknown

theorem resumeCaller_segments {caller : Caller} (waits : caller.isCleaner = false) :
    (resumeCaller clock storage segments caller).2 = segments := by
  cases caller with
  | sizeWait number size seen =>
      simp only [resumeCaller]
      split <;> rfl
  | returning | broken => rfl
  | cleaner => cases waits

theorem resumeCaller_visit (clock : Nat) (storage : Storage) (segments : Segments)
    {caller : Caller} (waits : caller.isCleaner = false) :
    let first := resumeCaller clock storage segments caller
    Visit (· = segments.archive) [caller] first.1.1.toList first.1.2 := by
  intro first
  cases caller with
  | cleaner => cases waits
  | broken number size =>
      exact ⟨.refl _, nofun, fun _ _ member => Or.inl member, nofun, nofun⟩
  | returning number size result =>
      refine ⟨.refl _, nofun, nofun, nofun, ?_⟩
      intro number' result' member
      cases List.mem_singleton.1 member
      exact ⟨size, Or.inl List.mem_cons_self⟩
  | sizeWait number size seen =>
      by_cases unsignalled : seen = some segments.archive.signals
      · have stays : first = ((some (.sizeWait number size seen), []), segments) :=
          if_pos unsignalled
        rw [stays]
        refine ⟨.refl _, ?_, nofun, nofun, nofun⟩
        intro number' size' seen' member
        cases List.mem_singleton.1 member
        exact ⟨segments.archive, rfl, unsignalled, Or.inl List.mem_cons_self⟩
      · have goesOn : first = _ := if_neg unsignalled
        have looks := look_looks segments.archive number size seen
        rw [goesOn]
        generalize Caller.look segments.archive (.sizeWait number size seen) = after at looks ⊢
        cases looks with
        | blocked clear lacks =>
            refine ⟨.refl _, ?_, nofun, nofun, nofun⟩
            intro number' size' seen' member
            cases List.mem_singleton.1 member
            exact ⟨segments.archive, rfl, rfl, Or.inr ⟨⟨seen, List.mem_cons_self⟩, clear, lacks⟩⟩
        | returning found =>
            refine ⟨.refl _, nofun, nofun, nofun, ?_⟩
            intro number' result' member
            cases List.mem_singleton.1 member
            exact ⟨size, Or.inr ⟨seen, segments.archive, List.mem_cons_self, rfl, found⟩⟩
        | broken unknown =>
            refine ⟨.refl _, nofun, ?_, nofun, nofun⟩
            intro number' size' member
            cases List.mem_singleton.1 member
            exact Or.inr ⟨seen, segments.archive, List.mem_cons_self, rfl, unknown⟩

/-! ### One round, and a second one -/

theorem resumeCaller_subsides (clock : Nat) (storage : Storage) (segments : Segments)
    (caller : Caller) :
    segments.archive.Subsides (resumeCaller clock storage segments caller).2.archive := by
  cases cleans : caller.isCleaner with
  | false =>
      rw [resumeCaller_segments cleans]
      exact segments.archive.subsides_refl
  | true =>
      obtain ⟨cleaner, rfl⟩ := eq_cleaner_of_isCleaner cleans
      exact Cleaner.runFor_subsides _ cleaner segments

theorem resumeAll_subsides (clock : Nat) (storage : Storage) (callers : List Caller)
    (segments : Segments) :
    segments.archive.Subsides (resumeAll clock storage callers segments).2.archive := by
  induction callers generalizing segments with
  | nil => exact segments.archive.subsides_refl
  | cons caller callers ih =>
      exact (resumeCaller_subsides clock storage segments caller).trans (ih _)

theorem resumeAll_segments (none : cleaners callers = 0) :
    (resumeAll clock storage callers segments).2 = segments := by
  induction callers generalizing segments with
  | nil => rfl
  | cons caller callers ih =>
      cases cleans : caller.isCleaner with
      | true =>
          have present : 0 < cleaners (caller :: callers) :=
            List.countP_pos_iff.2 ⟨caller, List.mem_cons_self, cleans⟩
          omega
      | false =>
          rw [cleaners_cons_of_waits cleans] at none
          exact (ih none).trans (resumeCaller_segments cleans)

theorem cleaners_resumeCaller (clock : Nat) (storage : Storage) (segments : Segments)
    (caller : Caller) :
    cleaners (resumeCaller clock storage segments caller).1.1.toList = cleaners [caller] := by
  cases caller with
  | cleaner | returning | broken => rfl
  | sizeWait number size seen =>
      simp only [resumeCaller]
      split
      · rfl
      · have looks := look_looks segments.archive number size seen
        generalize Caller.look segments.archive (.sizeWait number size seen) = after at looks ⊢
        cases looks <;> rfl

theorem cleaners_resumeAll (clock : Nat) (storage : Storage) (callers : List Caller)
    (segments : Segments) :
    cleaners (resumeAll clock storage callers segments).1.1 = cleaners callers := by
  induction callers generalizing segments with
  | nil => rfl
  | cons caller callers ih =>
      have rest := ih (resumeCaller clock storage segments caller).2
      simp only [resumeAll, cleaners_append, cleaners_resumeCaller, rest]
      exact (cleaners_append [caller] callers).symm

theorem resumeAll_cons_cleaner {cleaner : Cleaner}
    (one : cleaners (.cleaner cleaner :: callers) ≤ 1) :
    cleaners callers = 0 ∧ (resumeAll clock storage (.cleaner cleaner :: callers) segments).2 =
      (cleaner.run clock storage segments).2 := by
  rw [cleaners_cons_cleaner] at one
  have none : cleaners callers = 0 := by omega
  exact ⟨none, resumeAll_segments none⟩

theorem resumeAll_visit (one : cleaners callers ≤ 1) :
    let after := resumeAll clock storage callers segments
    Visit (fun archive => archive = segments.archive ∨ archive = after.2.archive) callers
      after.1.1 after.1.2 := by
  induction callers generalizing segments with
  | nil => exact visit_nil _
  | cons caller callers ih =>
      cases cleans : caller.isCleaner with
      | false =>
          have first := resumeCaller_visit clock storage segments cleans
          have same := @resumeCaller_segments clock storage segments caller cleans
          rw [cleaners_cons_of_waits cleans] at one
          have rest := @ih (resumeCaller clock storage segments caller).2 one
          rw [same] at rest
          have whole := (first.mono fun _ moment => Or.inl moment).append rest
          simp only [resumeAll, same]
          exact whole
      | true =>
          obtain ⟨cleaner, rfl⟩ := eq_cleaner_of_isCleaner cleans
          obtain ⟨none, left⟩ := @resumeAll_cons_cleaner callers clock storage segments cleaner one
          have rest := @ih (cleaner.run clock storage segments).2 (by omega)
          have own := visit_cleaner (fun archive => archive = segments.archive ∨
            archive = (resumeAll clock storage (.cleaner cleaner :: callers) segments).2.archive)
            cleaner (cleaner.run clock storage segments).1
          refine own.append (rest.mono fun archive moment => Or.inr ?_)
          exact moment.elim (fun same => same.trans (congrArg Segments.archive left.symm)) id

theorem mem_resumeCaller_cleaner {caller : Caller} {cleaner : Cleaner}
    (member : .cleaner cleaner ∈ (resumeCaller clock storage segments caller).1.1.toList) :
    ∃ earlier, caller = .cleaner earlier ∧ cleaner = (earlier.run clock storage segments).1 := by
  cases cleans : caller.isCleaner with
  | false =>
      have none := cleaners_resumeCaller clock storage segments caller
      rw [cleaners_cons_of_waits cleans] at none
      exact absurd member (cleaner_not_mem none cleaner)
  | true =>
      obtain ⟨earlier, rfl⟩ := eq_cleaner_of_isCleaner cleans
      cases List.mem_singleton.1 member
      exact ⟨earlier, rfl, rfl⟩

theorem resumeAll_again (bounded : segments.archive.isUnlimited = false)
    (one : cleaners callers ≤ 1) :
    let after := resumeAll clock storage callers segments
    ∀ cleaner, .cleaner cleaner ∈ after.1.1 →
      (cleaner.run clock storage after.2).2.archive = after.2.archive := by
  induction callers generalizing segments with
  | nil => exact fun _ member => nomatch member
  | cons caller callers ih =>
      intro after cleaner member
      rcases List.mem_append.1 member with first | rest
      · obtain ⟨own, rfl, rfl⟩ := mem_resumeCaller_cleaner first
        have left : after.2 = _ := (resumeAll_cons_cleaner one).2
        rw [left]
        exact Cleaner.run_again clock storage bounded
      · have few : cleaners callers ≤ 1 := by
          have split := cleaners_append [caller] callers
          rw [List.singleton_append] at split
          omega
        have kept := (resumeCaller_subsides clock storage segments caller).window
        exact @ih (resumeCaller clock storage segments caller).2
          ((congrArg Option.isNone kept).trans bounded) few cleaner rest

theorem resumeAll_archive (one : cleaners callers ≤ 1)
    (done : ∀ cleaner, .cleaner cleaner ∈ callers →
      (cleaner.run clock storage segments).2.archive = segments.archive) :
    (resumeAll clock storage callers segments).2.archive = segments.archive := by
  induction callers generalizing segments with
  | nil => rfl
  | cons caller callers ih =>
      cases cleans : caller.isCleaner with
      | false =>
          have same := @resumeCaller_segments clock storage segments caller cleans
          rw [cleaners_cons_of_waits cleans] at one
          have rest := @ih segments one fun cleaner member =>
            done cleaner (List.mem_cons_of_mem _ member)
          simp only [resumeAll, same]
          exact rest
      | true =>
          obtain ⟨cleaner, rfl⟩ := eq_cleaner_of_isCleaner cleans
          rw [(resumeAll_cons_cleaner one).2]
          exact done cleaner List.mem_cons_self

/-- What happens to the callers that go on after a request. In the first round the sizes are as
the request left them or as the cleaner does, in the second one they are as the cleaner left
them. -/
theorem settle_visits {host : LogHost} (one : cleaners host.callers ≤ 1)
    (bounded : 0 < cleaners host.callers → host.segments.archive.isUnlimited = false) :
    let first := host.round
    let second := first.1.round
    second.1.segments.archive = first.1.segments.archive ∧
      Visit (fun archive => archive = host.segments.archive ∨
        archive = second.1.segments.archive) host.callers first.1.callers first.2 ∧
      Visit (· = second.1.segments.archive) first.1.callers second.1.callers second.2 := by
  intro first second
  have few : cleaners first.1.callers ≤ 1 := by
    rw [← cleaners_resumeAll host.clock host.storage host.callers host.segments] at one
    exact one
  have same : second.1.segments.archive = first.1.segments.archive := by
    refine resumeAll_archive few ?_
    intro cleaner member
    refine resumeAll_again (bounded ?_) one cleaner member
    by_contra none
    have gone : cleaners first.1.callers = 0 := by
      have kept := cleaners_resumeAll host.clock host.storage host.callers host.segments
      exact kept.trans (by omega)
    exact cleaner_not_mem gone cleaner member
  refine ⟨same, ?_, ?_⟩
  · rw [same]
    exact resumeAll_visit one
  · have visit := @resumeAll_visit first.1.callers host.clock host.storage first.1.segments few
    exact visit.mono fun archive moment => moment.elim (·.trans same.symm) id

theorem settle_visit {host : LogHost} (one : cleaners host.callers ≤ 1)
    (bounded : 0 < cleaners host.callers → host.segments.archive.isUnlimited = false) :
    Visit (fun archive => archive = host.segments.archive ∨
      archive = host.settle.1.segments.archive) host.callers host.settle.1.callers
      host.settle.2 := by
  obtain ⟨-, first, second⟩ := settle_visits one bounded
  have both := first.trans (second.mono fun _ moment => Or.inr moment)
  have sorted : host.settle.2.Perm (host.round.2 ++ host.round.1.round.2) := List.mergeSort_perm _ _
  refine ⟨?_, both.stays, both.breaks, both.returned, ?_⟩
  · exact ((sorted.map Prod.fst).append_left _).trans both.accounted
  · intro number result member
    exact both.ends number result (sorted.subset member)

theorem settle_segments {host : LogHost} (none : cleaners host.callers = 0) :
    host.settle.1.segments = host.segments := by
  have kept : cleaners host.round.1.callers = 0 :=
    (cleaners_resumeAll host.clock host.storage host.callers host.segments).trans none
  exact (resumeAll_segments kept).trans (resumeAll_segments none)

end LogHost

end Durability
