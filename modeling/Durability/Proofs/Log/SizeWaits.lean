import Durability.Proofs.Log.HostRun
import Mathlib.Data.List.Nodup

/-! Waits for the size of the archive. After every request, once the background callers have gone
on, each wait is still blocked, has a result or was broken off, and a result is what the wait found
in the archive at a moment of this request. Whatever lets the total grow signals the waits, with one
exception: forgetting the sizes lifts a negative total to zero and signals nobody. Apart from a wait
that missed such a rise, and from one whose last look could not count what was lacking, a blocked
wait has not got its size and has not been called off. -/

namespace Durability

namespace Caller

def blocked? : Caller → Option (Nat × Int)
  | sizeWait number size _ => some (number, size)
  | returning _ _ _ | broken _ _ | cleaner _ => none

def broken? : Caller → Option (Nat × Int)
  | broken number size => some (number, size)
  | sizeWait _ _ _ | returning _ _ _ | cleaner _ => none

end Caller

namespace LogHost

open Caller

def waits (host : LogHost) : List (Nat × Int) := host.callers.filterMap blocked?

def broken (host : LogHost) : List (Nat × Int) := host.callers.filterMap broken?

def Request.waits (host : LogHost) : Request → List (Nat × Int)
  | .startSizeWait size => [(host.started, size)]
  | _ => []

def Request.stopsCleaner : Request → Bool
  | .stopCleaner | .startCleaner _ => true
  | _ => false

def callsOff (host : LogHost) (request : Request) (number : Nat) : Bool :=
  host.cleaner?.isSome && request.stopsCleaner && decide (number ∈ host.prompt)

def moments (host : LogHost) (request : Request) (number : Nat) : List Archive :=
  let served := (host.serve request).2
  (if host.callsOff request number then [host.segments.archive.interrupt] else []) ++
    [served.segments.archive, served.settle.1.segments.archive]

theorem mem_waits {host : LogHost} {number : Nat} {size : Int} :
    (number, size) ∈ host.waits ↔ ∃ seen, .sizeWait number size seen ∈ host.callers := by
  rw [waits, List.mem_filterMap]
  constructor
  · rintro ⟨caller, member, found⟩
    cases caller with
    | sizeWait number size seen =>
        cases found
        exact ⟨seen, member⟩
    | returning | broken | cleaner => cases found
  · rintro ⟨seen, member⟩
    exact ⟨_, member, rfl⟩

theorem mem_broken {host : LogHost} {number : Nat} {size : Int} :
    (number, size) ∈ host.broken ↔ .broken number size ∈ host.callers := by
  rw [LogHost.broken, List.mem_filterMap]
  constructor
  · rintro ⟨caller, member, found⟩
    cases caller with
    | broken number size =>
        cases found
        exact member
    | sizeWait | returning | cleaner => cases found
  · exact fun member => ⟨_, member, rfl⟩

theorem wait?_perm {callers : List Caller}
    (stay : ∀ number size result, .returning number size result ∉ callers) :
    (callers.filterMap wait?).Perm (callers.filterMap blocked? ++ callers.filterMap broken?) := by
  induction callers with
  | nil => exact .refl _
  | cons caller callers ih =>
      have rest := ih fun number size result member =>
        stay number size result (List.mem_cons_of_mem _ member)
      cases caller with
      | sizeWait number size seen => exact rest.cons (number, size)
      | returning number size result => exact absurd List.mem_cons_self (stay number size result)
      | broken number size => exact (rest.cons (number, size)).trans List.perm_middle.symm
      | cleaner cleaner => exact rest

theorem serve_waits (host : LogHost) (request : Request) :
    (host.serve request).2.callers.filterMap wait? =
      host.callers.filterMap wait? ++ request.waits host := by
  have made := host.serve_served request
  generalize (host.serve request).2 = served at made ⊢
  cases made with
  | same callers started others =>
      have none : request.waits host = [] := by
        cases request with
        | startSizeWait size => exact absurd rfl (others size)
        | _ => rfl
      rw [callers, none, List.append_nil]
  | waits size callers =>
      rw [callers, List.filterMap_append]
      rfl
  | stops callers =>
      exact (congrArg _ callers).trans
        (host.stopCleaner_waits.trans (List.append_nil _).symm)
  | cleans pause callers =>
      rw [callers, List.filterMap_append, stopCleaner_waits]
      rfl

theorem mem_serve {host : LogHost} {request : Request} {caller : Caller}
    (waits : caller.isCleaner = false) (member : caller ∈ (host.serve request).2.callers) :
    caller ∈ host.callers ∨
      (∃ wait ∈ request.waits host, caller = .sizeWait wait.1 wait.2 none) ∨
      host.cleaner?.isSome = true ∧ request.stopsCleaner = true ∧
        ∃ earlier ∈ host.callers, Alarmed host earlier caller := by
  have made := host.serve_served request
  generalize (host.serve request).2 = served at made member
  cases made with
  | same callers =>
      rw [callers] at member
      exact Or.inl member
  | waits size callers =>
      rw [callers] at member
      refine (List.mem_append.1 member).imp_right fun new => Or.inl ?_
      exact ⟨_, List.mem_cons_self, List.mem_singleton.1 new⟩
  | stops callers =>
      rw [callers] at member
      exact (mem_stopCleaner member).imp_right fun ⟨present, alarmed⟩ =>
        Or.inr ⟨present, rfl, alarmed⟩
  | cleans pause callers =>
      rw [callers] at member
      rcases List.mem_append.1 member with old | new
      · exact (mem_stopCleaner old).imp_right fun ⟨present, alarmed⟩ =>
          Or.inr ⟨present, rfl, alarmed⟩
      · cases List.mem_singleton.1 new
        cases waits

theorem sizeWait_of_mem_serve {host : LogHost} {request : Request} {number seen : Nat}
    {size : Int}
    (member : .sizeWait number size (some seen) ∈ (host.serve request).2.callers) :
    .sizeWait number size (some seen) ∈ host.callers := by
  rcases mem_serve rfl member with before | ⟨wait, -, new⟩ | ⟨-, -, earlier, there, alarmed⟩
  · exact before
  · cases new
  · cases alarmed

theorem waits_of_mem_serve {host : LogHost} {request : Request} {number : Nat} {size : Int}
    {seen : Option Nat} (member : .sizeWait number size seen ∈ (host.serve request).2.callers) :
    (number, size) ∈ host.waits ++ request.waits host := by
  rcases mem_serve rfl member with before | ⟨wait, started, new⟩ | ⟨-, -, earlier, there, alarmed⟩
  · exact List.mem_append_left _ (mem_waits.2 ⟨seen, before⟩)
  · cases new
    exact List.mem_append_right _ started
  · cases alarmed

theorem mem_moments {host : LogHost} {request : Request} {number : Nat} {archive : Archive}
    (moment : archive = (host.serve request).2.segments.archive ∨
      archive = (host.serve request).2.settle.1.segments.archive) :
    archive ∈ host.moments request number := by
  refine List.mem_append_right _ ?_
  rcases moment with rfl | rfl
  · exact List.mem_cons_self
  · exact List.mem_cons_of_mem _ List.mem_cons_self

theorem interrupt_mem_moments {host : LogHost} {request : Request} {number : Nat}
    (present : host.cleaner?.isSome = true) (stops : request.stopsCleaner = true)
    (prompt : number ∈ host.prompt) :
    host.segments.archive.interrupt ∈ host.moments request number := by
  have off : host.callsOff request number = true := by
    rw [callsOff, present, stops, decide_eq_true prompt]
    rfl
  rw [moments, off]
  exact List.mem_cons_self

/-! ### What a wait saw last -/

/-- The last look at the archive of a wait that is still blocked. The requests `later` were carried
out since, and nobody was signalled. -/
structure LastLook (options : WalOptions) (onOverflow : Overflow) (requests : List Request)
    (wait : Nat × Int) (archive : Archive) (later : List Request) : Prop where
  moment : ∃ earlier request, requests = earlier ++ request :: later ∧
    wait ∈ (run options onOverflow (earlier ++ [request])).waits ∧
    archive ∈ (run options onOverflow earlier).moments request wait.1
  lacked : archive.Lacks wait.2
  unsignalled : (run options onOverflow requests).segments.archive.signals = archive.signals

def Settled (before after : Archive) (later : List Request) : Prop :=
  after.total ≤ before.total ∨ .call .resetSizes ∈ later ∧ after.total ≤ 0

def Looked (options : WalOptions) (onOverflow : Overflow) (requests : List Request) : Prop :=
  let host := run options onOverflow requests
  ∀ number size seen, .sizeWait number size seen ∈ host.callers →
    seen = some host.segments.archive.signals ∧ host.segments.archive.interrupted = false ∧
      ∃ archive later, LastLook options onOverflow requests (number, size) archive later ∧
        Settled archive host.segments.archive later

variable {options : WalOptions} {onOverflow : Overflow} {requests : List Request}

theorem LastLook.concat {wait : Nat × Int} {archive : Archive} {later : List Request}
    (look : LastLook options onOverflow requests wait archive later) (request : Request)
    (unnoticed : (run options onOverflow (requests ++ [request])).segments.archive.signals =
      (run options onOverflow requests).segments.archive.signals) :
    LastLook options onOverflow (requests ++ [request]) wait archive (later ++ [request]) := by
  obtain ⟨earlier, made, split, rest⟩ := look.moment
  refine ⟨⟨earlier, made, ?_, rest⟩, look.lacked, unnoticed.trans look.unsignalled⟩
  rw [split, List.append_assoc, List.cons_append]

theorem Looked.unnoticed (looked : Looked options onOverflow requests) (request : Request)
    {number : Nat} {size : Int} {seen : Nat}
    (member : .sizeWait number size (some seen) ∈
      ((run options onOverflow requests).serve request).2.callers)
    (last : seen = (run options onOverflow (requests ++ [request])).segments.archive.signals) :
    let after := run options onOverflow (requests ++ [request])
    after.segments.archive.interrupted = false ∧
      ∃ archive later,
        LastLook options onOverflow (requests ++ [request]) (number, size) archive later ∧
          Settled archive after.segments.archive later := by
  intro after
  obtain ⟨known, clear, archive, later, look, settled⟩ :=
    looked number size (some seen) (sizeWait_of_mem_serve member)
  have alerts := (run options onOverflow requests).serve_alerts request
  have subsides : ((run options onOverflow requests).serve request).2.segments.archive.Subsides
      after.segments.archive := by
    rw [show after = _ from run_concat options onOverflow requests request]
    exact (resumeAll_subsides _ _ _ _).trans (resumeAll_subsides _ _ _ _)
  have first := alerts.signals
  have second := subsides.signals
  have same : seen = (run options onOverflow requests).segments.archive.signals :=
    Option.some.inj known
  have now : seen = after.segments.archive.signals := last
  have served_same :
      ((run options onOverflow requests).serve request).2.segments.archive.signals =
        (run options onOverflow requests).segments.archive.signals := by omega
  have after_same : after.segments.archive.signals =
      ((run options onOverflow requests).serve request).2.segments.archive.signals := by omega
  refine ⟨subsides.interrupted.trans (alerts.clear served_same clear), archive,
    later ++ [request], look.concat request (after_same.trans served_same), ?_⟩
  have fallen := subsides.total after_same
  rcases alerts.total served_same with kept | ⟨forgets, zero⟩
  · refine settled.imp (by omega) fun ⟨forgot, small⟩ => ?_
    exact ⟨List.mem_append_left _ forgot, by omega⟩
  · refine Or.inr ⟨List.mem_append_right _ ?_, by omega⟩
    rw [forgets]
    exact List.mem_cons_self

theorem looked_run (options : WalOptions) (onOverflow : Overflow) (requests : List Request) :
    Looked options onOverflow requests := by
  induction requests using List.reverseRecOn with
  | nil => exact fun _ _ _ member => nomatch member
  | append_singleton requests request looked =>
      let served := ((run options onOverflow requests).serve request).2
      let after := run options onOverflow (requests ++ [request])
      have managed : served.Managed := (managed_run options onOverflow requests).serve request
      have settled : after = served.settle.1 := run_concat options onOverflow requests request
      obtain ⟨same, first, second⟩ := settle_visits managed.single managed.bounded
      intro number size seen member
      have stays : .sizeWait number size seen ∈ after.callers := member
      rw [settled] at stays
      obtain ⟨_, rfl, known, why⟩ := second.stays number size seen stays
      have last : seen = some after.segments.archive.signals := by
        rw [settled]
        exact known
      refine ⟨last, ?_⟩
      -- The look of a wait that had a signal in one of the two rounds.
      have now : ∀ archive, (archive = served.segments.archive ∨
          archive = served.settle.1.segments.archive) → seen = some archive.signals →
          archive.interrupted = false → archive.Lacks size →
          after.segments.archive.interrupted = false ∧ ∃ archive later,
            LastLook options onOverflow (requests ++ [request]) (number, size) archive later ∧
              Settled archive after.segments.archive later := by
        intro archive moment seen_eq clear lacks
        have unsignalled := Option.some.inj (last.symm.trans seen_eq)
        have subsides : archive.Subsides after.segments.archive := by
          rw [settled]
          rcases moment with rfl | rfl
          · exact (resumeAll_subsides _ _ _ _).trans (resumeAll_subsides _ _ _ _)
          · exact Archive.subsides_refl _
        exact ⟨subsides.interrupted.trans clear, archive, [],
          ⟨⟨requests, request, rfl, mem_waits.2 ⟨_, member⟩, mem_moments moment⟩, lacks,
            unsignalled⟩,
          Or.inl (subsides.total unsignalled)⟩
      rcases why with waited | ⟨-, clear, lacks⟩
      · obtain ⟨archive, moment, seen_eq, why⟩ := first.stays number size seen waited
        rcases why with before | ⟨-, clear, lacks⟩
        · rw [last] at before
          exact looked.unnoticed request before rfl
        · exact now archive moment seen_eq clear lacks
      · exact now _ (Or.inr rfl) known clear lacks

theorem LastLook.short {wait : Nat × Int} {archive after : Archive} {later : List Request}
    (look : LastLook options onOverflow requests wait archive later)
    (settled : Settled archive after later) :
    after.total < wait.2 ∨
      archive.total < wait.2 ∧ wait.2 ≤ 0 ∧ .call .resetSizes ∈ later ∨
        ¬ IsWord (wait.2 - archive.total) := by
  by_cases fits : IsWord (wait.2 - archive.total)
  · have low := (Archive.lacks_iff fits).1 look.lacked
    rcases settled with fallen | ⟨forgot, small⟩
    · exact Or.inl (by omega)
    · by_cases still : after.total < wait.2
      · exact Or.inl still
      · exact Or.inr (Or.inl ⟨low, by omega, forgot⟩)
  · exact Or.inr (Or.inr fits)

/-! ### After every request -/

theorem ends_of_settle {number : Nat} {result : Except Error Unit} {request : Request}
    (member : (number, result) ∈ ((run options onOverflow requests).handle request).2.2) :
    let before := run options onOverflow requests
    ∃ size, (number, size) ∈ before.waits ++ request.waits before ∧
      ∃ archive ∈ before.moments request number, Found archive size result := by
  intro before
  have managed := (managed_run options onOverflow requests).serve request
  have new : ∀ size, .returning number size result ∉ before.callers :=
    fun size => returning_not_mem_run options onOverflow requests number size result
  obtain ⟨size, returns | ⟨seen, archive, there, moment, found⟩⟩ :=
    (settle_visit managed.single managed.bounded).ends number result member
  · refine ⟨size, ?_⟩
    rcases mem_serve rfl returns with old | ⟨wait, -, other⟩ |
      ⟨present, stops, earlier, there, alarmed⟩
    · exact absurd old (new size)
    · cases other
    · cases alarmed with
      | calledOff size seen prompt =>
          exact ⟨List.mem_append_left _ (mem_waits.2 ⟨seen, there⟩),
            before.segments.archive.interrupt, interrupt_mem_moments present stops prompt,
            Or.inr ⟨rfl, rfl⟩⟩
  · exact ⟨size, waits_of_mem_serve there, archive, mem_moments moment, found⟩

theorem breaks_of_settle {wait : Nat × Int} {request : Request}
    (member : wait ∈ (run options onOverflow (requests ++ [request])).broken) :
    let before := run options onOverflow requests
    wait ∈ before.broken ∨ wait ∈ before.waits ++ request.waits before ∧
      ∃ archive ∈ before.moments request wait.1, archive.lack? wait.2 = none := by
  intro before
  have managed := (managed_run options onOverflow requests).serve request
  rw [run_concat] at member
  rcases (settle_visit managed.single managed.bounded).breaks _ _ (mem_broken.1 member) with
    broke | ⟨seen, archive, there, moment, unknown⟩
  · rcases mem_serve rfl broke with old | ⟨other, -, new⟩ |
      ⟨present, stops, earlier, there, alarmed⟩
    · exact Or.inl (mem_broken.2 old)
    · cases new
    · refine Or.inr ?_
      cases alarmed with
      | broken seen prompt unknown =>
          exact ⟨List.mem_append_left _ (mem_waits.2 ⟨seen, there⟩), _,
            interrupt_mem_moments present stops prompt, unknown⟩
  · exact Or.inr ⟨waits_of_mem_serve there, archive, mem_moments moment, unknown⟩

theorem waits_of_settle {wait : Nat × Int} {request : Request}
    (member : wait ∈ (run options onOverflow (requests ++ [request])).waits) :
    let before := run options onOverflow requests
    wait ∈ before.waits ++ request.waits before := by
  have managed := (managed_run options onOverflow requests).serve request
  rw [run_concat] at member
  obtain ⟨seen, blocked⟩ := mem_waits.1 member
  obtain ⟨-, -, -, before | ⟨⟨earlier, before⟩, -⟩⟩ :=
    (settle_visit managed.single managed.bounded).stays _ _ _ blocked
  · exact waits_of_mem_serve before
  · exact waits_of_mem_serve before

theorem settle_accounted (options : WalOptions) (onOverflow : Overflow) (requests : List Request)
    (request : Request) :
    let before := run options onOverflow requests
    let after := run options onOverflow (requests ++ [request])
    let asked := before.waits ++ request.waits before
    ((after.waits ++ after.broken).map Prod.fst ++
        (before.handle request).2.2.map Prod.fst).Perm
        ((asked ++ before.broken).map Prod.fst) ∧
      ((asked ++ before.broken).map Prod.fst).Nodup := by
  intro before after asked
  have managed : (before.serve request).2.Managed :=
    (managed_run options onOverflow requests).serve request
  have visit := settle_visit managed.single managed.bounded
  have started : ((before.serve request).2.callers.filterMap wait?).Perm
      (asked ++ before.broken) := by
    rw [serve_waits]
    have there : (before.callers.filterMap wait?).Perm (before.waits ++ before.broken) :=
      wait?_perm (returning_not_mem_run options onOverflow requests)
    refine (there.append_right _).trans ?_
    rw [List.append_assoc, List.append_assoc]
    exact List.perm_append_comm.append_left _
  have left : ((before.serve request).2.settle.1.callers.filterMap wait?).Perm
      (after.waits ++ after.broken) := by
    have same : after = (before.serve request).2.settle.1 :=
      run_concat options onOverflow requests request
    rw [same]
    exact wait?_perm visit.returned
  refine ⟨?_, (started.map Prod.fst).nodup_iff.1 managed.numbered⟩
  exact ((left.map Prod.fst).symm.append_right _).trans
    (visit.accounted.trans (started.map Prod.fst))

theorem stays_of_lacking {wait : Nat × Int} {request : Request}
    (there : wait ∈ (run options onOverflow requests).waits ++
      request.waits (run options onOverflow requests))
    (lacking : ∀ archive ∈ (run options onOverflow requests).moments request wait.1,
      archive.interrupted = false ∧ archive.Lacks wait.2) :
    wait ∈ (run options onOverflow (requests ++ [request])).waits := by
  obtain ⟨accounted, unique⟩ := settle_accounted options onOverflow requests request
  have number := accounted.symm.subset (List.mem_map_of_mem (List.mem_append_left _ there))
  rw [List.map_append] at unique
  obtain ⟨distinct, -, apart⟩ := List.nodup_append.1 unique
  rcases List.mem_append.1 number with left | ended
  · obtain ⟨other, member, named⟩ := List.mem_map.1 left
    rcases List.mem_append.1 member with blocked | broke
    · rw [← List.inj_on_of_nodup_map distinct (waits_of_settle blocked) there named]
      exact blocked
    · rcases breaks_of_settle broke with old | ⟨here, archive, moment, unknown⟩
      · exact absurd named.symm
          (apart _ (List.mem_map_of_mem there) _ (List.mem_map_of_mem old))
      · cases List.inj_on_of_nodup_map distinct here there named
        obtain ⟨-, lack, found, -⟩ := lacking archive moment
        rw [unknown] at found
        cases found
  · obtain ⟨result, member, named⟩ := List.mem_map.1 ended
    obtain ⟨size, here, archive, moment, found⟩ := ends_of_settle member
    cases List.inj_on_of_nodup_map distinct here there named
    obtain ⟨clear, lacks⟩ := lacking archive moment
    rcases found with ⟨-, -, reaches⟩ | ⟨-, off⟩
    · exact absurd lacks (Archive.not_lacks_of_reaches reaches)
    · rw [clear] at off
      cases off

def waitsBelowZero : List Request :=
  [.call (.addSize 0 (-100)), .startSizeWait (-50), .startSizeWait 20]

def narrowArchive : WalOptions :=
  { minArchiveSize := some 400, maxArchiveSize := some 1000, version := .v2 }

example :
    let requests := [.call (.addSize 0 1), .startSizeWait (-2 ^ 63)]
    (run narrowArchive .wraps requests).waits = [(0, -2 ^ 63)] ∧
      (run narrowArchive .fails requests).broken = [(0, -2 ^ 63)] := by decide

example :
    let before := run narrowArchive .wraps
      [.startSizeWait 20, .startSizeWait 30, .startCleaner 5, .setPrompt [1]]
    let ended := (before.handle .stopCleaner).2
    ended.1.waits = [(0, 20)] ∧ ended.2.map Prod.fst = [1] := by decide +kernel

end LogHost

end Durability
