import Durability.Proofs.Log.CallerRounds

/-! What requests do to a log host. Whatever lets the total of the archive grow, or calls a wait for
its size off, signals those that wait; only to forget the sizes does not. Waits are numbered as they
are started, and there is at most one cleaner, which keeps to the limits of the archive. Both last
over every run. -/

namespace Durability

/-! ### The sizes -/

/-- Between two states of an archive, whoever waits for its size was signalled, or no wait was
called off and the total did not grow. Forgetting the sizes is the exception: that leaves a total
of zero, and no signal. -/
structure Archive.Alerts (forgets : Prop) (before after : Archive) : Prop where
  signals : before.signals ≤ after.signals
  clear : after.signals = before.signals → before.interrupted = false →
    after.interrupted = false
  total : after.signals = before.signals →
    after.total ≤ before.total ∨ forgets ∧ after.total = 0
  window : after.window = before.window

theorem Archive.Subsides.alerts {before after : Archive} (subsides : before.Subsides after)
    (forgets : Prop) : before.Alerts forgets after :=
  ⟨subsides.signals, fun _ clear => subsides.interrupted.trans clear,
    fun unnoticed => Or.inl (subsides.total unnoticed), subsides.window⟩

theorem Archive.alerts_of_eq {before after : Archive} (same : after = before) (forgets : Prop) :
    before.Alerts forgets after := by
  rw [same]
  exact before.subsides_refl.alerts forgets

theorem Archive.alerts_of_signalled {before after : Archive} {forgets : Prop}
    (signalled : before.signals < after.signals) (window : after.window = before.window) :
    before.Alerts forgets after := by
  refine ⟨Nat.le_of_lt signalled, ?_, ?_, window⟩
  · intro unnoticed
    omega
  · intro unnoticed
    omega

theorem Segments.call_alerts (segments : Segments) (call : Segments.Call) :
    segments.archive.Alerts (call = .resetSizes) (segments.call call).archive := by
  cases call with
  | reserve segment | release segment | forceRelease segment =>
      exact Archive.alerts_of_eq (withReservations_archive _ _) _
  | raiseFloor segment | observe => exact Archive.alerts_of_eq rfl _
  | addSize segment change =>
      change segments.archive.Alerts _ (segments.addSize segment change).archive
      rw [addSize_archive]
      exact (segments.archive.addSize_subsides segment change).alerts _
  | resetSizes =>
      exact ⟨Nat.le_refl _, fun _ clear => clear, fun _ => Or.inr ⟨rfl, rfl⟩, rfl⟩
  | interrupt => exact Archive.alerts_of_signalled (Nat.lt_succ_self _) rfl
  | resume => exact ⟨Nat.le_refl _, fun _ _ => rfl, fun _ => Or.inl (Int.le_refl _), rfl⟩

namespace LogHost

open Caller

def run (options : WalOptions) (onOverflow : Overflow) (requests : List Request) : LogHost :=
  requests.foldl (fun host request => (host.handle request).2.1) (start options onOverflow)

theorem run_concat (options : WalOptions) (onOverflow : Overflow) (requests : List Request)
    (request : Request) :
    run options onOverflow (requests ++ [request]) =
      ((run options onOverflow requests).serve request).2.settle.1 := by
  rw [run, List.foldl_append]
  rfl

theorem serve_call (host : LogHost) (call : Segments.Call) :
    (host.serve (.call call)).2 = { host with segments := host.segments.call call } := rfl

theorem serve_truncate (host : LogHost) (threshold : Int) :
    (host.serve (.truncate threshold)).2 =
      { host with segments := (host.storage.truncate threshold host.segments).2 } := by
  simp only [serve]
  split
  next count segments ended => rw [ended]
  next cause segments ended => rw [ended]

theorem stopCleaner_alerts (host : LogHost) (forgets : Prop) :
    host.segments.archive.Alerts forgets host.stopCleaner.segments.archive := by
  unfold stopCleaner
  cases host.cleaner? with
  | none => exact Archive.alerts_of_eq rfl forgets
  | some cleaner =>
      have ended := @Cleaner.runFor_subsides host.clock host.storage
        (host.segments.interrupt.archive.sizes.size + 2) { cleaner with stopped := true }
        host.segments.interrupt
      exact Archive.alerts_of_signalled ended.signals ended.window

theorem serve_alerts (host : LogHost) (request : Request) :
    host.segments.archive.Alerts (request = .call .resetSizes)
      (host.serve request).2.segments.archive := by
  cases request with
  | call call =>
      have alerts := host.segments.call_alerts call
      rw [serve_call]
      exact ⟨alerts.signals, alerts.clear,
        fun unnoticed => (alerts.total unnoticed).imp_right fun ⟨forgets, zero⟩ =>
          ⟨congrArg Request.call forgets, zero⟩, alerts.window⟩
  | truncate threshold =>
      rw [serve_truncate]
      exact (host.storage.truncate_subsides threshold host.segments).alerts _
  | startCleaner pause =>
      simp only [serve, startCleaner]
      cases Cleaner.new host.segments.archive pause with
      | error cause => exact Archive.alerts_of_eq rfl _
      | ok cleaner => exact host.stopCleaner_alerts _
  | stopCleaner => exact host.stopCleaner_alerts _
  | startSizeWait | setCheckpoint | setFailure | setPrompt | advance =>
      exact Archive.alerts_of_eq rfl _

/-! ### What a request does to the callers -/

theorem cleaner?_eq_none_iff (host : LogHost) :
    host.cleaner? = none ↔ cleaners host.callers = 0 := by
  rw [cleaner?, List.findSome?_eq_none_iff, cleaners, List.countP_eq_zero]
  refine forall_congr' fun caller => imp_congr_right fun _ => ?_
  cases caller with
  | sizeWait | returning | broken => exact ⟨fun _ => Bool.false_ne_true, fun _ => rfl⟩
  | cleaner => exact ⟨nofun, fun waits => absurd rfl waits⟩

theorem withoutCleaner_callers (host : LogHost) :
    host.withoutCleaner.callers = host.callers.filter fun caller => !caller.isCleaner := by
  refine List.filter_congr fun caller _ => ?_
  cases caller <;> rfl

def alarmed (host : LogHost) (caller : Caller) : Caller :=
  match caller with
  | .sizeWait number _ _ =>
    if number ∈ host.prompt then caller.look host.segments.archive.interrupt else caller
  | .returning _ _ _ | .broken _ _ | .cleaner _ => caller

/-- A wait that has looked while every wait was called off is over, or was broken off. -/
inductive Alarmed (host : LogHost) : Caller → Caller → Prop
  | calledOff {number : Nat} (size : Int) (seen : Option Nat) (prompt : number ∈ host.prompt) :
      Alarmed host (.sizeWait number size seen)
        (.returning number size (.error .sizeWaitInterrupted))
  | broken {number : Nat} {size : Int} (seen : Option Nat) (prompt : number ∈ host.prompt)
      (unknown : host.segments.archive.interrupt.lack? size = none) :
      Alarmed host (.sizeWait number size seen) (.broken number size)

theorem alarmed_cases (host : LogHost) (caller : Caller) :
    (host.alarmed caller = caller ∧
      ∀ number size seen, caller = .sizeWait number size seen → number ∉ host.prompt) ∨
      Alarmed host caller (host.alarmed caller) := by
  cases caller with
  | returning | broken | cleaner => exact Or.inl ⟨rfl, nofun⟩
  | sizeWait number size seen =>
      simp only [alarmed]
      split
      next prompt =>
        refine Or.inr ?_
        have looks := look_looks host.segments.archive.interrupt number size seen
        generalize Caller.look host.segments.archive.interrupt (.sizeWait number size seen) =
          after at looks ⊢
        cases looks with
        | blocked clear => cases clear
        | returning found =>
            rcases found with ⟨-, clear, -⟩ | ⟨rfl, -⟩
            · cases clear
            · exact .calledOff size seen prompt
        | broken unknown => exact .broken seen prompt unknown
      next late =>
        refine Or.inl ⟨rfl, fun _ _ _ same => ?_⟩
        cases same
        exact late

theorem alarmed_wait? (host : LogHost) (caller : Caller) :
    (host.alarmed caller).wait? = caller.wait? := by
  rcases host.alarmed_cases caller with ⟨same, -⟩ | made
  · rw [same]
  · generalize host.alarmed caller = after at made ⊢
    cases made <;> rfl

theorem stopCleaner_callers (host : LogHost) :
    host.stopCleaner.callers = if host.cleaner?.isSome then
      (host.callers.map host.alarmed).filter fun caller => !caller.isCleaner
    else host.callers := by
  cases present : host.cleaner? with
  | none => rw [stopCleaner, present, Option.isSome_none, if_neg Bool.false_ne_true]
  | some cleaner =>
      rw [stopCleaner, present, Option.isSome_some, if_pos rfl]
      exact withoutCleaner_callers _

theorem cleaners_stopCleaner (host : LogHost) : cleaners host.stopCleaner.callers = 0 := by
  rw [stopCleaner_callers]
  cases present : host.cleaner? with
  | none => exact host.cleaner?_eq_none_iff.1 present
  | some cleaner =>
      refine List.countP_eq_zero.2 fun caller member => ?_
      have waits := (List.mem_filter.1 member).2
      rw [Bool.not_eq_true'] at waits
      exact Bool.eq_false_iff.1 waits

theorem filterMap_waits (callers : List Caller) :
    (callers.filter fun caller => !caller.isCleaner).filterMap wait? =
      callers.filterMap wait? := by
  rw [List.filterMap_filter]
  refine List.filterMap_congr fun caller _ => ?_
  cases caller <;> rfl

theorem stopCleaner_waits (host : LogHost) :
    host.stopCleaner.callers.filterMap wait? = host.callers.filterMap wait? := by
  rw [stopCleaner_callers]
  split
  · rw [filterMap_waits, List.filterMap_map]
    exact List.filterMap_congr fun caller _ => host.alarmed_wait? caller
  · rfl

theorem mem_stopCleaner {host : LogHost} {caller : Caller}
    (member : caller ∈ host.stopCleaner.callers) :
    caller ∈ host.callers ∨ host.cleaner?.isSome = true ∧ ∃ earlier ∈ host.callers,
      Alarmed host earlier caller := by
  rw [stopCleaner_callers] at member
  split at member
  next present =>
    obtain ⟨earlier, there, rfl⟩ := List.mem_map.1 (List.mem_filter.1 member).1
    rcases host.alarmed_cases earlier with ⟨same, -⟩ | made
    · exact Or.inl (same.symm ▸ there)
    · exact Or.inr ⟨present, earlier, there, made⟩
  next => exact Or.inl member

theorem stopCleaner_started (host : LogHost) : host.stopCleaner.started = host.started := by
  unfold stopCleaner
  cases host.cleaner? <;> rfl

inductive Served (host : LogHost) (served : LogHost) : Request → Prop
  | same {request : Request} (callers : served.callers = host.callers)
      (started : served.started = host.started)
      (others : ∀ size, request ≠ .startSizeWait size) (stays : request ≠ .stopCleaner)
      (refused : ∀ pause, request = .startCleaner pause → host.segments.archive.window = none) :
      Served host served request
  | waits (size : Int)
      (callers : served.callers = host.callers ++ [.sizeWait host.started size none])
      (started : served.started = host.started + 1) : Served host served (.startSizeWait size)
  | stops (callers : served.callers = host.stopCleaner.callers)
      (started : served.started = host.started) : Served host served .stopCleaner
  | cleans (pause : Nat) {cleaner : Cleaner} {window : SizeWindow}
      (callers : served.callers = host.stopCleaner.callers ++ [.cleaner cleaner])
      (started : served.started = host.started)
      (bounded : host.segments.archive.window = some window)
      (own : cleaner.threshold = window.min) : Served host served (.startCleaner pause)

theorem serve_served (host : LogHost) (request : Request) :
    Served host (host.serve request).2 request := by
  cases request with
  | truncate threshold =>
      rw [serve_truncate]
      exact .same rfl rfl nofun nofun nofun
  | startSizeWait size => exact .waits size rfl rfl
  | stopCleaner => exact .stops rfl host.stopCleaner_started
  | startCleaner pause =>
      cases bounded : host.segments.archive.window with
      | none =>
          have same : (host.serve (.startCleaner pause)).2 = host := by
            simp only [serve, startCleaner, Cleaner.new, bounded]
          rw [same]
          exact .same rfl rfl nofun nofun fun _ _ => bounded
      | some window =>
          let cleaner : Cleaner :=
            { threshold := window.min, pause, stopped := false, phase := .ready }
          have next : (host.serve (.startCleaner pause)).2 =
              { host.stopCleaner with
                callers := host.stopCleaner.callers ++ [.cleaner cleaner] } := by
            simp only [serve, startCleaner, Cleaner.new, bounded, cleaner]
          rw [next]
          exact .cleans pause rfl host.stopCleaner_started bounded rfl
  | call | setCheckpoint | setFailure | setPrompt | advance =>
      exact .same rfl rfl nofun nofun nofun

/-- A host whose waits have different numbers, less than the next one, with at most one cleaner,
which brings the archive below its minimum. -/
structure Managed (host : LogHost) : Prop where
  numbered : (numbers host.callers).Nodup
  earlier : ∀ number ∈ numbers host.callers, number < host.started
  single : cleaners host.callers ≤ 1
  own : ∀ cleaner, .cleaner cleaner ∈ host.callers →
    ∃ window, host.segments.archive.window = some window ∧ cleaner.threshold = window.min

theorem Managed.serve {host : LogHost} (managed : host.Managed) (request : Request) :
    (host.serve request).2.Managed := by
  have window := (host.serve_alerts request).window
  have made := host.serve_served request
  have stopped_numbers : numbers host.stopCleaner.callers = numbers host.callers :=
    congrArg (List.map Prod.fst) host.stopCleaner_waits
  have stopped := host.cleaners_stopCleaner
  generalize (host.serve request).2 = served at window made ⊢
  cases made with
  | same callers started =>
      refine ⟨?_, ?_, ?_, ?_⟩ <;> rw [callers]
      · exact managed.numbered
      · rw [started]
        exact managed.earlier
      · exact managed.single
      · rw [window]
        exact managed.own
  | waits size callers started =>
      refine ⟨?_, ?_, ?_, ?_⟩ <;> rw [callers]
      · rw [numbers_append]
        refine List.nodup_append.2 ⟨managed.numbered, List.pairwise_singleton _ _, ?_⟩
        intro number member other new same
        have below := managed.earlier number member
        have own : other = host.started := List.mem_singleton.1 new
        omega
      · rw [numbers_append, started]
        intro number member
        rcases List.mem_append.1 member with old | new
        · exact Nat.lt_succ_of_lt (managed.earlier number old)
        · have own : number = host.started := List.mem_singleton.1 new
          omega
      · rw [cleaners_append]
        exact managed.single
      · rw [window]
        intro cleaner member
        rcases List.mem_append.1 member with old | new
        · exact managed.own cleaner old
        · cases List.mem_singleton.1 new
  | stops callers started =>
      refine ⟨?_, ?_, ?_, ?_⟩ <;> rw [callers]
      · rw [stopped_numbers]
        exact managed.numbered
      · rw [stopped_numbers, started]
        exact managed.earlier
      · rw [stopped]
        exact Nat.zero_le 1
      · exact fun cleaner member => absurd member (cleaner_not_mem stopped cleaner)
  | @cleans pause cleaner limits callers started bounded own =>
      refine ⟨?_, ?_, ?_, ?_⟩ <;> rw [callers]
      · rw [numbers_append, stopped_numbers]
        exact (List.append_nil _).symm ▸ managed.numbered
      · rw [numbers_append, stopped_numbers, started]
        exact (List.append_nil _).symm ▸ managed.earlier
      · rw [cleaners_append, stopped]
        exact Nat.le_refl 1
      · intro other member
        rcases List.mem_append.1 member with old | new
        · exact absurd old (cleaner_not_mem stopped other)
        · cases List.mem_singleton.1 new
          exact ⟨limits, window.trans bounded, own⟩

theorem mem_resumeAll_cleaner {clock : Nat} {storage : Storage} {callers : List Caller}
    {segments : Segments} {cleaner : Cleaner}
    (member : .cleaner cleaner ∈ (resumeAll clock storage callers segments).1.1) :
    ∃ earlier, .cleaner earlier ∈ callers ∧ cleaner.threshold = earlier.threshold := by
  induction callers generalizing segments with
  | nil => exact nomatch member
  | cons caller callers ih =>
      rcases List.mem_append.1 member with first | rest
      · obtain ⟨earlier, rfl, rfl⟩ := mem_resumeCaller_cleaner first
        exact ⟨earlier, List.mem_cons_self, Cleaner.runFor_threshold _ earlier segments⟩
      · obtain ⟨earlier, there, same⟩ := ih rest
        exact ⟨earlier, List.mem_cons_of_mem _ there, same⟩

theorem Managed.round {host : LogHost} (managed : host.Managed) : host.round.1.Managed := by
  have visit := @resumeAll_visit host.callers host.clock host.storage host.segments managed.single
  have window := (resumeAll_subsides host.clock host.storage host.callers host.segments).window
  refine ⟨?_, ?_, ?_, ?_⟩
  · have all := visit.accounted.nodup_iff.2 managed.numbered
    exact (List.nodup_append.1 all).1
  · intro number member
    exact managed.earlier number (visit.accounted.subset (List.mem_append_left _ member))
  · have kept := cleaners_resumeAll host.clock host.storage host.callers host.segments
    exact kept.trans_le managed.single
  · intro cleaner member
    obtain ⟨earlier, there, same⟩ := mem_resumeAll_cleaner member
    obtain ⟨limits, bounded, own⟩ := managed.own earlier there
    exact ⟨limits, window.trans bounded, same.trans own⟩

theorem managed_run (options : WalOptions) (onOverflow : Overflow) (requests : List Request) :
    (run options onOverflow requests).Managed := by
  induction requests using List.reverseRecOn with
  | nil => exact ⟨.nil, nofun, Nat.zero_le 1, nofun⟩
  | append_singleton requests request ih =>
      rw [run_concat]
      exact (ih.serve request).round.round

theorem Managed.bounded {host : LogHost} (managed : host.Managed)
    (present : 0 < cleaners host.callers) : host.segments.archive.isUnlimited = false := by
  obtain ⟨caller, member, found⟩ := List.countP_pos_iff.1 present
  obtain ⟨cleaner, rfl⟩ := eq_cleaner_of_isCleaner found
  obtain ⟨limits, bounded, -⟩ := managed.own cleaner member
  exact congrArg Option.isNone bounded

/-- Between two requests no wait is about to return. -/
theorem returning_not_mem_run (options : WalOptions) (onOverflow : Overflow)
    (requests : List Request) (number : Nat) (size : Int) (result : Except Error Unit) :
    .returning number size result ∉ (run options onOverflow requests).callers := by
  induction requests using List.reverseRecOn with
  | nil => exact nofun
  | append_singleton requests request ih =>
      have managed := (managed_run options onOverflow requests).serve request
      rw [run_concat]
      exact (settle_visit managed.single managed.bounded).returned number size result

end LogHost

end Durability
