import Durability.Proofs.Throttle.WritersRun

/-! What holds of a policy, of the tracker of the checkpoint, or of those who are parked, throughout
a run of writers. Writers use their policy only by its own steps, so that whatever these keep
lasts. Its settings are such a thing: from where on the buffer is too full, and which pages are
throttled. The tracker they leave alone, so that it shows the events of the checkpoint one after
another. And a parked writer keeps to the end what it was given when it parked, which is an answer
that counts. -/

namespace Durability

namespace SpeedThrottle

variable {kept : SpeedThrottle → Prop} {throttle : SpeedThrottle}

theorem kept_step (marks : ∀ throttle now, kept throttle → kept (throttle.readMarkSpeed now).2)
    (warned : ∀ (throttle : SpeedThrottle) time, kept throttle →
      kept { throttle with lastWarning := time })
    (clock : Nat) (before : kept throttle) (check : WarningCheck) :
    kept (check.step clock throttle).2 := by
  have weighed : kept (throttle.readWeight clock).2 := by
    rw [readWeight_snd]
    exact marks _ _ before
  cases check with
  | start => exact before
  | timing previous =>
      simp only [WarningCheck.step]
      split <;> exact before
  | weighing previous now =>
      simp only [WarningCheck.step]
      split <;> exact weighed
  | claiming previous now weight =>
      simp only [WarningCheck.step]
      split
      · exact warned _ _ before
      · exact before
  | done due => exact before

theorem kept_warn (marks : ∀ throttle now, kept throttle → kept (throttle.readMarkSpeed now).2)
    (writes : ∀ throttle now, kept throttle → kept (throttle.readWriteSpeed now).2)
    (warned : ∀ (throttle : SpeedThrottle) time, kept throttle →
      kept { throttle with lastWarning := time })
    (before : kept throttle) (memory : PageMemory) (progress : Option ProgressSnapshot)
    (now : Nat) : kept (throttle.warn memory progress now).2 := by
  have checked : kept (WarningCheck.run now throttle).2 := by
    let first := WarningCheck.step now throttle .start
    let second := WarningCheck.step now first.2 first.1
    let third := WarningCheck.step now second.2 second.1
    have looked : kept first.2 := kept_step marks warned now before .start
    have timed : kept second.2 := kept_step marks warned now looked first.1
    have weighed : kept third.2 := kept_step marks warned now timed second.1
    have claimed := kept_step marks warned now weighed third.1
    simp only [WarningCheck.run]
    split <;> exact claimed
  simp only [warn]
  split
  · next found =>
      rw [found] at checked
      exact checked
  · next found =>
      rw [found] at checked
      exact writes _ _ (marks _ _ checked)

end SpeedThrottle

namespace Policy

theorem kept_decideSpeed {kept : SpeedThrottle → Prop} {throttle : SpeedThrottle}
    {memory : PageMemory} {progress : Option ProgressSnapshot} {inCheckpoint : Bool}
    {thread now : Nat}
    (marks : ∀ throttle now, kept throttle → kept (throttle.readMarkSpeed now).2)
    (writes : ∀ throttle now, kept throttle → kept (throttle.readWriteSpeed now).2)
    (warned : ∀ (throttle : SpeedThrottle) time, kept throttle →
      kept { throttle with lastWarning := time })
    (decided : kept (throttle.decide memory progress inCheckpoint thread now).2) :
    kept (decideSpeed throttle memory progress inCheckpoint thread now).2 := by
  simp only [decideSpeed]
  split
  · next found => rwa [found] at decided
  · next found =>
      rw [found] at decided
      split
      · exact decided
      · exact SpeedThrottle.kept_warn marks writes warned decided memory progress now

/-- What every step of a policy keeps. -/
structure Lasting (kept : Policy → Prop) : Prop where
  decide : ∀ policy memory progress inCheckpoint thread now, kept policy →
    kept (policy.decide memory progress inCheckpoint thread now).2
  complete : ∀ policy answer now, kept policy → kept (policy.complete answer now)
  begin : ∀ policy now, kept policy → kept (policy.begin now)
  finish : ∀ policy now, kept policy → kept (policy.finish now)
  relax : ∀ policy, kept policy → kept policy.relax

def settings : Policy → Float × Option Bool
  | speed throttle => (throttle.bufferFillThreshold, none)
  | ratio throttle => (throttle.bufferFillThreshold, some throttle.onlyInCheckpoint)

theorem settings_ofOptions {options : ThrottleOptions} {now : Nat} {policy : Policy}
    (chosen : ofOptions options now = some policy) :
    policy.settings.1 = options.bufferFillThreshold ∧
      (policy.settings.2 = some true ↔ options.policy = .checkpointBufferOnly) := by
  unfold ofOptions at chosen
  cases kind : options.policy <;> rw [kind] at chosen <;> cases chosen <;>
    simp [settings, RatioThrottle.new, SpeedThrottle.new]

theorem bufferOverflows_eq (policy : Policy) (memory : PageMemory) :
    policy.bufferOverflows memory = memory.bufferOverflows policy.settings.1 := by
  cases policy <;> rfl

theorem settings_decide (policy : Policy) (memory : PageMemory)
    (progress : Option ProgressSnapshot) (inCheckpoint : Bool) (thread now : Nat) :
    (policy.decide memory progress inCheckpoint thread now).2.settings = policy.settings := by
  cases policy with
  | speed throttle =>
      have decided :
          (throttle.decide memory progress inCheckpoint thread now).2.bufferFillThreshold =
            throttle.bufferFillThreshold := by
        cases full : inCheckpoint && throttle.bufferOverflows memory with
        | true => rw [SpeedThrottle.decide_of_full full]
        | false => rw [SpeedThrottle.decide_of_room full]
      let kept (after : SpeedThrottle) : Prop :=
        after.bufferFillThreshold = throttle.bufferFillThreshold
      have same : kept (decideSpeed throttle memory progress inCheckpoint thread now).2 :=
        kept_decideSpeed (fun _ _ => id) (fun _ _ => id) (fun _ _ => id) decided
      exact congrArg (fun threshold => (threshold, none)) same
  | ratio throttle =>
      have withBackoff (backoff : Backoff) :
          (ratio (throttle.withBackoff inCheckpoint backoff)).settings =
            (ratio throttle).settings := by
        cases inCheckpoint <;> rfl
      simp only [decide, decideRatio]
      split
      · rfl
      · exact withBackoff _
      · exact withBackoff _

theorem lasting_settings (settings : Float × Option Bool) :
    Lasting fun policy => policy.settings = settings where
  decide policy memory progress inCheckpoint thread now :=
    (policy.settings_decide memory progress inCheckpoint thread now).trans
  complete policy answer now := by
    cases policy <;> cases answer <;> exact id
  begin policy now := by
    cases policy <;> exact id
  finish policy now := by
    cases policy <;> exact id
  relax policy := by
    cases policy <;> exact id

/-! ### Decisions -/

section Decisions

variable (policy : Policy) (memory : PageMemory) (progress : Option ProgressSnapshot)
  (inCheckpoint : Bool) (thread now : Nat)

theorem counts_of_park {park : Park}
    (parks : (policy.decide memory progress inCheckpoint thread now).1.park = some park) :
    let decided := policy.decide memory progress inCheckpoint thread now
    decided.2.counts decided.1 = true := by
  cases policy with
  | speed throttle =>
      simp only [decide, decideSpeed, counts] at parks ⊢
      split at parks
      · cases parks
      · split at parks
        · cases parks
        · simp [*]
  | ratio throttle =>
      let decided := decide (ratio throttle) memory progress inCheckpoint thread now
      have parked : decided.1.park.isSome = true := by rw [parks, Option.isSome_some]
      exact parked

theorem answer_of_counts :
    let decided := policy.decide memory progress inCheckpoint thread now
    decided.2.counts decided.1 = true → decided.1.answer ≠ .noThrottling := by
  cases policy with
  | speed throttle => exact of_decide_eq_true
  | ratio throttle =>
      simp only [decide, decideRatio, counts]
      split <;> simp

theorem answer_of_park {park : Park}
    (parks : (policy.decide memory progress inCheckpoint thread now).1.park = some park) :
    (policy.decide memory progress inCheckpoint thread now).1.answer ≠ .noThrottling :=
  policy.answer_of_counts memory progress inCheckpoint thread now
    (policy.counts_of_park memory progress inCheckpoint thread now parks)

end Decisions

end Policy

namespace Writers

variable (writers : Writers)

/-- Parked writers go on one after another, each by being completed. -/
theorem settle_induction (kept : Writers → Prop) {writers : Writers}
    (left : kept { writers with parked := writers.parked.filter (!·.canRun writers.clock) })
    (complete : ∀ writers answer since, kept writers → kept (writers.complete answer since)) :
    kept writers.settle.1 :=
  List.foldlRecOn _ _ left fun writers held sleeper _ =>
    complete writers sleeper.task.answer sleeper.task.since held

/-! ### Lasting properties along a run -/

section Lasting

variable {kept : Policy → Prop} (lasting : Policy.Lasting kept) {writers : Writers}
include lasting

theorem kept_decide (before : kept writers.policy) (inCheckpoint : Bool) (thread : Nat) :
    kept (writers.decide inCheckpoint thread).2.policy := by
  simp only [decide]
  split <;> exact lasting.decide _ _ _ _ _ _ before

theorem kept_mark (before : kept writers.policy) (inCheckpoint : Bool) :
    kept (writers.mark inCheckpoint).2.policy := by
  have decided := kept_decide lasting before inCheckpoint mainThread
  simp only [mark]
  split
  · exact lasting.complete _ _ _ decided
  · exact decided

theorem kept_markMany (before : kept writers.policy) (inCheckpoint : Bool) (count : Nat)
    (last : Option ParkTime) : kept (markMany inCheckpoint count last writers).2.policy := by
  induction count generalizing last writers with
  | zero => exact before
  | succ count ih => exact ih (kept_mark lasting before inCheckpoint) _

theorem kept_startMark (before : kept writers.policy) (inCheckpoint : Bool) :
    kept (writers.startMark inCheckpoint).1.policy := by
  have decided := kept_decide lasting before inCheckpoint (mainThread + 1 + writers.started)
  simp only [startMark]
  split
  · split
    · exact lasting.complete _ _ _ decided
    · exact decided
  · exact decided

theorem kept_serve (before : kept writers.policy) (request : Request) :
    kept (writers.serve request).2.policy := by
  cases request with
  | setMemory | progress | advance => exact before
  | mark inCheckpoint => exact kept_mark lasting before inCheckpoint
  | markMany inCheckpoint count => exact kept_markMany lasting before inCheckpoint count none
  | startMark inCheckpoint => exact kept_startMark lasting before inCheckpoint
  | beginCheckpoint => exact lasting.begin _ _ before
  | finishCheckpoint => exact lasting.finish _ _ before
  | wakeIfRelaxed =>
      simp only [serve, wakeIfRelaxed]
      split
      · exact before
      · exact lasting.relax _ before

theorem kept_settle (before : kept writers.policy) : kept writers.settle.1.policy :=
  settle_induction (fun writers => kept writers.policy) before
    fun _ _ _ held => lasting.complete _ _ _ held

theorem kept_run {policy : Policy} (before : kept policy) (memory : PageMemory)
    (metrics : Option Metrics) (clock : Nat) (requests : List Request) :
    kept ((new policy memory metrics clock).run requests).policy := by
  induction requests using List.reverseRecOn with
  | nil => exact before
  | append_singleton requests request ih =>
      rw [run_concat]
      exact kept_settle lasting (kept_serve lasting ih request)

end Lasting

/-! ### What stands whatever is decided -/

structure Standing where
  progress : CheckpointProgress
  started : Nat
  tasks : List (Nat × ParkedWriter)

def standing (writers : Writers) : Standing :=
  { progress := writers.progress
    started := writers.started
    tasks := writers.parked.map fun sleeper => (sleeper.number, sleeper.task) }

def parking (writers : Writers) : Request → List (Nat × ParkedWriter)
  | .startMark inCheckpoint =>
    let decision := (writers.decide inCheckpoint (mainThread + 1 + writers.started)).1
    (decision.park.map fun park =>
      (writers.started,
        { answer := decision.answer, since := writers.now, registered := park.registered })).toList
  | _ => []

def Standing.after (standing : Standing) (parked : List (Nat × ParkedWriter)) : Request → Standing
  | .progress event => { standing with progress := standing.progress.after event }
  | .startMark _ =>
    { standing with started := standing.started + 1, tasks := standing.tasks ++ parked }
  | _ => standing

theorem wakeAll_standing : writers.wakeAll.standing = writers.standing :=
  congrArg (Standing.mk writers.progress writers.started) List.map_map

theorem decide_standing (inCheckpoint : Bool) (thread : Nat) :
    (writers.decide inCheckpoint thread).2.standing = writers.standing := by
  simp only [decide]
  split
  · exact wakeAll_standing _
  · rfl

theorem mark_standing (inCheckpoint : Bool) :
    (writers.mark inCheckpoint).2.standing = writers.standing := by
  have decided := writers.decide_standing inCheckpoint mainThread
  simp only [mark]
  split <;> exact decided

theorem markMany_standing (inCheckpoint : Bool) (count : Nat) (last : Option ParkTime) :
    (markMany inCheckpoint count last writers).2.standing = writers.standing := by
  induction count generalizing last writers with
  | zero => rfl
  | succ count ih => exact (ih _ _).trans (writers.mark_standing inCheckpoint)

theorem startMark_standing (inCheckpoint : Bool) :
    (writers.startMark inCheckpoint).1.standing =
      writers.standing.after (writers.parking (.startMark inCheckpoint))
        (.startMark inCheckpoint) := by
  have decided := writers.decide_standing inCheckpoint (mainThread + 1 + writers.started)
  have tracker := congrArg Standing.progress decided
  have tasks := congrArg Standing.tasks decided
  simp only [startMark, parking]
  split
  · next stays =>
      have nobody := tasks.trans (List.append_nil _).symm
      rw [stays]
      split <;> exact congrArg₂ (Standing.mk · (writers.started + 1) ·) tracker nobody
  · next park parks =>
      rw [parks]
      exact congrArg₂ (Standing.mk · (writers.started + 1) ·) tracker
        (List.map_append.trans (congrArg (· ++ _) tasks))

theorem serve_standing (request : Request) :
    (writers.serve request).2.standing =
      writers.standing.after (writers.parking request) request := by
  cases request with
  | startMark inCheckpoint => exact writers.startMark_standing inCheckpoint
  | setMemory | progress | advance | beginCheckpoint => rfl
  | mark inCheckpoint => exact writers.mark_standing inCheckpoint
  | markMany inCheckpoint count => exact writers.markMany_standing inCheckpoint count none
  | finishCheckpoint => exact wakeAll_standing _
  | wakeIfRelaxed =>
      simp only [serve, wakeIfRelaxed]
      split
      · rfl
      · exact wakeAll_standing _

theorem settle_standing :
    writers.settle.1.standing =
      { writers.standing with
        tasks := (writers.parked.filter (!·.canRun writers.clock)).map fun sleeper =>
          (sleeper.number, sleeper.task) } := by
  let left := { writers with parked := writers.parked.filter (!·.canRun writers.clock) }
  exact settle_induction (fun writers => writers.standing = left.standing) rfl
    fun _ _ _ same => same

def eventsIn (requests : List Request) : List CheckpointProgress.Event :=
  requests.filterMap fun request => match request with
    | .progress event => some event
    | _ => none

theorem run_progress (policy : Policy) (memory : PageMemory) (metrics : Option Metrics)
    (clock : Nat) (requests : List Request) :
    ((new policy memory metrics clock).run requests).progress =
      (eventsIn requests).foldl .after .idle := by
  induction requests using List.reverseRecOn with
  | nil => rfl
  | append_singleton requests request ih =>
      let before := (new policy memory metrics clock).run requests
      have settled := congrArg Standing.progress (settle_standing (before.serve request).2)
      have served := congrArg Standing.progress (before.serve_standing request)
      rw [run_concat, eventsIn, List.filterMap_append, List.foldl_append, ← eventsIn, ← ih]
      refine (settled.trans served).trans ?_
      cases request <;> rfl

end Writers

end Durability
