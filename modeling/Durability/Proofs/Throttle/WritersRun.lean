import Durability.Throttle.Writers
import Mathlib.Data.List.Induction

/-! What background writers go through under a policy. A policy stays the kind it is, and its kind
decides how its writers park: in the registry, where they can be woken, or else asleep. Only the
throttle by dirty ratio lets writers sleep, and only those that mark pages outside the
checkpoint. -/

namespace Durability

namespace Policy

def registersAll : Policy → Bool
  | speed _ => true
  | ratio throttle => throttle.onlyInCheckpoint

theorem registersAll_ofOptions {options : ThrottleOptions} {now : Nat} {policy : Policy}
    (chosen : ofOptions options now = some policy) (other : options.policy ≠ .targetRatio) :
    policy.registersAll = true := by
  unfold ofOptions at chosen
  cases kind : options.policy with
  | disabled =>
      rw [kind] at chosen
      cases chosen
  | targetRatio => exact absurd kind other
  | checkpointBufferOnly =>
      rw [kind] at chosen
      cases chosen
      rfl
  | speedBased =>
      rw [kind] at chosen
      cases chosen
      rfl

/-! ### What a policy keeps -/

theorem withBackoff_onlyInCheckpoint (throttle : RatioThrottle) (inCheckpoint : Bool)
    (backoff : Backoff) :
    (throttle.withBackoff inCheckpoint backoff).onlyInCheckpoint = throttle.onlyInCheckpoint := by
  unfold RatioThrottle.withBackoff
  split <;> rfl

variable (policy : Policy)

theorem registersAll_decide (memory : PageMemory) (progress : Option ProgressSnapshot)
    (inCheckpoint : Bool) (thread now : Nat) :
    (policy.decide memory progress inCheckpoint thread now).2.registersAll =
      policy.registersAll := by
  cases policy with
  | speed throttle => rfl
  | ratio throttle =>
      simp only [decide, registersAll, decideRatio]
      split
      · rfl
      · exact withBackoff_onlyInCheckpoint _ _ _
      · exact withBackoff_onlyInCheckpoint _ _ _

theorem registersAll_complete (answer : ParkTime) (now : Nat) :
    (policy.complete answer now).registersAll = policy.registersAll := by
  cases policy <;> cases answer <;> rfl

theorem registersAll_begin (now : Nat) : (policy.begin now).registersAll = policy.registersAll := by
  cases policy <;> rfl

theorem registersAll_finish (now : Nat) :
    (policy.finish now).registersAll = policy.registersAll := by
  cases policy <;> rfl

theorem registersAll_relax : policy.relax.registersAll = policy.registersAll := by
  cases policy <;> rfl

theorem unregistered_decide {memory : PageMemory} {progress : Option ProgressSnapshot}
    {inCheckpoint : Bool} {thread now : Nat} {park : Park}
    (parks : (policy.decide memory progress inCheckpoint thread now).1.park = some park)
    (sleeps : park.registered = false) : policy.registersAll = false ∧ inCheckpoint = false := by
  cases policy with
  | speed throttle =>
      simp only [decide, decideSpeed] at parks
      split at parks
      · cases parks
      · split at parks
        · cases parks
        · cases parks
          cases sleeps
  | ratio throttle =>
      simp only [decide, decideRatio] at parks
      split at parks
      · cases parks
      · cases parks
      · next exceeds =>
          cases parks
          have outside : inCheckpoint = false := sleeps
          refine ⟨?_, outside⟩
          -- A throttle for pages in the checkpoint alone would not have had the writer park.
          cases only : throttle.onlyInCheckpoint with
          | false => exact only
          | true => simp [RatioThrottle.exceeds?, outside, only] at exceeds

end Policy

namespace Writers

def run (writers : Writers) (requests : List Request) : Writers :=
  requests.foldl (fun writers request => (writers.handle request).2) writers

theorem run_concat (writers : Writers) (requests : List Request) (request : Request) :
    writers.run (requests ++ [request]) = ((writers.run requests).handle request).2 := by
  rw [run, List.foldl_append]
  rfl

def startedIn (requests : List Request) : List Bool :=
  requests.filterMap fun request => match request with
    | .startMark inCheckpoint => some inCheckpoint
    | _ => none

/-- Parked writers sleep to some time at the latest. Those that are not in the registry mark pages
outside the checkpoint, under a policy that lets writers sleep; `starts` tells what each writer
that was started marks. -/
structure Attended (registersAll : Bool) (starts : List Bool) (writers : Writers) : Prop where
  policy : writers.policy.registersAll = registersAll
  started : writers.started = starts.length
  deadline : ∀ sleeper ∈ writers.parked, sleeper.deadline.isSome
  unregistered : ∀ sleeper ∈ writers.parked, sleeper.task.registered = false →
    registersAll = false ∧ starts[sleeper.number]? = some false

variable {registersAll : Bool} {starts : List Bool} {writers : Writers}

theorem Attended.congr {other : Writers} (attended : Attended registersAll starts writers)
    (policy : other.policy.registersAll = writers.policy.registersAll)
    (started : other.started = writers.started)
    (parked : ∀ sleeper ∈ other.parked, sleeper ∈ writers.parked) :
    Attended registersAll starts other :=
  ⟨policy.trans attended.policy, started.trans attended.started,
    fun sleeper member => attended.deadline sleeper (parked sleeper member),
    fun sleeper member => attended.unregistered sleeper (parked sleeper member)⟩

theorem Attended.wakeAll (attended : Attended registersAll starts writers) :
    Attended registersAll starts writers.wakeAll := by
  refine ⟨attended.policy, attended.started, ?_, ?_⟩
  · intro sleeper member
    obtain ⟨before, there, rfl⟩ := List.mem_map.1 member
    exact attended.deadline before there
  · intro sleeper member
    obtain ⟨before, there, rfl⟩ := List.mem_map.1 member
    exact attended.unregistered before there

theorem Attended.decide (attended : Attended registersAll starts writers) (inCheckpoint : Bool)
    (thread : Nat) : Attended registersAll starts (writers.decide inCheckpoint thread).2 := by
  have decided (journal : List ThrottleNotice) : Attended registersAll starts
      { writers with
        policy := (writers.policy.decide writers.memory writers.progress.snapshot? inCheckpoint
          thread writers.now).2
        journal } :=
    attended.congr (writers.policy.registersAll_decide _ _ _ _ _) rfl fun _ member => member
  simp only [Writers.decide]
  split
  · exact (decided _).wakeAll
  · exact decided _

theorem Attended.complete (attended : Attended registersAll starts writers) (answer : ParkTime)
    (since : Nat) : Attended registersAll starts (writers.complete answer since) :=
  attended.congr (writers.policy.registersAll_complete _ _) rfl fun _ member => member

theorem Attended.mark (attended : Attended registersAll starts writers) (inCheckpoint : Bool) :
    Attended registersAll starts (writers.mark inCheckpoint).2 := by
  have decided := attended.decide inCheckpoint mainThread
  have later (clock : Nat) : Attended registersAll starts
      { (writers.decide inCheckpoint mainThread).2 with clock } :=
    decided.congr rfl rfl fun _ member => member
  simp only [Writers.mark]
  split
  · exact (later _).complete _ _
  · exact later _

theorem Attended.markMany (attended : Attended registersAll starts writers) (inCheckpoint : Bool)
    (count : Nat) (last : Option ParkTime) :
    Attended registersAll starts (markMany inCheckpoint count last writers).2 := by
  induction count generalizing last writers with
  | zero => exact attended
  | succ count ih => exact ih (attended.mark inCheckpoint) _

theorem Attended.startMark (attended : Attended registersAll starts writers)
    (inCheckpoint : Bool) :
    Attended registersAll (starts ++ [inCheckpoint]) (writers.startMark inCheckpoint).1 := by
  let thread := mainThread + 1 + writers.started
  have decided := attended.decide inCheckpoint thread
  have counted : Attended registersAll (starts ++ [inCheckpoint])
      { (writers.decide inCheckpoint thread).2 with started := writers.started + 1 } := by
    refine ⟨decided.policy, ?_, decided.deadline, ?_⟩
    · rw [List.length_append, ← attended.started]
      rfl
    · intro sleeper member sleeps
      obtain ⟨lets, outside⟩ := decided.unregistered sleeper member sleeps
      have known := (List.getElem?_eq_some_iff.1 outside).1
      rw [List.getElem?_append_left known]
      exact ⟨lets, outside⟩
  simp only [Writers.startMark]
  split
  · split
    · exact counted.complete _ _
    · exact counted
  · next park parks =>
      refine ⟨counted.policy, counted.started, ?_, ?_⟩
      · intro sleeper member
        rcases List.mem_append.1 member with old | new
        · exact counted.deadline sleeper old
        · cases List.mem_singleton.1 new
          rfl
      · intro sleeper member sleeps
        rcases List.mem_append.1 member with old | new
        · exact counted.unregistered sleeper old sleeps
        · cases List.mem_singleton.1 new
          obtain ⟨lets, outside⟩ := writers.policy.unregistered_decide parks sleeps
          refine ⟨attended.policy.symm.trans lets, ?_⟩
          rw [attended.started, List.getElem?_concat_length, outside]

theorem Attended.serve (attended : Attended registersAll starts writers) (request : Request) :
    Attended registersAll (starts ++ startedIn [request]) (writers.serve request).2 := by
  -- No other request starts a writer in the background.
  have others {after : Writers} (kept : Attended registersAll starts after) :
      Attended registersAll (starts ++ []) after := (List.append_nil starts).symm ▸ kept
  cases request with
  | startMark inCheckpoint => exact attended.startMark inCheckpoint
  | mark inCheckpoint => exact others (attended.mark inCheckpoint)
  | markMany inCheckpoint count => exact others (attended.markMany inCheckpoint count none)
  | setMemory | progress | advance => exact others (attended.congr rfl rfl fun _ member => member)
  | beginCheckpoint =>
      exact others (attended.congr (writers.policy.registersAll_begin _) rfl fun _ member => member)
  | finishCheckpoint =>
      have finished : Attended registersAll starts
          { writers with policy := writers.policy.finish writers.now } :=
        attended.congr (writers.policy.registersAll_finish _) rfl fun _ member => member
      exact others finished.wakeAll
  | wakeIfRelaxed =>
      have relaxed : Attended registersAll starts
          { writers with policy := writers.policy.relax } :=
        attended.congr writers.policy.registersAll_relax rfl fun _ member => member
      refine others ?_
      simp only [Writers.serve, wakeIfRelaxed]
      split
      · exact attended
      · exact relaxed.wakeAll

/-! ### The parked writers go on -/

theorem foldl_complete (ready : List (Sleeper ParkedWriter)) (writers : Writers) :
    let after := ready.foldl (fun writers sleeper =>
      writers.complete sleeper.task.answer sleeper.task.since) writers
    after.parked = writers.parked ∧ after.clock = writers.clock ∧
      after.started = writers.started ∧
        after.policy.registersAll = writers.policy.registersAll := by
  induction ready generalizing writers with
  | nil => exact ⟨rfl, rfl, rfl, rfl⟩
  | cons sleeper ready ih =>
      obtain ⟨parked, clock, started, policy⟩ :=
        ih (writers.complete sleeper.task.answer sleeper.task.since)
      exact ⟨parked, clock, started, policy.trans (writers.policy.registersAll_complete _ _)⟩

theorem settle_parked (writers : Writers) :
    writers.settle.1.parked = writers.parked.filter (!·.canRun writers.clock) :=
  (foldl_complete _ _).1

theorem settle_clock (writers : Writers) : writers.settle.1.clock = writers.clock :=
  (foldl_complete _ _).2.1

theorem Attended.settle (attended : Attended registersAll starts writers) :
    Attended registersAll starts writers.settle.1 := by
  obtain ⟨parked, -, started, policy⟩ :=
    foldl_complete (writers.parked.filter (·.canRun writers.clock))
      { writers with parked := writers.parked.filter (!·.canRun writers.clock) }
  refine attended.congr policy started fun sleeper member => ?_
  rw [settle_parked] at member
  exact (List.mem_filter.1 member).1

theorem settle_blocked {sleeper : Sleeper ParkedWriter}
    (member : sleeper ∈ writers.settle.1.parked) :
    sleeper.canRun writers.settle.1.clock = false := by
  rw [settle_parked] at member
  rw [settle_clock]
  simpa using (List.mem_filter.1 member).2

theorem attended_run (policy : Policy) (memory : PageMemory) (metrics : Option Metrics)
    (clock : Nat) (requests : List Request) :
    Attended policy.registersAll (startedIn requests)
      ((new policy memory metrics clock).run requests) := by
  induction requests using List.reverseRecOn with
  | nil => exact ⟨rfl, rfl, nofun, nofun⟩
  | append_singleton requests request ih =>
      rw [run_concat, startedIn, List.filterMap_append]
      exact (ih.serve request).settle

theorem run_blocked (policy : Policy) (memory : PageMemory) (metrics : Option Metrics)
    (clock : Nat) (requests : List Request) {sleeper : Sleeper ParkedWriter}
    (member : sleeper ∈ ((new policy memory metrics clock).run requests).parked) :
    sleeper.canRun ((new policy memory metrics clock).run requests).clock = false := by
  induction requests using List.reverseRecOn with
  | nil => exact nomatch member
  | append_singleton requests request _ =>
      rw [run_concat] at member ⊢
      exact settle_blocked member

end Writers

end Durability
