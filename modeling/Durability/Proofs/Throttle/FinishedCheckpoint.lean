import Durability.Proofs.Throttle.WritersRun

/-! Who goes on when a checkpoint ends. Every writer parked in the registry does, and under the
speed-based throttle and the one for pages in the checkpoint alone nobody is left. Under the
throttle by dirty ratio a writer that marks a page outside the checkpoint sleeps where nothing
wakes it, and is left until its time has come. -/

namespace Durability.Writers

theorem filter_wakeIf {clock : Nat} {parked : List (Sleeper ParkedWriter)}
    (blocked : ∀ sleeper ∈ parked, sleeper.canRun clock = false) :
    (parked.map (·.wakeIf (·.registered))).filter (!·.canRun clock) =
      parked.filter (!·.task.registered) := by
  induction parked with
  | nil => rfl
  | cons sleeper parked ih =>
      have rest := ih fun other member => blocked other (List.mem_cons_of_mem _ member)
      rw [List.map_cons, List.filter_cons, List.filter_cons, rest]
      cases registered : sleeper.task.registered with
      | true => simp [Sleeper.wakeIf, Sleeper.canRun, registered]
      | false =>
          have same : sleeper.wakeIf (·.registered) = sleeper := by
            simp [Sleeper.wakeIf, registered]
          simp [same, blocked sleeper List.mem_cons_self]

/-- After a run under the policy of some options, the end of a checkpoint lets every writer go on
that is parked in the registry, with the answer it was given. That is every writer unless the
policy is the one by dirty ratio. Under that one, whoever is left marks a page outside the
checkpoint and sleeps to a later time. -/
theorem finishCheckpoint_wakes {options : ThrottleOptions} {now : Nat} {policy : Policy}
    (chosen : Policy.ofOptions options now = some policy) (memory : PageMemory)
    (metrics : Option Metrics) (clock : Nat) (requests : List Request) :
    let before := (new policy memory metrics clock).run requests
    let after := before.handle .finishCheckpoint
    after.2.parked = before.parked.filter (!·.task.registered) ∧
      (∀ sleeper ∈ before.parked, sleeper.task.registered = true →
        (sleeper.number, sleeper.task.answer) ∈ after.1.finished) ∧
      (options.policy ≠ .targetRatio → after.2.parked = []) ∧
      ∀ sleeper ∈ after.2.parked, (startedIn requests)[sleeper.number]? = some false ∧
        ∃ deadline, sleeper.deadline = some deadline ∧ after.2.clock < deadline := by
  intro before after
  have attended : Attended policy.registersAll (startedIn requests) before :=
    attended_run policy memory metrics clock requests
  have blocked : ∀ sleeper ∈ before.parked, sleeper.canRun before.clock = false :=
    fun sleeper member => run_blocked policy memory metrics clock requests member
  have left : after.2.parked = before.parked.filter (!·.task.registered) :=
    (settle_parked before.finishCheckpoint).trans (filter_wakeIf blocked)
  refine ⟨left, ?_, ?_, ?_⟩
  · intro sleeper member registered
    let woken := sleeper.wakeIf (·.registered)
    have ready : woken ∈ before.finishCheckpoint.parked.filter
        (·.canRun before.finishCheckpoint.clock) := by
      refine List.mem_filter.2 ⟨List.mem_map_of_mem member, ?_⟩
      simp [woken, Sleeper.wakeIf, Sleeper.canRun, registered]
    refine List.mem_mergeSort.2 ?_
    exact List.mem_map.2 ⟨woken, ready, rfl⟩
  · intro other
    rw [left, List.filter_eq_nil_iff]
    intro sleeper member sleeps
    have unregistered : sleeper.task.registered = false := by simpa using sleeps
    have lets := (attended.unregistered sleeper member unregistered).1
    rw [Policy.registersAll_ofOptions chosen other] at lets
    cases lets
  · intro sleeper member
    rw [left] at member
    obtain ⟨there, sleeps⟩ := List.mem_filter.1 member
    have unregistered : sleeper.task.registered = false := by simpa using sleeps
    refine ⟨(attended.unregistered sleeper there unregistered).2, ?_⟩
    obtain ⟨deadline, known⟩ := Option.isSome_iff_exists.1 (attended.deadline sleeper there)
    refine ⟨deadline, known, ?_⟩
    have same : after.2.clock = before.clock := settle_clock before.finishCheckpoint
    have sleeping := blocked sleeper there
    rw [Sleeper.canRun, known, Bool.or_eq_false_iff] at sleeping
    rw [same]
    exact Nat.not_le.1 (of_decide_eq_false sleeping.2)

def throttledBy (policy : ThrottlingPolicy) : ThrottleOptions :=
  { ThrottleOptions.default with policy }

def crowdedMemory : PageMemory :=
  { bufferCount := 290, bufferSize := 300, totalPages := 1000, dirtyRatio := 0.9 }

def writingCheckpoint (inCheckpoint : Bool) : List Request :=
  [.progress (.start 100), .progress .startWriting, .startMark inCheckpoint]

/-- Under the throttle by dirty ratio a writer outside the checkpoint is parked still when that
has ended. -/
theorem finishCheckpoint_leaves_sleeper :
    let throttle : Policy := .ratio (.new false (throttledBy .targetRatio))
    let before := (new throttle crowdedMemory none 0).run
      (writingCheckpoint false ++ [.progress .finish])
    Policy.ofOptions (throttledBy .targetRatio) 0 = some throttle ∧
      (before.handle .finishCheckpoint).2.parked.map (fun sleeper =>
        (sleeper.number, sleeper.task.answer)) = [(0, .measured 4000)] :=
  ⟨rfl, by decide +kernel⟩

theorem finishCheckpoint_wakes_inCheckpoint :
    let throttle : Policy := .ratio (.new true (throttledBy .checkpointBufferOnly))
    let before := (new throttle crowdedMemory none 0).run (writingCheckpoint true)
    let after := before.handle .finishCheckpoint
    (0, ParkTime.measured 4000) ∈ after.1.finished ∧ after.2.parked = [] := by
  intro throttle before after
  obtain ⟨-, wakes, nobody, -⟩ :=
    @finishCheckpoint_wakes (throttledBy .checkpointBufferOnly) 0 throttle rfl crowdedMemory none 0
      (writingCheckpoint true)
  let task : ParkedWriter := { answer := .measured 4000, since := 0, registered := true }
  have parked : before.parked.map (fun sleeper => (sleeper.number, sleeper.task)) =
      [(0, task)] := by decide +kernel
  have there : (0, task) ∈ before.parked.map fun sleeper => (sleeper.number, sleeper.task) := by
    rw [parked]
    exact List.mem_cons_self
  obtain ⟨sleeper, member, same⟩ := List.mem_map.1 there
  obtain ⟨number, own⟩ := Prod.mk.inj same
  have answered := wakes sleeper member (by rw [own])
  rw [number, own] at answered
  exact ⟨answered, nobody nofun⟩

end Durability.Writers
