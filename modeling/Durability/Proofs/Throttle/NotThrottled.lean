import Durability.Proofs.Throttle.PolicyRun

/-! When throttling does not apply. A writer is then told so at once, and the call leaves nothing
behind but a backoff that starts anew: no time passes, nothing is counted, nobody is woken. Apart
from a checkpoint buffer that is too full, it depends on the events of the checkpoint alone:
whether the last of them that begins or ends a checkpoint begins one, which has started to write
since. Writing that was announced before does not count, and a checkpoint that begins while another
one runs has yet to start. -/

namespace Durability

namespace CheckpointProgress

def Event.bounds : Event → Bool
  | .start _ | .finish => true
  | _ => false

/-- A checkpoint has begun, and since then none has begun or ended. -/
def Runs (events : List Event) : Prop :=
  ∃ before total since, events = before ++ .start total :: since ∧
    ∀ event ∈ since, event.bounds = false

/-- The checkpoint that runs has started to write. -/
def Writes (events : List Event) : Prop :=
  ∃ before total between since,
    events = before ++ .start total :: (between ++ .startWriting :: since) ∧
      ∀ event ∈ between ++ since, event.bounds = false

variable {events : List Event} {event : Event}

theorem concat_eq_append_cons {before since : List Event} {first : Event}
    (split : events ++ [event] = before ++ first :: since) :
    (since = [] ∧ events = before ∧ event = first) ∨
      ∃ others, since = others ++ [event] ∧ events = before ++ first :: others := by
  rcases since.eq_nil_or_concat with rfl | ⟨others, last, rfl⟩
  · obtain ⟨same, single⟩ := List.append_inj' split rfl
    exact Or.inl ⟨rfl, same, List.singleton_inj.1 single⟩
  · rw [List.concat_eq_append, ← List.cons_append, ← List.append_assoc] at split
    obtain ⟨same, single⟩ := List.append_inj' split rfl
    cases single
    exact Or.inr ⟨others, List.concat_eq_append, same⟩

theorem runs_concat_start (total : Nat) : Runs (events ++ [.start total]) :=
  ⟨events, total, [], rfl, nofun⟩

theorem not_runs_concat_finish : ¬ Runs (events ++ [.finish]) := by
  rintro ⟨before, total, since, split, plain⟩
  rcases concat_eq_append_cons split with ⟨-, -, same⟩ | ⟨others, rfl, -⟩
  · cases same
  · exact absurd (plain .finish (by simp)) (by decide)

theorem runs_concat_iff (inside : event.bounds = false) :
    Runs (events ++ [event]) ↔ Runs events := by
  constructor
  · rintro ⟨before, total, since, split, plain⟩
    rcases concat_eq_append_cons split with ⟨-, -, rfl⟩ | ⟨others, rfl, rfl⟩
    · cases inside
    · exact ⟨before, total, others, rfl, fun other member => plain other (by simp [member])⟩
  · rintro ⟨before, total, since, rfl, plain⟩
    refine ⟨before, total, since ++ [event], by simp, ?_⟩
    intro other member
    rcases List.mem_append.1 member with old | new
    · exact plain other old
    · rwa [List.mem_singleton.1 new]

theorem running_iff (events : List Event) :
    (events.foldl .after idle).running = true ↔ Runs events := by
  induction events using List.reverseRecOn with
  | nil =>
      refine iff_of_false (by decide) ?_
      rintro ⟨before, total, since, split, -⟩
      simp at split
  | append_singleton events event ih =>
      rw [List.foldl_append]
      cases event with
      | start total => exact iff_of_true rfl (runs_concat_start total)
      | finish => exact iff_of_false nofun not_runs_concat_finish
      | startWriting | written | synced | evicted => exact ih.trans (runs_concat_iff rfl).symm

theorem Writes.runs (writes : Writes events) : Runs events := by
  obtain ⟨before, total, between, since, rfl, plain⟩ := writes
  refine ⟨before, total, _, rfl, ?_⟩
  intro event member
  rcases List.mem_append.1 member with earlier | later
  · exact plain event (List.mem_append_left _ earlier)
  · rcases List.mem_cons.1 later with rfl | later
    · rfl
    · exact plain event (List.mem_append_right _ later)

theorem writes_concat_cases (writes : Writes (events ++ [event])) :
    (event = .startWriting ∧ Runs events) ∨ (event.bounds = false ∧ Writes events) := by
  obtain ⟨before, total, between, since, split, plain⟩ := writes
  rw [← List.cons_append, ← List.append_assoc] at split
  rcases concat_eq_append_cons split with ⟨rfl, rfl, rfl⟩ | ⟨others, rfl, rfl⟩
  · exact Or.inl ⟨rfl, before, total, between, rfl,
      fun other member => plain other (by simp [member])⟩
  · refine Or.inr ⟨plain event (by simp), before, total, between, others, by simp, ?_⟩
    intro other member
    refine plain other ?_
    rw [← List.append_assoc]
    exact List.mem_append_left _ member

theorem writes_concat_startWriting : Writes (events ++ [.startWriting]) ↔ Runs events := by
  constructor
  · exact fun writes => (runs_concat_iff rfl).1 writes.runs
  · rintro ⟨before, total, since, rfl, plain⟩
    exact ⟨before, total, since, [], by simp, by simpa using plain⟩

theorem writes_concat_iff (inside : event.bounds = false) (other : event ≠ .startWriting) :
    Writes (events ++ [event]) ↔ Writes events := by
  constructor
  · intro writes
    rcases writes_concat_cases writes with ⟨same, -⟩ | ⟨-, writes⟩
    · exact absurd same other
    · exact writes
  · rintro ⟨before, total, between, since, rfl, plain⟩
    refine ⟨before, total, between, since ++ [event], by simp, ?_⟩
    intro member among
    rw [← List.append_assoc] at among
    rcases List.mem_append.1 among with old | new
    · exact plain member old
    · rwa [List.mem_singleton.1 new]

theorem not_writes_concat (bounds : event.bounds = true) : ¬ Writes (events ++ [event]) := by
  intro writes
  rcases writes_concat_cases writes with ⟨rfl, -⟩ | ⟨inside, -⟩
  · cases bounds
  · rw [inside] at bounds
    cases bounds

/-- The tracker's two flags together say that the running checkpoint has started to write. -/
theorem writing_iff (events : List Event) :
    (events.foldl .after idle).running = true ∧ (events.foldl .after idle).writing = true ↔
      Writes events := by
  induction events using List.reverseRecOn with
  | nil =>
      refine iff_of_false (by decide) ?_
      rintro ⟨before, total, between, since, split, -⟩
      simp at split
  | append_singleton events event ih =>
      have running := running_iff events
      rw [List.foldl_append]
      cases event with
      | start total => exact iff_of_false (fun both => nomatch both.2) (not_writes_concat rfl)
      | finish => exact iff_of_false (fun both => nomatch both.2) (not_writes_concat rfl)
      | startWriting =>
          rw [writes_concat_startWriting, ← running]
          exact and_iff_left rfl
      | written pages | synced pages | evicted pages =>
          refine ih.trans (writes_concat_iff rfl ?_).symm
          nofun

theorem snapshot?_written (progress : CheckpointProgress) :
    progress.snapshot?.bind (·.written) = none ↔
      ¬ (progress.running = true ∧ progress.writing = true) := by
  unfold snapshot?
  cases progress.running <;> cases progress.writing <;> simp

end CheckpointProgress

/-! ### Decisions to which throttling does not apply -/

theorem CleanPages.protect_of_written (pages : CleanPages) (marks : Meter) (memory : PageMemory)
    {progress : Option ProgressSnapshot} (written : progress.bind (·.written) ≠ none)
    (thread now : Nat) :
    ∃ nanos, (pages.protect marks memory progress thread now).1 = .measured nanos := by
  cases progress with
  | none => exact absurd rfl written
  | some progress =>
      obtain ⟨pagesWritten, found⟩ := Option.ne_none_iff_exists'.1 written
      have present : progress.written = some pagesWritten := found
      exact ⟨_, congrArg Prod.fst (protect_of_writing pages marks memory present thread now)⟩

/-- The decision on a writer to which throttling does not apply. -/
def Decision.inapplicable : Decision :=
  { answer := .noThrottling, park := none, wakes := false, notices := [] }

namespace Policy

/-- What such a decision leaves of the policy: under the speed-based throttle a page in the
checkpoint has the backoff of the buffer start anew, and that is all. -/
def passed (inCheckpoint : Bool) : Policy → Policy
  | speed throttle =>
    speed (if inCheckpoint then { throttle with bufferBackoff := throttle.bufferBackoff.reset }
      else throttle)
  | ratio throttle => ratio throttle

/-- Throttling does not apply while no checkpoint writes, unless the page is in the checkpoint and
the buffer is too full, or no other pages are throttled anyway. -/
def Inapplicable (policy : Policy) (memory : PageMemory) (progress : Option ProgressSnapshot)
    (inCheckpoint : Bool) : Prop :=
  ¬ (inCheckpoint = true ∧ policy.bufferOverflows memory = true) ∧
    policy.settings.2 ≠ some true ∧ progress.bind (·.written) = none

variable (policy : Policy) (memory : PageMemory) (progress : Option ProgressSnapshot)
  (inCheckpoint : Bool) (thread now : Nat)

theorem counts_inapplicable : policy.counts .inapplicable = false := by
  cases policy <;> rfl

theorem decide_of_inapplicable (idle : policy.Inapplicable memory progress inCheckpoint) :
    policy.decide memory progress inCheckpoint thread now =
      (.inapplicable, policy.passed inCheckpoint) := by
  obtain ⟨calm, others, unwritten⟩ := idle
  have fits : (inCheckpoint && policy.bufferOverflows memory) = false := by simpa using calm
  cases policy with
  | speed throttle =>
      have decided : throttle.decide memory progress inCheckpoint thread now =
          (.noThrottling, if inCheckpoint then
            { throttle with bufferBackoff := throttle.bufferBackoff.reset } else throttle) := by
        rw [SpeedThrottle.decide_of_room fits, CleanPages.protect_of_unwritten _ _ _ unwritten]
        cases inCheckpoint <;> rfl
      simp only [decide, decideSpeed, decided]
      rfl
  | ratio throttle =>
      have any : throttle.onlyInCheckpoint = false := by simpa [settings] using others
      have unknown : RatioThrottle.ratioExceeded? memory progress = none := by
        cases progress with
        | none => rfl
        | some progress =>
            have absent : progress.written = none := unwritten
            simp [RatioThrottle.ratioExceeded?, absent]
      have decided : throttle.exceeds? memory progress inCheckpoint = none := by
        simp only [RatioThrottle.exceeds?, any, unknown]
        rw [if_neg (Bool.not_eq_true _ ▸ fits)]
        rfl
      simp only [decide, decideRatio, decided]
      rfl

theorem answer_of_applicable (applies : ¬ policy.Inapplicable memory progress inCheckpoint) :
    (policy.decide memory progress inCheckpoint thread now).1.answer ≠ .noThrottling := by
  cases policy with
  | speed throttle =>
      have measured : ∃ nanos,
          (throttle.decide memory progress inCheckpoint thread now).1 = .measured nanos := by
        cases full : inCheckpoint && throttle.bufferOverflows memory with
        | true =>
            rw [SpeedThrottle.decide_of_full full]
            exact ⟨_, rfl⟩
        | false =>
            have written : progress.bind (·.written) ≠ none := by
              intro unwritten
              exact applies ⟨by simpa [bufferOverflows] using full, by simp [settings], unwritten⟩
            rw [SpeedThrottle.decide_of_room full]
            exact CleanPages.protect_of_written _ _ _ written thread now
      obtain ⟨nanos, found⟩ := measured
      simp only [decide, decideSpeed]
      split
      · next none => simp [none] at found
      · split <;> simp
  | ratio throttle =>
      have known : throttle.exceeds? memory progress inCheckpoint ≠ none := by
        intro unknown
        simp only [RatioThrottle.exceeds?] at unknown
        split at unknown
        · cases unknown
        · split at unknown
          · cases unknown
          · next calm any =>
              have others : throttle.onlyInCheckpoint = false := by simpa using any
              refine applies ⟨by simpa [bufferOverflows] using calm, by simp [settings, others], ?_⟩
              cases progress with
              | none => rfl
              | some progress =>
                  cases written : progress.written with
                  | none => exact written
                  | some pages => simp [RatioThrottle.ratioExceeded?, written] at unknown
      simp only [decide, decideRatio]
      split
      · next none => exact absurd none known
      · simp
      · simp

end Policy

/-! ### Writers to which throttling does not apply -/

namespace Writers

variable {writers : Writers} {inCheckpoint : Bool}

def Idle (writers : Writers) (inCheckpoint : Bool) : Prop :=
  writers.policy.Inapplicable writers.memory writers.progress.snapshot? inCheckpoint

theorem decide_of_idle (idle : writers.Idle inCheckpoint) (thread : Nat) :
    writers.decide inCheckpoint thread =
      (.inapplicable, { writers with policy := writers.policy.passed inCheckpoint }) := by
  have decided := writers.policy.decide_of_inapplicable writers.memory writers.progress.snapshot?
    inCheckpoint thread writers.now idle
  simp only [decide, decided]
  simp [Decision.inapplicable]

theorem decide_answer_iff (inCheckpoint : Bool) (thread : Nat) :
    (writers.decide inCheckpoint thread).1.answer = .noThrottling ↔
      writers.Idle inCheckpoint := by
  constructor
  · intro unthrottled
    by_contra applies
    exact writers.policy.answer_of_applicable _ _ _ thread writers.now applies unthrottled
  · intro idle
    rw [decide_of_idle idle]
    rfl

theorem mark_of_idle (idle : writers.Idle inCheckpoint) :
    writers.mark inCheckpoint =
      (.noThrottling, { writers with policy := writers.policy.passed inCheckpoint }) := by
  simp only [mark, decide_of_idle idle, Policy.counts_inapplicable]
  rfl

theorem startMark_of_idle (idle : writers.Idle inCheckpoint) :
    writers.startMark inCheckpoint =
      ({ writers with
         policy := writers.policy.passed inCheckpoint
         started := writers.started + 1 },
        [(writers.started, .noThrottling)]) := by
  simp only [startMark, decide_of_idle idle, Policy.counts_inapplicable]
  rfl

theorem startMark_finished_iff (inCheckpoint : Bool) :
    (writers.startMark inCheckpoint).2 = [(writers.started, .noThrottling)] ↔
      writers.Idle inCheckpoint := by
  constructor
  · intro finished
    refine (decide_answer_iff inCheckpoint (mainThread + 1 + writers.started)).1 ?_
    simp only [startMark] at finished
    split at finished
    · exact (Prod.mk.inj (List.singleton_inj.1 finished)).2
    · cases finished
  · intro idle
    rw [startMark_of_idle idle]

theorem tasks_run (policy : Policy) (memory : PageMemory) (metrics : Option Metrics) (clock : Nat)
    (requests : List Request) :
    ∀ task ∈ ((new policy memory metrics clock).run requests).standing.tasks,
      task.2.answer ≠ .noThrottling := by
  induction requests using List.reverseRecOn with
  | nil => exact nofun
  | append_singleton requests request ih =>
      let before := (new policy memory metrics clock).run requests
      intro task member
      have settled := congrArg (task ∈ ·.tasks) (settle_standing (before.serve request).2)
      rw [run_concat] at member
      have served : task ∈ (before.serve request).2.standing.tasks :=
        (List.filter_sublist.map _).subset (settled.mp member)
      rw [serve_standing] at served
      cases request with
      | startMark inCheckpoint =>
          rcases List.mem_append.1 served with old | new
          · exact ih task old
          · obtain ⟨park, parks, rfl⟩ := Option.map_eq_some_iff.1 (Option.mem_toList.1 new)
            exact Policy.answer_of_park _ _ _ _ _ _ parks
      | _ => exact ih task served

/-- Along any run of writers and checkpoints under the policy of some options, and between the
marks of one request as well, throttling does not apply to a writer just if these hold: the
options do not throttle pages in the checkpoint alone; the page is not in the checkpoint while the
buffer is too full; and no running checkpoint has started to write. Such a writer is told so at
once, and nobody else is told so, not even on going on after a park. What the call leaves behind
is a backoff that starts anew, under the speed-based throttle and for a page in the checkpoint. -/
theorem noThrottling_iff {options : ThrottleOptions} {now : Nat} {policy : Policy}
    (chosen : Policy.ofOptions options now = some policy) (memory : PageMemory)
    (metrics : Option Metrics) (clock : Nat) (requests : List Request) (marked : Bool)
    (count : Nat) (inCheckpoint : Bool) :
    let before := (markMany marked count none
      ((new policy memory metrics clock).run requests)).2
    let idle := options.policy ≠ .checkpointBufferOnly ∧
      ¬ (inCheckpoint = true ∧
        before.memory.bufferOverflows options.bufferFillThreshold = true) ∧
      ¬ CheckpointProgress.Writes (eventsIn requests)
    ((before.mark inCheckpoint).1 = .noThrottling ↔ idle) ∧
      ((before.startMark inCheckpoint).2 = [(before.started, .noThrottling)] ↔ idle) ∧
      (∀ sleeper ∈ before.parked, sleeper.task.answer ≠ .noThrottling) ∧
      (idle →
        (before.mark inCheckpoint).2 =
            { before with policy := before.policy.passed inCheckpoint } ∧
          (before.startMark inCheckpoint).1 =
            { before with
              policy := before.policy.passed inCheckpoint
              started := before.started + 1 }) := by
  intro before idle
  have settings : before.policy.settings = policy.settings :=
    kept_markMany (Policy.lasting_settings policy.settings)
      (kept_run (Policy.lasting_settings policy.settings) rfl memory metrics clock requests)
      marked count none
  obtain ⟨threshold, alone⟩ := Policy.settings_ofOptions chosen
  have standing : before.standing = ((new policy memory metrics clock).run requests).standing :=
    markMany_standing _ marked count none
  have progress : before.progress = (eventsIn requests).foldl .after .idle :=
    (congrArg Standing.progress standing).trans
      (run_progress policy memory metrics clock requests)
  have same : before.Idle inCheckpoint ↔ idle := by
    unfold Idle Policy.Inapplicable
    rw [Policy.bufferOverflows_eq, settings, threshold, CheckpointProgress.snapshot?_written,
      progress, CheckpointProgress.writing_iff, ne_eq, alone]
    exact ⟨fun ⟨calm, others, unwritten⟩ => ⟨others, calm, unwritten⟩,
      fun ⟨others, calm, unwritten⟩ => ⟨calm, others, unwritten⟩⟩
  refine ⟨?_, ?_, ?_, ?_⟩
  · exact (decide_answer_iff inCheckpoint mainThread).trans same
  · exact (startMark_finished_iff inCheckpoint).trans same
  · intro sleeper member
    have task : (sleeper.number, sleeper.task) ∈ before.standing.tasks :=
      List.mem_map_of_mem member
    rw [standing] at task
    exact tasks_run policy memory metrics clock requests _ task
  · intro held
    rw [mark_of_idle (same.2 held), startMark_of_idle (same.2 held)]
    exact ⟨rfl, rfl⟩

def calmMemory : PageMemory :=
  { bufferCount := 0, bufferSize := 300, totalPages := 1000, dirtyRatio := 0.0 }

theorem noThrottling_announced_early :
    let throttle : Policy := .speed (.new ThrottleOptions.default 0)
    let before := (markMany true 1 none ((new throttle calmMemory (some .zero) 0).run
      [.progress .startWriting, .progress (.start 100)])).2
    (before.mark true).1 = .noThrottling ∧
      (before.mark true).2 = { before with policy := before.policy.passed true } := by
  intro throttle before
  let requests : List Request := [.progress .startWriting, .progress (.start 100)]
  obtain ⟨own, -, -, leaves⟩ :=
    @noThrottling_iff ThrottleOptions.default 0 throttle rfl calmMemory (some .zero) 0 requests
      true 1 true
  have empty : before.memory.bufferCount = 0 := rfl
  have idle : ThrottleOptions.default.policy ≠ .checkpointBufferOnly ∧
      ¬ (true = true ∧
        before.memory.bufferOverflows ThrottleOptions.default.bufferFillThreshold = true) ∧
      ¬ CheckpointProgress.Writes (eventsIn requests) := by
    refine ⟨nofun, ?_, ?_⟩
    · simp [PageMemory.bufferOverflows, empty]
    · rw [← CheckpointProgress.writing_iff]
      decide
  exact ⟨own.2 idle, (leaves idle).1⟩

def Announced (events : List CheckpointProgress.Event) : Prop :=
  ∃ before total between since,
    events = before ++ .start total :: (between ++ .startWriting :: since) ∧
      .finish ∉ between ++ since

/-- A checkpoint that begins while another one writes has yet to start: throttling does not apply,
though a checkpoint announced that it writes and none has ended. -/
theorem begin_ends_writing :
    let options := { ThrottleOptions.default with policy := .targetRatio }
    let throttle : Policy := .ratio (.new false options)
    let requests : List Request :=
      [.progress (.start 100), .progress .startWriting, .progress (.start 100)]
    let before := (new throttle calmMemory (some .zero) 0).run requests
    Policy.ofOptions options 0 = some throttle ∧ Announced (eventsIn requests) ∧
      (before.mark false).1 = .noThrottling :=
  ⟨rfl, ⟨[], 100, [], [.start 100], rfl, by decide⟩, rfl⟩

end Writers

end Durability
