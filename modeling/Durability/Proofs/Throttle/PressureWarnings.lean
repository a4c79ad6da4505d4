import Durability.Throttle.Policy
import Mathlib.Data.List.Induction
import Mathlib.Data.List.Perm.Basic

/-! Warnings of pressure from writers on many threads. Whether to warn is found out in separate
steps: a writer looks up the time of the last warning, reads the clock, weighs the throttling and
sets the time of the last warning, unless another writer has set it since. Between any two of these
anything may happen. Still no two warnings come close upon each other: who sets the time has found
it as it was when the clock was read, so that the times set grow by more than the least delay. -/

namespace Durability

/-! ### The throttle between the steps -/

namespace SpeedThrottle

structure Agrees (throttle other : SpeedThrottle) : Prop where
  lastWarning : other.lastWarning = throttle.lastWarning
  bufferFillThreshold : other.bufferFillThreshold = throttle.bufferFillThreshold
  warnThreshold : other.warnThreshold = throttle.warnThreshold
  warnMinDelay : other.warnMinDelay = throttle.warnMinDelay

def moved (throttle : SpeedThrottle) (marks : Meter) (bufferBackoff : Backoff)
    (cleanPages : CleanPages) : SpeedThrottle :=
  { throttle with marks, bufferBackoff, cleanPages }

theorem agrees_refl (throttle : SpeedThrottle) : throttle.Agrees throttle := ⟨rfl, rfl, rfl, rfl⟩

theorem agrees_moved (throttle : SpeedThrottle) (marks : Meter) (bufferBackoff : Backoff)
    (cleanPages : CleanPages) : throttle.Agrees (throttle.moved marks bufferBackoff cleanPages) :=
  ⟨rfl, rfl, rfl, rfl⟩

theorem agrees_readMarkSpeed (throttle : SpeedThrottle) (now : Nat) :
    throttle.Agrees (throttle.readMarkSpeed now).2 := ⟨rfl, rfl, rfl, rfl⟩

theorem agrees_readWriteSpeed (throttle : SpeedThrottle) (now : Nat) :
    throttle.Agrees (throttle.readWriteSpeed now).2 := ⟨rfl, rfl, rfl, rfl⟩

theorem agrees_record (throttle : SpeedThrottle) (nanos now : Nat) :
    throttle.Agrees (throttle.record nanos now) := ⟨rfl, rfl, rfl, rfl⟩

theorem agrees_begin (throttle : SpeedThrottle) (now : Nat) :
    throttle.Agrees (throttle.begin now) := ⟨rfl, rfl, rfl, rfl⟩

theorem agrees_finish (throttle : SpeedThrottle) (now : Nat) :
    throttle.Agrees (throttle.finish now) := ⟨rfl, rfl, rfl, rfl⟩

theorem agrees_relax (throttle : SpeedThrottle) : throttle.Agrees throttle.relax :=
  ⟨rfl, rfl, rfl, rfl⟩

theorem agrees_readWeight (throttle : SpeedThrottle) (now : Nat) :
    throttle.Agrees (throttle.readWeight now).2 := by
  rw [readWeight_snd]
  exact agrees_readMarkSpeed throttle now

theorem agrees_readPressure (throttle : SpeedThrottle) (memory : PageMemory)
    (progress : Option ProgressSnapshot) (weight : Float) (now : Nat) :
    throttle.Agrees (throttle.readPressure memory progress weight now).2 := ⟨rfl, rfl, rfl, rfl⟩

theorem agrees_decide (throttle : SpeedThrottle) (memory : PageMemory)
    (progress : Option ProgressSnapshot) (inCheckpoint : Bool) (thread now : Nat) :
    throttle.Agrees (throttle.decide memory progress inCheckpoint thread now).2 := by
  cases full : inCheckpoint && throttle.bufferOverflows memory with
  | true =>
      rw [decide_of_full full]
      exact ⟨rfl, rfl, rfl, rfl⟩
  | false =>
      rw [decide_of_room full]
      exact ⟨rfl, rfl, rfl, rfl⟩

end SpeedThrottle

namespace WarningCheck

theorem step_start (clock : Nat) (throttle : SpeedThrottle) :
    step clock throttle .start = (.timing throttle.lastWarning, throttle) := rfl

theorem step_done (clock : Nat) (throttle : SpeedThrottle) (due : Option (Nat × Float)) :
    step clock throttle (.done due) = (.done due, throttle) := rfl

variable {throttle : SpeedThrottle} {clock previous now : Nat}

theorem step_timing_soon (soon : previous ≠ 0 ∧ clock - previous ≤ throttle.warnMinDelay) :
    step clock throttle (.timing previous) = (.done none, throttle) := if_pos soon

theorem step_timing_late (late : ¬(previous ≠ 0 ∧ clock - previous ≤ throttle.warnMinDelay)) :
    step clock throttle (.timing previous) = (.weighing previous clock, throttle) := if_neg late

theorem step_weighing_light (light : (throttle.readWeight clock).1 ≤ throttle.warnThreshold) :
    step clock throttle (.weighing previous now) = (.done none, (throttle.readWeight clock).2) := by
  simp only [step, (throttle.agrees_readWeight clock).warnThreshold, if_pos light]

theorem step_weighing_heavy (heavy : ¬(throttle.readWeight clock).1 ≤ throttle.warnThreshold) :
    step clock throttle (.weighing previous now) =
      (.claiming previous now (throttle.readWeight clock).1, (throttle.readWeight clock).2) := by
  simp only [step, (throttle.agrees_readWeight clock).warnThreshold, if_neg heavy]

theorem step_claiming (throttle : SpeedThrottle) (clock : Nat) (weight : Float) :
    step clock (throttle.readWeight clock).2 (.claiming throttle.lastWarning now weight) =
      (.done (some (now, weight)),
        { (throttle.readWeight clock).2 with lastWarning := max now 1 }) :=
  if_pos (throttle.agrees_readWeight clock).lastWarning

end WarningCheck

/-! ### Calls under way -/

inductive WriterStage where
  /-- The writer is about to park and finds out whether to warn. -/
  | checking (check : WarningCheck)
  | parked
  /-- The writer goes on, which counts the time that it parked. -/
  | resuming
  | returned

structure WriterCall where
  answer : ParkTime
  stage : WriterStage

/-- A warning that was given: by which call, at which reading of the clock, and what it tells. -/
structure Warning where
  caller : Nat
  time : Nat
  told : Pressure

def Warning.ofCall (caller : Nat) (told : Nat × Pressure) : Warning :=
  { caller, time := told.1, told := told.2 }

namespace WriterCall

def enter (answer : ParkTime) : WriterCall :=
  { answer
    stage := match answer with
      | .noThrottling => .returned
      | .measured nanos => if nanos = 0 then .resuming else .checking .start }

def proceed (call : WriterCall) (throttle : SpeedThrottle) (memory : PageMemory)
    (progress : Option ProgressSnapshot) (now : Nat) :
    WriterCall × SpeedThrottle × Option (Nat × Pressure) :=
  match call.stage with
  | .checking (.done none) => ({ call with stage := .parked }, throttle, none)
  | .checking (.done (some (time, weight))) =>
    let (told, throttle) := throttle.readPressure memory progress weight now
    ({ call with stage := .parked }, throttle, some (time, told))
  | .checking check =>
    let (check, throttle) := check.step now throttle
    ({ call with stage := .checking check }, throttle, none)
  | .parked => ({ call with stage := .resuming }, throttle, none)
  | .resuming =>
    ({ call with stage := .returned }, throttle.record call.answer.duration now, none)
  | .returned => (call, throttle, none)

def parks (call : WriterCall) : Bool :=
  match call.stage with
  | .checking _ => false
  | _ => call.answer.isParked

def due? (call : WriterCall) : Option Nat :=
  match call.stage with
  | .checking (.done (some (time, _))) => some time
  | _ => none

def WillPark (call : WriterCall) : Prop :=
  match call.stage with
  | .checking _ => call.answer.isParked = true
  | _ => True

/-- The call has read the clock more than the least delay after the last warning that it looked up,
if there was one. -/
def Late (delay : Nat) (call : WriterCall) : Prop :=
  match call.stage with
  | .checking (.weighing previous now) => previous = 0 ∨ previous + delay < now
  | .checking (.claiming previous now _) => previous = 0 ∨ previous + delay < now
  | _ => True

/-- What a step of a call comes to. Most neither set the time of the last warning nor warn. The
one that sets it has found it late enough, and the one that warns does so with the time that was
set. -/
inductive Outcome (delay : Nat) (call : WriterCall) (throttle : SpeedThrottle) :
    WriterCall × SpeedThrottle × Option (Nat × Pressure) → Prop
  | quiet {next : WriterCall} {other : SpeedThrottle} (agrees : throttle.Agrees other)
      (before : call.due? = none) (after : next.due? = none) :
      Outcome delay call throttle (next, other, none)
  | claims {next : WriterCall} {other : SpeedThrottle} {now : Nat}
      (late : throttle.lastWarning = 0 ∨ throttle.lastWarning + delay < now)
      (latest : other.lastWarning = max now 1)
      (settings : other.warnMinDelay = throttle.warnMinDelay)
      (before : call.due? = none) (after : next.due? = some now) :
      Outcome delay call throttle (next, other, none)
  | warns {next : WriterCall} {other : SpeedThrottle} {time : Nat} {told : Pressure}
      (agrees : throttle.Agrees other)
      (before : call.due? = some time) (after : next.due? = none) :
      Outcome delay call throttle (next, other, some (time, told))

variable {delay : Nat} {call : WriterCall} {throttle : SpeedThrottle}
variable (memory : PageMemory) (progress : Option ProgressSnapshot) (now : Nat)

theorem outcome_proceed (throttle : SpeedThrottle) (late : call.Late delay) :
    Outcome delay call throttle (call.proceed throttle memory progress now) := by
  obtain ⟨answer, stage⟩ := call
  cases stage with
  | checking check =>
      cases check with
      | start => exact .quiet throttle.agrees_refl rfl rfl
      | timing previous =>
          simp only [proceed, WarningCheck.step]
          split <;> exact .quiet throttle.agrees_refl rfl rfl
      | weighing previous time =>
          simp only [proceed, WarningCheck.step]
          split <;> exact .quiet (throttle.agrees_readWeight now) rfl rfl
      | claiming previous time weight =>
          simp only [proceed, WarningCheck.step]
          split
          · next found =>
              -- The time of the last warning is the one that the reading of the clock came after.
              exact .claims (found ▸ late) rfl rfl rfl rfl
          · exact .quiet throttle.agrees_refl rfl rfl
      | done due =>
          cases due with
          | none => exact .quiet throttle.agrees_refl rfl rfl
          | some claim =>
              exact .warns (throttle.agrees_readPressure memory progress claim.2 now) rfl rfl
  | parked => exact .quiet throttle.agrees_refl rfl rfl
  | resuming => exact .quiet (throttle.agrees_record ..) rfl rfl
  | returned => exact .quiet throttle.agrees_refl rfl rfl

theorem late_proceed (settings : throttle.warnMinDelay = saturate delay) (shown : now ≤ largest64)
    (late : call.Late delay) : (call.proceed throttle memory progress now).1.Late delay := by
  obtain ⟨answer, stage⟩ := call
  cases stage with
  | checking check =>
      cases check with
      | start => trivial
      | timing previous =>
          simp only [proceed, WarningCheck.step]
          split
          · trivial
          · next passed =>
              have later : previous = 0 ∨ previous + delay < now := by
                simp only [settings, saturate] at passed
                omega
              exact later
      | weighing previous time =>
          simp only [proceed, WarningCheck.step]
          split
          · trivial
          · exact late
      | claiming previous time weight =>
          simp only [proceed, WarningCheck.step]
          split <;> trivial
      | done due => cases due <;> trivial
  | parked | resuming | returned => trivial

theorem willPark_proceed (willPark : call.WillPark) :
    (call.proceed throttle memory progress now).1.WillPark := by
  obtain ⟨answer, stage⟩ := call
  cases stage with
  | checking check =>
      cases check with
      | done due => cases due <;> trivial
      | _ => exact willPark
  | parked | resuming | returned => trivial

theorem parks_proceed (parks : call.parks = true) :
    (call.proceed throttle memory progress now).1.parks = true := by
  obtain ⟨answer, stage⟩ := call
  cases stage with
  | checking check => cases parks
  | parked | resuming | returned => exact parks

theorem parks_of_warned (willPark : call.WillPark)
    (warned : (call.proceed throttle memory progress now).2.2.isSome = true) :
    (call.proceed throttle memory progress now).1.parks = true := by
  obtain ⟨answer, stage⟩ := call
  cases stage with
  | checking check =>
      cases check with
      | done due =>
          cases due with
          | none => cases warned
          | some claim => exact willPark
      | _ => cases warned
  | parked | resuming | returned => cases warned

theorem enter_begins (delay : Nat) (answer : ParkTime) :
    (enter answer).due? = none ∧ (enter answer).Late delay ∧ (enter answer).WillPark := by
  cases answer with
  | noThrottling => exact ⟨rfl, trivial, trivial⟩
  | measured nanos =>
      by_cases idle : nanos = 0
      · subst idle
        exact ⟨rfl, trivial, trivial⟩
      · have begun : enter (.measured nanos) =
            { answer := .measured nanos, stage := .checking .start } := by
          rw [enter, if_neg idle]
        have parked : (ParkTime.measured nanos).isParked = true :=
          decide_eq_true (Nat.pos_of_ne_zero idle)
        rw [begun]
        exact ⟨rfl, trivial, parked⟩

end WriterCall

/-- Writers whose calls on one throttle are under way or have returned, in the order in which they
called, and the warnings so far. -/
structure Marking where
  throttle : SpeedThrottle
  calls : List WriterCall
  warnings : List Warning

namespace Marking

def new (options : ThrottleOptions) (built : Nat) : Marking :=
  { throttle := .new options built, calls := [], warnings := [] }

inductive Turn where
  /-- A writer calls and is decided on. -/
  | enter (memory : PageMemory) (progress : Option ProgressSnapshot) (inCheckpoint : Bool)
      (thread : Nat)
  /-- A writer that has called makes its next step. -/
  | proceed (caller : Nat) (memory : PageMemory) (progress : Option ProgressSnapshot)
  | begin
  | finish
  | relax
  | readMarkSpeed
  | readWriteSpeed
  /-- A part of any of these is done, up to where another thread comes in between. -/
  | partly (marks : Meter) (bufferBackoff : Backoff) (cleanPages : CleanPages)

def proceed (marking : Marking) (caller : Nat) (memory : PageMemory)
    (progress : Option ProgressSnapshot) (now : Nat) : Marking :=
  match marking.calls[caller]? with
  | none => marking
  | some call =>
    let (call, throttle, told) := call.proceed marking.throttle memory progress now
    { throttle
      calls := marking.calls.set caller call
      warnings := marking.warnings ++ (told.map (.ofCall caller)).toList }

def after (marking : Marking) (clock : Nat) (turn : Turn) : Marking :=
  match turn with
  | .enter memory progress inCheckpoint thread =>
    let (answer, throttle) :=
      marking.throttle.decide memory progress inCheckpoint thread (saturate clock)
    { marking with throttle, calls := marking.calls ++ [.enter answer] }
  | .proceed caller memory progress => marking.proceed caller memory progress (saturate clock)
  | .begin => { marking with throttle := marking.throttle.begin (saturate clock) }
  | .finish => { marking with throttle := marking.throttle.finish (saturate clock) }
  | .relax => { marking with throttle := marking.throttle.relax }
  | .readMarkSpeed =>
    { marking with throttle := (marking.throttle.readMarkSpeed (saturate clock)).2 }
  | .readWriteSpeed =>
    { marking with throttle := (marking.throttle.readWriteSpeed (saturate clock)).2 }
  | .partly marks bufferBackoff cleanPages =>
    { marking with throttle := marking.throttle.moved marks bufferBackoff cleanPages }

def run (marking : Marking) (turns : List (Nat × Turn)) : Marking :=
  turns.foldl (fun marking (clock, turn) => marking.after clock turn) marking

def claims (warnings : List Warning) (calls : List WriterCall) : List Nat :=
  warnings.map (·.time) ++ calls.filterMap (·.due?)

/-! ### Times that are set -/

def Apart (delay one other : Nat) : Prop := one + delay < other ∨ other + delay < one

theorem Apart.symm {delay one other : Nat} (apart : Apart delay one other) :
    Apart delay other one := Or.symm apart

/-- Times that lie apart from each other, with `latest` the last of them or zero if there is
none. -/
structure Spaced (delay latest : Nat) (times : List Nat) : Prop where
  apart : times.Pairwise (Apart delay)
  latest : ∀ time ∈ times, time ≤ latest ∧ latest ≠ 0

theorem Spaced.perm {delay latest : Nat} {times others : List Nat}
    (spaced : Spaced delay latest times) (perm : times.Perm others) :
    Spaced delay latest others :=
  ⟨(perm.pairwise_iff Apart.symm).mp spaced.apart,
    fun time member => spaced.latest time (perm.mem_iff.mpr member)⟩

theorem Spaced.cons {delay latest now : Nat} {times : List Nat}
    (spaced : Spaced delay latest times) (late : latest = 0 ∨ latest + delay < now) :
    Spaced delay (max now 1) (now :: times) := by
  have earlier : ∀ time ∈ times, time + delay < now := by
    intro time member
    have := spaced.latest time member
    omega
  refine ⟨List.pairwise_cons.mpr ⟨fun time member => .inr (earlier time member), spaced.apart⟩, ?_⟩
  intro time member
  obtain rfl | member := List.mem_cons.mp member
  · omega
  · have := earlier time member
    omega

section Claims

variable (warnings : List Warning) {calls : List WriterCall}

theorem claims_set {caller : Nat} (called : caller < calls.length) (call : WriterCall) :
    (claims warnings (calls.set caller call)).Perm
      (call.due?.toList ++ claims warnings (calls.eraseIdx caller)) := by
  have parted : (call :: calls.eraseIdx caller).filterMap (·.due?) =
      call.due?.toList ++ (calls.eraseIdx caller).filterMap (·.due?) := by
    cases due : call.due? <;> simp [due]
  have others := (List.set_perm_cons_eraseIdx called call).filterMap (·.due?)
  rw [parted] at others
  refine (others.append_left (warnings.map (·.time))).trans ?_
  rw [claims, ← List.append_assoc, ← List.append_assoc]
  exact List.perm_append_comm.append_right _

theorem claims_concat (calls : List WriterCall) (warning : Warning) :
    (claims (warnings ++ [warning]) calls).Perm (warning.time :: claims warnings calls) := by
  rw [claims, List.map_append, List.append_assoc]
  exact List.perm_middle

theorem claims_enter (answer : ParkTime) :
    claims warnings (calls ++ [.enter answer]) = claims warnings calls := by
  obtain ⟨undue, -, -⟩ := WriterCall.enter_begins 0 answer
  simp [claims, undue]

end Claims

/-! ### Whatever happens between the steps -/

/-- The least delay is as it was set, times that were set lie apart, and nobody warns who does not
park. -/
structure Kept (delay : Nat) (marking : Marking) : Prop where
  settings : marking.throttle.warnMinDelay = saturate delay
  spaced : Spaced delay marking.throttle.lastWarning (claims marking.warnings marking.calls)
  late : ∀ call ∈ marking.calls, call.Late delay
  willPark : ∀ call ∈ marking.calls, call.WillPark
  warned : ∀ warning ∈ marking.warnings, ∃ call,
    marking.calls[warning.caller]? = some call ∧ call.parks = true

variable {delay : Nat} {marking : Marking}

theorem kept_new (options : ThrottleOptions) (built : Nat) :
    Kept options.warnMinDelayNanos (.new options built) where
  settings := rfl
  spaced := ⟨.nil, fun _ member => absurd member List.not_mem_nil⟩
  late := fun _ member => absurd member List.not_mem_nil
  willPark := fun _ member => absurd member List.not_mem_nil
  warned := fun _ member => absurd member List.not_mem_nil

theorem Kept.of_agrees (kept : Kept delay marking) {throttle : SpeedThrottle}
    (agrees : marking.throttle.Agrees throttle) : Kept delay { marking with throttle } where
  settings := agrees.warnMinDelay.trans kept.settings
  spaced := by
    rw [agrees.lastWarning]
    exact kept.spaced
  late := kept.late
  willPark := kept.willPark
  warned := kept.warned

theorem Kept.enter (kept : Kept delay marking) (answer : ParkTime) :
    Kept delay { marking with calls := marking.calls ++ [.enter answer] } where
  settings := kept.settings
  spaced := by
    rw [claims_enter]
    exact kept.spaced
  late := by
    intro call member
    obtain member | member := List.mem_append.mp member
    · exact kept.late call member
    · exact List.mem_singleton.mp member ▸ (WriterCall.enter_begins delay answer).2.1
  willPark := by
    intro call member
    obtain member | member := List.mem_append.mp member
    · exact kept.willPark call member
    · exact List.mem_singleton.mp member ▸ (WriterCall.enter_begins delay answer).2.2
  warned := by
    intro warning member
    obtain ⟨call, called, parks⟩ := kept.warned warning member
    obtain ⟨within, -⟩ := List.getElem?_eq_some_iff.mp called
    exact ⟨call, (List.getElem?_append_left within).trans called, parks⟩

theorem spaced_proceed (kept : Kept delay marking) {caller : Nat} {call : WriterCall}
    (called : marking.calls[caller]? = some call) {told : Option (Nat × Pressure)}
    {next : WriterCall} {other : SpeedThrottle}
    (outcome : WriterCall.Outcome delay call marking.throttle (next, other, told)) :
    other.warnMinDelay = marking.throttle.warnMinDelay ∧
      Spaced delay other.lastWarning (claims
        (marking.warnings ++ (told.map (.ofCall caller)).toList)
        (marking.calls.set caller next)) := by
  obtain ⟨within, rfl⟩ := List.getElem?_eq_some_iff.mp called
  have before := claims_set marking.warnings within marking.calls[caller]
  rw [List.set_getElem_self] at before
  have after := claims_set marking.warnings within next
  have spaced := kept.spaced.perm before
  cases outcome with
  | quiet agrees undue still =>
      rw [undue] at spaced
      rw [still] at after
      refine ⟨agrees.warnMinDelay, ?_⟩
      rw [agrees.lastWarning, Option.map_none, Option.toList_none, List.append_nil]
      exact spaced.perm after.symm
  | claims late latest settings undue due =>
      rw [undue] at spaced
      rw [due] at after
      refine ⟨settings, ?_⟩
      rw [latest, Option.map_none, Option.toList_none, List.append_nil]
      exact (spaced.cons late).perm after.symm
  | @warns next other time told agrees due given =>
      rw [due] at spaced
      rw [given] at after
      have given := claims_concat marking.warnings (marking.calls.set caller next)
        (.ofCall caller (time, told))
      refine ⟨agrees.warnMinDelay, ?_⟩
      rw [agrees.lastWarning]
      exact spaced.perm (given.trans (after.cons time)).symm

theorem warned_proceed (kept : Kept delay marking) {caller : Nat} {call : WriterCall}
    (called : marking.calls[caller]? = some call) {told : Option (Nat × Pressure)}
    {next : WriterCall} (parks : call.parks = true → next.parks = true)
    (warns : told.isSome = true → next.parks = true) :
    ∀ warning ∈ marking.warnings ++ (told.map (.ofCall caller)).toList, ∃ each,
      (marking.calls.set caller next)[warning.caller]? = some each ∧ each.parks = true := by
  obtain ⟨within, -⟩ := List.getElem?_eq_some_iff.mp called
  have at_caller : (marking.calls.set caller next)[caller]? = some next :=
    List.getElem?_set_self within
  intro warning member
  obtain given | given := List.mem_append.mp member
  · obtain ⟨each, found, parked⟩ := kept.warned warning given
    by_cases own : warning.caller = caller
    · obtain rfl : call = each := Option.some.inj (called.symm.trans (own ▸ found))
      exact ⟨next, own ▸ at_caller, parks parked⟩
    · exact ⟨each, (List.getElem?_set_ne (Ne.symm own)).trans found, parked⟩
  · cases told with
    | none => cases given
    | some claim =>
        obtain rfl := List.mem_singleton.mp given
        exact ⟨next, at_caller, warns rfl⟩

theorem Kept.proceed (kept : Kept delay marking) (caller : Nat) (memory : PageMemory)
    (progress : Option ProgressSnapshot) {now : Nat} (shown : now ≤ largest64) :
    Kept delay (marking.proceed caller memory progress now) := by
  unfold Marking.proceed
  split
  · exact kept
  · next call called =>
      have member : call ∈ marking.calls := List.mem_of_getElem? called
      have late := kept.late call member
      have willPark := kept.willPark call member
      have outcome := WriterCall.outcome_proceed memory progress now marking.throttle late
      obtain ⟨settings, spaced⟩ := spaced_proceed kept called outcome
      refine ⟨settings.trans kept.settings, spaced, ?late, ?willPark, ?warned⟩
      case late =>
        intro each member
        obtain member | rfl := List.mem_or_eq_of_mem_set member
        · exact kept.late each member
        · exact WriterCall.late_proceed memory progress now kept.settings shown late
      case willPark =>
        intro each member
        obtain member | rfl := List.mem_or_eq_of_mem_set member
        · exact kept.willPark each member
        · exact WriterCall.willPark_proceed memory progress now willPark
      case warned =>
        exact warned_proceed kept called (WriterCall.parks_proceed memory progress now)
          (WriterCall.parks_of_warned memory progress now willPark)

theorem Kept.after (kept : Kept delay marking) (clock : Nat) (turn : Turn) :
    Kept delay (marking.after clock turn) := by
  cases turn with
  | enter memory progress inCheckpoint thread =>
      have decided := kept.of_agrees
        (marking.throttle.agrees_decide memory progress inCheckpoint thread (saturate clock))
      exact decided.enter _
  | proceed caller memory progress => exact kept.proceed caller memory progress (saturate_le clock)
  | begin => exact kept.of_agrees (marking.throttle.agrees_begin (saturate clock))
  | finish => exact kept.of_agrees (marking.throttle.agrees_finish (saturate clock))
  | relax => exact kept.of_agrees marking.throttle.agrees_relax
  | readMarkSpeed => exact kept.of_agrees (marking.throttle.agrees_readMarkSpeed (saturate clock))
  | readWriteSpeed => exact kept.of_agrees (marking.throttle.agrees_readWriteSpeed (saturate clock))
  | partly marks bufferBackoff cleanPages =>
      exact kept.of_agrees (marking.throttle.agrees_moved marks bufferBackoff cleanPages)

theorem Kept.run (kept : Kept delay marking) (turns : List (Nat × Turn)) :
    Kept delay (marking.run turns) := by
  induction turns generalizing marking with
  | nil => exact kept
  | cons turn turns ih => exact ih (kept.after turn.1 turn.2)

/-- Whatever writers do on a new throttle, in whichever order their steps come and whatever happens
in between: the clock was read for any two warnings at times that differ by more than the least
delay, and who warned has come to its park. -/
theorem warnings_of_run (options : ThrottleOptions) (built : Nat) (turns : List (Nat × Turn)) :
    let final := (Marking.new options built).run turns
    final.warnings.Pairwise (fun one other => Apart options.warnMinDelayNanos one.time other.time) ∧
      ∀ warning ∈ final.warnings, ∃ call,
        final.calls[warning.caller]? = some call ∧ call.parks = true := by
  have kept := (kept_new options built).run turns
  have apart := (List.pairwise_append.mp kept.spaced.apart).1
  exact ⟨List.pairwise_map.mp apart, kept.warned⟩

/-- Two writers find out at the same time that a warning is due, of which the first to set its time
gives it. A third one warns when the least delay has passed, and that is longer. -/
theorem warnings_of_run_ofThree :
    let options : ThrottleOptions :=
      { ThrottleOptions.default with startingParkNanos := 1000000000, warnMinDelayMillis := 100 }
    let memory : PageMemory :=
      { bufferCount := 100, bufferSize := 100, totalPages := 1000, dirtyRatio := 0.1 }
    let seen : ProgressSnapshot := { written := some 0, synced := 0, evicted := 0, total := 100 }
    let call (inCheckpoint : Bool) : Turn := .enter memory (some seen) inCheckpoint 1
    let step (caller : Nat) : Turn := .proceed caller memory (some seen)
    let turns : List (Nat × Turn) :=
      (0, call true) :: List.replicate 4 (0, step 0) ++
        [(1000000000, step 0), (1000000000, step 0), (1000000000, call false),
          (1000000000, call false), (1100000000, call true), (1100000000, call true)] ++
        (List.replicate 5 [(1100000000, step 3), (1100000000, step 4)]).flatten ++
        (1300000000, call true) :: List.replicate 5 (1300000000, step 5)
    let final := (Marking.new options 0).run turns
    final.warnings.map (fun warning => (warning.caller, warning.time)) =
        [(3, 1100000000), (5, 1300000000)] ∧
      Apart options.warnMinDelayNanos 1100000000 1300000000 ∧
      ∀ warning ∈ final.warnings, ∃ call,
        final.calls[warning.caller]? = some call ∧ call.parks = true := by
  intro options memory seen call step turns final
  obtain ⟨apart, parked⟩ := warnings_of_run options 0 turns
  have told : final.warnings.map (fun warning => (warning.caller, warning.time)) =
      [(3, 1100000000), (5, 1300000000)] := by decide +kernel
  have times : (final.warnings.map fun warning => (warning.caller, warning.time)).Pairwise
      fun one other => Apart options.warnMinDelayNanos one.2 other.2 := List.pairwise_map.mpr apart
  rw [told] at times
  exact ⟨told, (List.pairwise_cons.mp times).1 _ (List.mem_singleton_self _), parked⟩

/-! ### Steps that nothing comes between -/

theorem run_proceed (throttle : SpeedThrottle) (calls : List WriterCall) (call : WriterCall)
    (warnings : List Warning) (memory : PageMemory) (progress : Option ProgressSnapshot)
    (clock : Nat) (turns : List (Nat × Turn)) :
    run { throttle, calls := calls ++ [call], warnings }
        ((clock, .proceed calls.length memory progress) :: turns) =
      run (let (next, other, told) := call.proceed throttle memory progress (saturate clock)
        { throttle := other
          calls := calls ++ [next]
          warnings := warnings ++ (told.map (.ofCall calls.length)).toList }) turns := by
  simp [run, after, Marking.proceed]

theorem run_warn (throttle : SpeedThrottle) (calls : List WriterCall) (answer : ParkTime)
    (warnings : List Warning) (memory : PageMemory) (progress : Option ProgressSnapshot)
    (clock : Nat) :
    ∃ count, run { throttle, calls := calls ++ [{ answer, stage := .checking .start }], warnings }
        (List.replicate count (clock, .proceed calls.length memory progress)) =
      { throttle := (throttle.warn memory progress (saturate clock)).2
        calls := calls ++ [{ answer, stage := .parked }]
        warnings := warnings ++ ((throttle.warn memory progress (saturate clock)).1.map
          fun told => .ofCall calls.length (saturate clock, told)).toList } := by
  by_cases soon : throttle.lastWarning ≠ 0 ∧
      saturate clock - throttle.lastWarning ≤ throttle.warnMinDelay
  · refine ⟨3, ?_⟩
    simp only [List.replicate, run_proceed, WriterCall.proceed, SpeedThrottle.warn,
      WarningCheck.run, WarningCheck.step_start, WarningCheck.step_timing_soon soon,
      WarningCheck.step_done]
    simp [run]
  · by_cases light : (throttle.readWeight (saturate clock)).1 ≤ throttle.warnThreshold
    · refine ⟨4, ?_⟩
      simp only [List.replicate, run_proceed, WriterCall.proceed, SpeedThrottle.warn,
        WarningCheck.run, WarningCheck.step_start, WarningCheck.step_timing_late soon,
        WarningCheck.step_weighing_light light, WarningCheck.step_done]
      simp [run]
    · refine ⟨5, ?_⟩
      simp only [List.replicate, run_proceed, WriterCall.proceed, SpeedThrottle.warn,
        WarningCheck.run, WarningCheck.step_start, WarningCheck.step_timing_late soon,
        WarningCheck.step_weighing_heavy light, WarningCheck.step_claiming]
      simp [run, Warning.ofCall]

def pressure? : ThrottleNotice → Option Pressure
  | .pressure told => some told
  | .longPark _ => none

theorem pressure?_longPark (nanos : Nat) :
    (Policy.longPark nanos).filterMap pressure? = [] := by
  unfold Policy.longPark
  split <;> rfl

/-- A call that nothing comes between is a decision of the speed-based throttle, with its answer,
its park and its warning. -/
theorem run_enter (marking : Marking) (memory : PageMemory) (progress : Option ProgressSnapshot)
    (inCheckpoint : Bool) (thread clock : Nat) :
    let decided := Policy.decideSpeed marking.throttle memory progress inCheckpoint thread
      (saturate clock)
    ∃ count call given, marking.run ((clock, .enter memory progress inCheckpoint thread) ::
        List.replicate count (clock, .proceed marking.calls.length memory progress)) =
          { throttle := decided.2
            calls := marking.calls ++ [call]
            warnings := marking.warnings ++ given } ∧
      call.answer = decided.1.answer ∧ call.parks = decided.1.park.isSome ∧
      given.map (·.told) = decided.1.notices.filterMap pressure? := by
  simp only [Policy.decideSpeed]
  split
  · next other found =>
      exact ⟨0, .enter .noThrottling, [], by simp [run, after, found], rfl, rfl, rfl⟩
  · next nanos other found =>
      by_cases idle : nanos = 0
      · simp only [if_pos idle]
        subst idle
        exact ⟨0, .enter (.measured 0), [], by simp [run, after, found], rfl, rfl, rfl⟩
      · simp only [if_neg idle]
        obtain ⟨count, ran⟩ := run_warn other marking.calls (.measured nanos) marking.warnings
          memory progress clock
        let warned := (other.warn memory progress (saturate clock)).1.map
          fun told => Warning.ofCall marking.calls.length (saturate clock, told)
        refine ⟨count, { answer := .measured nanos, stage := .parked }, warned.toList, ?_, rfl,
          ?_, ?_⟩
        · rw [← ran]
          simp only [run, List.foldl_cons, after, found, WriterCall.enter, if_neg idle]
        · exact decide_eq_true (Nat.pos_of_ne_zero idle)
        · rw [List.filterMap_append, pressure?_longPark, List.append_nil]
          simp only [warned]
          cases (other.warn memory progress (saturate clock)).1 <;> rfl

end Marking

end Durability
