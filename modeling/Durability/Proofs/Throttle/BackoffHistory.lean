import Durability.Proofs.Throttle.FinishedCheckpoint
import Durability.Proofs.Throttle.MarkLedger
import Mathlib.Data.List.DropRight

/-! Delays and the history of pressure. A run is written down mark by mark, with all else that was
asked for in between. How long a throttled writer is delayed depends on nothing but the number of
throttled ones of its kind since that kind was last reset, whether these have gone on by now or are
parked still. The two kinds, pages in the checkpoint and others, do not meddle with each other. -/

namespace Durability

/-! ### What a policy does to its backoffs -/

/-- The backoff after something that resets it, or else is given its next delay, or neither. -/
def Backoff.upon (backoff : Backoff) (resets throttles : Bool) : Backoff :=
  if resets then backoff.reset else if throttles then backoff.next.2 else backoff

namespace Policy

def isSpeed : Policy → Bool
  | speed _ => true
  | ratio _ => false

def backoff? (inCheckpoint : Bool) : Policy → Option Backoff
  | speed throttle => if inCheckpoint then some throttle.bufferBackoff else none
  | ratio throttle => some (throttle.backoff inCheckpoint)

/-- Whether a mark resets the backoff of its kind, given whether it is throttled and its answer. An
answer that throttling does not apply makes a difference to the throttle by dirty ratio alone. -/
def resetsOn (policy : Policy) (throttled : Bool) (answer : ParkTime) : Bool :=
  !throttled && (policy.isSpeed || answer ≠ .noThrottling)

theorem resetsOn_of_settings {policy other : Policy} (same : policy.settings = other.settings) :
    policy.resetsOn = other.resetsOn := by
  cases policy <;> cases other <;> first | rfl | cases congrArg Prod.snd same

section Decisions

variable (memory : PageMemory) (progress : Option ProgressSnapshot) (inCheckpoint : Bool)
  (thread now : Nat)

theorem decideSpeed_bufferBackoff (throttle : SpeedThrottle) :
    (decideSpeed throttle memory progress inCheckpoint thread now).2.bufferBackoff =
      if inCheckpoint then
        if throttle.bufferOverflows memory then throttle.bufferBackoff.next.2
        else throttle.bufferBackoff.reset
      else throttle.bufferBackoff := by
  have decided : (throttle.decide memory progress inCheckpoint thread now).2.bufferBackoff =
      if inCheckpoint then
        if throttle.bufferOverflows memory then throttle.bufferBackoff.next.2
        else throttle.bufferBackoff.reset
      else throttle.bufferBackoff := by
    cases inCheckpoint with
    | false => rfl
    | true =>
        cases full : true && throttle.bufferOverflows memory with
        | true =>
            rw [SpeedThrottle.decide_of_full full]
            exact (if_pos full).symm
        | false =>
            rw [SpeedThrottle.decide_of_room full]
            exact (if_neg (Bool.eq_false_iff.mp full)).symm
  let kept (after : SpeedThrottle) : Prop := after.bufferBackoff =
    if inCheckpoint then
      if throttle.bufferOverflows memory then throttle.bufferBackoff.next.2
      else throttle.bufferBackoff.reset
    else throttle.bufferBackoff
  have same : kept (decideSpeed throttle memory progress inCheckpoint thread now).2 :=
    kept_decideSpeed (fun _ _ => id) (fun _ _ => id) (fun _ _ => id) decided
  exact same

theorem decideRatio_backoff (throttle : RatioThrottle) (kind : Bool) :
    (decideRatio throttle memory progress inCheckpoint).2.backoff kind =
      (throttle.backoff kind).upon
        (inCheckpoint == kind && throttle.exceeds? memory progress inCheckpoint == some false)
        (inCheckpoint == kind && (ratio throttle).delays memory progress inCheckpoint) := by
  simp only [decideRatio, delays]
  split <;> next found => simp only [found]; cases inCheckpoint <;> cases kind <;> rfl

theorem resetsOn_decideRatio (throttle : RatioThrottle) :
    let decision := (decideRatio throttle memory progress inCheckpoint).1
    (ratio throttle).resetsOn ((ratio throttle).delays memory progress inCheckpoint)
        decision.answer =
      (throttle.exceeds? memory progress inCheckpoint == some false) := by
  intro decision
  have answered : decision.answer ≠ .noThrottling ↔
      throttle.exceeds? memory progress inCheckpoint ≠ none := by
    simp only [decision, decideRatio]
    split <;> simp [*]
  simp only [resetsOn, delays, isSpeed, answered]
  rcases throttle.exceeds? memory progress inCheckpoint with _ | _ | _ <;> rfl

theorem backoff?_decide (policy : Policy) (kind : Bool) :
    let decided := policy.decide memory progress inCheckpoint thread now
    let throttled := policy.delays memory progress inCheckpoint
    decided.2.backoff? kind = (policy.backoff? kind).map
      (·.upon (inCheckpoint == kind && policy.resetsOn throttled decided.1.answer)
        (inCheckpoint == kind && throttled)) := by
  intro decided throttled
  cases policy with
  | speed throttle =>
      have buffer := decideSpeed_bufferBackoff memory progress inCheckpoint thread now throttle
      cases kind with
      | false => rfl
      | true =>
          by_cases full : throttle.bufferOverflows memory = true <;> cases inCheckpoint <;>
            simp [decided, throttled, decide, backoff?, buffer, delays, resetsOn, isSpeed,
              Backoff.upon, full]
  | ratio throttle =>
      have resets := resetsOn_decideRatio memory progress inCheckpoint throttle
      rw [show (ratio throttle).resetsOn throttled decided.1.answer = _ from resets]
      exact congrArg some (decideRatio_backoff memory progress inCheckpoint throttle kind)

/-- A throttled writer is told the next delay of its kind, and parks for just that time. -/
theorem decide_of_delays {policy : Policy}
    (throttled : policy.delays memory progress inCheckpoint = true) :
    let decision := (policy.decide memory progress inCheckpoint thread now).1
    ∃ backoff, policy.backoff? inCheckpoint = some backoff ∧
      decision.answer = .measured (backoff.delay backoff.attempts.toNat) ∧
      (decision.park.map (·.nanos)).getD 0 = backoff.delay backoff.attempts.toNat := by
  cases policy with
  | speed throttle =>
      obtain ⟨rfl, full⟩ := Bool.and_eq_true_iff.1 throttled
      refine ⟨throttle.bufferBackoff, rfl, ?_⟩
      have decided : throttle.decide memory progress true thread now =
          (.measured throttle.bufferBackoff.next.1,
            { throttle with bufferBackoff := throttle.bufferBackoff.next.2 }) :=
        @SpeedThrottle.decide_of_full throttle memory true full progress thread now
      simp only [decide, decideSpeed, decided]
      split
      · next none =>
          have zero : throttle.bufferBackoff.delay throttle.bufferBackoff.attempts.toNat = 0 := none
          exact ⟨congrArg ParkTime.measured zero.symm, zero.symm⟩
      · exact ⟨rfl, rfl⟩
  | ratio throttle =>
      have exceeds : throttle.exceeds? memory progress inCheckpoint = some true :=
        of_decide_eq_true throttled
      simp only [decide, decideRatio, exceeds]
      exact ⟨throttle.backoff inCheckpoint, rfl, rfl, rfl⟩

end Decisions

variable (policy : Policy) (kind : Bool)

theorem backoff?_complete (answer : ParkTime) (now : Nat) :
    (policy.complete answer now).backoff? kind = policy.backoff? kind := by
  cases policy <;> cases answer <;> rfl

theorem backoff?_begin (now : Nat) : (policy.begin now).backoff? kind = policy.backoff? kind := by
  cases policy <;> rfl

theorem backoff?_finish (now : Nat) :
    (policy.finish now).backoff? kind = (policy.backoff? kind).map (·.upon true false) := by
  cases policy <;> cases kind <;> rfl

theorem backoff?_relax :
    policy.relax.backoff? kind = (policy.backoff? kind).map (·.upon kind false) := by
  cases policy <;> cases kind <;> rfl

end Policy

/-! ### The history of a run -/

namespace Writers

/-- A call to mark a page: the number of the writer if it runs in the background, the kind of the
page, whether the writer is throttled, its answer, and how it parks if it does. -/
structure Mark where
  writer : Option Nat
  inCheckpoint : Bool
  throttled : Bool
  answer : ParkTime
  park : Option Park

def Mark.nanos (mark : Mark) : Nat := (mark.park.map (·.nanos)).getD 0

/-- What happens in a run: a mark, or another request, with whether the checkpoint buffer is too
full at that time. -/
inductive Incident where
  | marked (mark : Mark)
  | other (request : Request) (overflows : Bool)

def Incident.isMark : Incident → Bool
  | marked _ => true
  | other _ _ => false

def Incident.writer? : Incident → Option Nat
  | marked mark => mark.writer
  | other _ _ => none

def markBy (writers : Writers) (writer : Option Nat) (thread : Nat) (inCheckpoint : Bool) : Mark :=
  let decision := (writers.decide inCheckpoint thread).1
  { writer, inCheckpoint
    throttled := writers.policy.delays writers.memory writers.progress.snapshot? inCheckpoint
    answer := decision.answer
    park := decision.park }

def ownMark (writers : Writers) (inCheckpoint : Bool) : Mark :=
  writers.markBy none mainThread inCheckpoint

def ownMarks (inCheckpoint : Bool) : (count : Nat) → Writers → List Mark
  | 0, _ => []
  | count + 1, writers =>
    writers.ownMark inCheckpoint :: ownMarks inCheckpoint count (writers.mark inCheckpoint).2

def nextMark (writers : Writers) (inCheckpoint : Bool) : Mark :=
  writers.markBy (some writers.started) (mainThread + 1 + writers.started) inCheckpoint

def incidents (writers : Writers) : Request → List Incident
  | .mark inCheckpoint => [.marked (writers.ownMark inCheckpoint)]
  | .markMany inCheckpoint count => (ownMarks inCheckpoint count writers).map .marked
  | .startMark inCheckpoint => [.marked (writers.nextMark inCheckpoint)]
  | request => [.other request (writers.policy.bufferOverflows writers.memory)]

def history (writers : Writers) : List Request → List Incident
  | [] => []
  | request :: requests =>
    writers.incidents request ++ history (writers.handle request).2 requests

section Attempts

variable (policy : Policy) (kind : Bool)

def Incident.resets : Incident → Bool
  | marked mark => mark.inCheckpoint == kind && policy.resetsOn mark.throttled mark.answer
  | other .finishCheckpoint _ => true
  | other .wakeIfRelaxed overflows => kind && !overflows
  | other _ _ => false

def Incident.throttles : Incident → Bool
  | marked mark => mark.inCheckpoint == kind && mark.throttled
  | other _ _ => false

/-- The throttled marks of a kind since that kind was last reset. -/
def attempts (history : List Incident) : Nat :=
  (history.rtakeWhile (!·.resets policy kind)).countP (·.throttles kind)

theorem attempts_concat (history : List Incident) (incident : Incident) :
    attempts policy kind (history ++ [incident]) =
      if incident.resets policy kind then 0
      else attempts policy kind history + if incident.throttles kind then 1 else 0 := by
  rw [attempts, List.rtakeWhile_concat]
  cases incident.resets policy kind with
  | true => rfl
  | false =>
      simp only [Bool.not_false, if_true, List.countP_append, List.countP_singleton, attempts]
      rfl

theorem attempts_le (history : List Incident) :
    attempts policy kind history ≤ history.countP (·.isMark) := by
  refine ((List.rtakeWhile_suffix _ history).sublist.countP_le).trans ?_
  refine List.countP_mono_left fun incident _ throttles => ?_
  cases incident with
  | marked mark => rfl
  | other request overflows => exact throttles

def Incident.concerns : Incident → Bool
  | marked mark => mark.inCheckpoint == kind
  | other .wakeIfRelaxed _ => kind
  | other _ _ => true

theorem attempts_filter (history : List Incident) :
    attempts policy kind (history.filter (·.concerns kind)) = attempts policy kind history := by
  induction history using List.reverseRecOn with
  | nil => rfl
  | append_singleton history incident ih =>
      rw [List.filter_append, attempts_concat, ← ih]
      cases concerned : incident.concerns kind with
      | true =>
          rw [List.filter_singleton, concerned, cond_true, attempts_concat]
      | false =>
          rw [List.filter_singleton, concerned, cond_false, List.append_nil]
          cases incident with
          | marked mark =>
              have other : (mark.inCheckpoint == kind) = false := concerned
              simp [Incident.resets, Incident.throttles, other]
          | other request overflows =>
              cases request with
              | wakeIfRelaxed =>
                  have outside : kind = false := concerned
                  simp [Incident.resets, Incident.throttles, outside]
              | _ => cases concerned

end Attempts

/-! ### One incident -/

def Mark.Gets (mark : Mark) (nanos : Nat) : Prop :=
  mark.answer = .measured nanos ∧ mark.nanos = nanos

/-- The backoffs of a policy count the attempts in a history, and each throttled mark in it was
given the delay of the attempts before it. -/
structure Held (start : Policy) (history : List Incident) (policy : Policy) : Prop where
  settings : policy.settings = start.settings
  backoffs : ∀ kind, policy.backoff? kind = (start.backoff? kind).map fun backoff =>
    { backoff with attempts := UInt32.ofNat (attempts start kind history) }
  delays : ∀ earlier mark, earlier ++ [.marked mark] <+: history → mark.throttled = true →
    ∃ backoff, start.backoff? mark.inCheckpoint = some backoff ∧
      mark.Gets (backoff.delay (UInt32.ofNat (attempts start mark.inCheckpoint earlier)).toNat)

variable {start policy : Policy} {happened : List Incident} {writers : Writers}

theorem Held.congr (held : Held start happened policy) {other : Policy}
    (settings : other.settings = policy.settings)
    (backoffs : ∀ kind, other.backoff? kind = policy.backoff? kind) : Held start happened other :=
  ⟨settings.trans held.settings, fun kind => (backoffs kind).trans (held.backoffs kind),
    held.delays⟩

theorem Held.concat (held : Held start happened policy) {incident : Incident} {after : Policy}
    (settings : after.settings = policy.settings)
    (backoffs : ∀ kind, after.backoff? kind = (policy.backoff? kind).map
      (·.upon (incident.resets start kind) (incident.throttles kind)))
    (delayed : ∀ mark, incident = .marked mark → mark.throttled = true →
      ∃ backoff, policy.backoff? mark.inCheckpoint = some backoff ∧
        mark.Gets (backoff.delay backoff.attempts.toNat)) :
    Held start (happened ++ [incident]) after := by
  refine ⟨settings.trans held.settings, fun kind => ?_, fun earlier mark part throttled => ?_⟩
  · rw [backoffs, held.backoffs, Option.map_map, attempts_concat]
    congr 1
    funext backoff
    simp only [Function.comp_apply, Backoff.upon]
    split
    · rfl
    · split
      · rw [Backoff.next, UInt32.ofNat_add]
        rfl
      · rfl
  · rcases List.prefix_concat_iff.1 part with whole | part
    · obtain ⟨rfl, last⟩ := List.append_inj' whole rfl
      obtain ⟨now, known, gets⟩ := delayed mark (List.cons.inj last).1.symm throttled
      rw [held.backoffs] at known
      obtain ⟨backoff, own, rfl⟩ := Option.map_eq_some_iff.1 known
      exact ⟨backoff, own, gets⟩
    · exact held.delays earlier mark part throttled

theorem Held.decide (held : Held start happened writers.policy) (writer : Option Nat)
    (thread : Nat) (inCheckpoint : Bool) :
    Held start (happened ++ [.marked (writers.markBy writer thread inCheckpoint)])
      (writers.decide inCheckpoint thread).2.policy := by
  let incident := Incident.marked (writers.markBy writer thread inCheckpoint)
  rw [decide_policy]
  refine @Held.concat _ _ _ held incident _ (writers.policy.settings_decide _ _ _ _ _) ?_ ?_
  · intro kind
    have decided := Policy.backoff?_decide writers.memory writers.progress.snapshot? inCheckpoint
      thread writers.now writers.policy kind
    rwa [Policy.resetsOn_of_settings held.settings] at decided
  · intro mark marked throttled
    cases Incident.marked.inj marked
    exact Policy.decide_of_delays _ _ _ _ _ throttled

theorem Held.complete (held : Held start happened policy) (answer : ParkTime) (now : Nat) :
    Held start happened (policy.complete answer now) :=
  held.congr ((Policy.lasting_settings _).complete policy answer now rfl)
    fun kind => policy.backoff?_complete kind answer now

/-! ### Requests and runs -/

theorem Held.mark (held : Held start happened writers.policy) (inCheckpoint : Bool) :
    Held start (happened ++ [.marked (writers.ownMark inCheckpoint)])
      (writers.mark inCheckpoint).2.policy := by
  have decided := held.decide none mainThread inCheckpoint
  simp only [Writers.mark]
  split
  · exact decided.complete _ _
  · exact decided

theorem Held.markMany (held : Held start happened writers.policy) (inCheckpoint : Bool)
    (count : Nat) (last : Option ParkTime) :
    Held start (happened ++ (ownMarks inCheckpoint count writers).map .marked)
      (markMany inCheckpoint count last writers).2.policy := by
  induction count generalizing happened last writers with
  | zero => exact (List.append_nil happened).symm ▸ held
  | succ count ih =>
      rw [ownMarks, List.map_cons, List.append_cons]
      exact ih (held.mark inCheckpoint) _

theorem Held.startMark (held : Held start happened writers.policy) (inCheckpoint : Bool) :
    Held start (happened ++ [.marked (writers.nextMark inCheckpoint)])
      (writers.startMark inCheckpoint).1.policy := by
  have decided := held.decide (some writers.started) (mainThread + 1 + writers.started)
    inCheckpoint
  simp only [Writers.startMark]
  split
  · split
    · exact decided.complete _ _
    · exact decided
  · exact decided

theorem Held.other (held : Held start happened writers.policy) (request : Request)
    {after : Policy} (settings : after.settings = writers.policy.settings)
    (backoffs : ∀ kind, after.backoff? kind = (writers.policy.backoff? kind).map
      (·.upon ((Incident.other request (writers.policy.bufferOverflows writers.memory)).resets
        start kind) false)) :
    Held start (happened ++ [.other request (writers.policy.bufferOverflows writers.memory)])
      after :=
  held.concat settings backoffs nofun

theorem Held.serve (held : Held start happened writers.policy) (request : Request) :
    Held start (happened ++ writers.incidents request) (writers.serve request).2.policy := by
  have lasting := Policy.lasting_settings writers.policy.settings
  cases request with
  | mark inCheckpoint => exact held.mark inCheckpoint
  | markMany inCheckpoint count => exact held.markMany inCheckpoint count none
  | startMark inCheckpoint => exact held.startMark inCheckpoint
  | setMemory | progress | advance => exact held.other _ rfl fun kind => Option.map_id'.symm
  | beginCheckpoint =>
      refine held.other _ (lasting.begin _ _ rfl) fun kind => ?_
      exact (writers.policy.backoff?_begin kind _).trans Option.map_id'.symm
  | finishCheckpoint =>
      exact held.other _ (lasting.finish _ _ rfl) fun kind => writers.policy.backoff?_finish kind _
  | wakeIfRelaxed =>
      simp only [Writers.serve, wakeIfRelaxed, incidents]
      split
      · next full =>
          refine held.other _ rfl fun kind => ?_
          simp [Incident.resets, full, Backoff.upon]
      · next room =>
          refine held.other _ (lasting.relax _ rfl) fun kind => ?_
          have resets : (Incident.other .wakeIfRelaxed
              (writers.policy.bufferOverflows writers.memory)).resets start kind = kind := by
            simp [Incident.resets, room]
          rw [resets]
          exact writers.policy.backoff?_relax kind

theorem Held.over (held : Held start happened writers.policy) (requests : List Request) :
    Held start (happened ++ writers.history requests) (writers.run requests).policy := by
  induction requests generalizing happened writers with
  | nil => exact (List.append_nil happened).symm ▸ held
  | cons request requests ih =>
      rw [history, ← List.append_assoc]
      have served := held.serve request
      have settled : Held start (happened ++ writers.incidents request)
          (writers.handle request).2.policy :=
        settle_induction (fun writers => Held start _ writers.policy) served
          fun _ _ _ held => held.complete _ _
      exact ih settled

theorem history_concat (writers : Writers) (requests : List Request) (request : Request) :
    writers.history (requests ++ [request]) =
      writers.history requests ++ (writers.run requests).incidents request := by
  induction requests generalizing writers with
  | nil => exact List.append_nil _
  | cons first requests ih =>
      rw [List.cons_append, history, ih, history, List.append_assoc]
      rfl

/-! ### Who made a mark -/

def Answered (happened : List Incident) (writer : Nat × ParkTime) : Prop :=
  ∃ mark, .marked mark ∈ happened ∧ mark.writer = some writer.1 ∧ mark.answer = writer.2

theorem Answered.append {writer : Nat × ParkTime} (answered : Answered happened writer)
    (more : List Incident) : Answered (happened ++ more) writer := by
  obtain ⟨mark, member, same⟩ := answered
  exact ⟨mark, List.mem_append_left _ member, same⟩

/-- The marks of background writers are in the order of their numbers, and those who are parked
still go on with the answers to theirs. -/
structure Numbered (happened : List Incident) (standing : Standing) : Prop where
  numbers : happened.filterMap (·.writer?) = List.range standing.started
  parked : ∀ entry ∈ standing.tasks, Answered happened (entry.1, entry.2.answer)

theorem ownMarks_writer? (inCheckpoint : Bool) (count : Nat) (writers : Writers) :
    ((ownMarks inCheckpoint count writers).map Incident.marked).filterMap (·.writer?) = [] := by
  induction count generalizing writers with
  | zero => rfl
  | succ count ih => exact ih _

theorem Numbered.startMark (numbered : Numbered happened writers.standing)
    (inCheckpoint : Bool) :
    let after := happened ++ [.marked (writers.nextMark inCheckpoint)]
    Numbered after (writers.startMark inCheckpoint).1.standing ∧
      ∀ entry ∈ (writers.startMark inCheckpoint).2, Answered after entry := by
  intro after
  have answered : Answered after (writers.started, (writers.nextMark inCheckpoint).answer) :=
    ⟨writers.nextMark inCheckpoint, List.mem_concat_self, rfl, rfl⟩
  have numbers : after.filterMap (·.writer?) = List.range (writers.started + 1) := by
    rw [List.filterMap_append, numbered.numbers, List.range_succ]
    rfl
  rw [writers.startMark_standing inCheckpoint]
  refine ⟨⟨numbers, fun entry member => ?_⟩, ?_⟩
  · rcases List.mem_append.1 member with old | new
    · exact (numbered.parked entry old).append _
    · obtain ⟨park, -, rfl⟩ := Option.map_eq_some_iff.1 (Option.mem_toList.1 new)
      exact answered
  · cases parks : (writers.startDecision inCheckpoint).1.park with
    | none =>
        rw [(startMark_of_stay parks).2]
        exact List.forall_mem_singleton.2 answered
    | some park =>
        rw [(startMark_of_park parks).2.1]
        exact nofun

theorem Numbered.serve (numbered : Numbered happened writers.standing) (request : Request) :
    Numbered (happened ++ writers.incidents request) (writers.serve request).2.standing ∧
      ∀ entry ∈ (writers.serve request).1.finished,
        Answered (happened ++ writers.incidents request) entry := by
  -- No other request has a background writer mark a page.
  have others (nobody : (writers.incidents request).filterMap (·.writer?) = [])
      (started : (writers.serve request).2.standing.started = writers.standing.started)
      (tasks : (writers.serve request).2.standing.tasks = writers.standing.tasks) :
      Numbered (happened ++ writers.incidents request) (writers.serve request).2.standing := by
    refine ⟨?_, fun entry member => ?_⟩
    · rw [List.filterMap_append, nobody, List.append_nil, started, numbered.numbers]
    · rw [tasks] at member
      exact (numbered.parked entry member).append _
  have standing := writers.serve_standing request
  have started := congrArg Standing.started standing
  have tasks := congrArg Standing.tasks standing
  cases request with
  | startMark inCheckpoint => exact numbered.startMark inCheckpoint
  | markMany inCheckpoint count =>
      exact ⟨others (ownMarks_writer? inCheckpoint count writers) started tasks, nofun⟩
  | _ => exact ⟨others rfl started tasks, nofun⟩

theorem Numbered.handle (numbered : Numbered happened writers.standing) (request : Request) :
    Numbered (happened ++ writers.incidents request) (writers.handle request).2.standing ∧
      ∀ entry ∈ (writers.handle request).1.finished,
        Answered (happened ++ writers.incidents request) entry := by
  let served := writers.serve request
  obtain ⟨kept, finished⟩ := numbered.serve request
  have standing : (writers.handle request).2.standing = _ := served.2.settle_standing
  refine ⟨⟨?_, ?_⟩, ?_⟩
  · rw [standing]
    exact kept.numbers
  · rw [standing]
    intro entry member
    obtain ⟨sleeper, left, rfl⟩ := List.mem_map.1 member
    exact kept.parked _ (List.mem_map_of_mem (List.mem_filter.1 left).1)
  · intro entry member
    rcases List.mem_append.1 ((List.mergeSort_perm _ _).mem_iff.1 member) with now | later
    · exact finished entry now
    · obtain ⟨sleeper, ready, rfl⟩ := List.mem_map.1 later
      exact kept.parked (sleeper.number, sleeper.task)
        (List.mem_map_of_mem (List.mem_filter.1 ready).1)

theorem Numbered.over (numbered : Numbered happened writers.standing) (requests : List Request) :
    Numbered (happened ++ writers.history requests) (writers.run requests).standing := by
  induction requests generalizing happened writers with
  | nil => exact (List.append_nil happened).symm ▸ numbered
  | cons request requests ih =>
      rw [history, ← List.append_assoc]
      exact ih (numbered.handle request).1

theorem markMany_answer (inCheckpoint : Bool) (count : Nat) (last : Option ParkTime)
    (writers : Writers) :
    (markMany inCheckpoint count last writers).1 =
      ((ownMarks inCheckpoint count writers).map (·.answer)).getLast?.or last := by
  induction count generalizing last writers with
  | zero => rfl
  | succ count ih =>
      let marked := writers.mark inCheckpoint
      refine (ih (some marked.1) marked.2).trans ?_
      rw [ownMarks, List.map_cons, List.getLast?_cons]
      cases ((ownMarks inCheckpoint count marked.2).map (·.answer)).getLast? <;> rfl

theorem fresh_of_ofOptions {options : ThrottleOptions} {now : Nat}
    (chosen : Policy.ofOptions options now = some policy) {kind : Bool} {backoff : Backoff}
    (own : policy.backoff? kind = some backoff) :
    backoff = .new options.startingParkNanos options.backoffRatio ∧
      (options.policy = .speedBased → kind = true) := by
  unfold Policy.ofOptions at chosen
  split at chosen <;> cases chosen <;> cases kind <;> cases own <;>
    simp [*, RatioThrottle.new, SpeedThrottle.new, RatioThrottle.backoff]

theorem held_ofOptions {options : ThrottleOptions} {now : Nat}
    (chosen : Policy.ofOptions options now = some policy) : Held policy [] policy := by
  refine ⟨rfl, fun kind => ?_, fun earlier mark part => ?_⟩
  · cases own : policy.backoff? kind with
    | none => rfl
    | some backoff =>
        rw [(fresh_of_ofOptions chosen own).1]
        rfl
  · cases List.append_eq_nil_iff.1 (List.prefix_nil.1 part) |>.2

/-- Along any run under any policy, with less than four billion marks, a throttled mark gets, and
parks for, the delay whose number is that of the throttled marks of its kind since that was last
reset. Those in the background are counted when they are made, and get their answers when they go
on. What happens to one kind does not matter for the other, and the speed-based throttle has but one
kind. -/
theorem delays_of_run {options : ThrottleOptions} {now : Nat} {policy : Policy}
    (chosen : Policy.ofOptions options now = some policy) (memory : PageMemory)
    (metrics : Option Metrics) (clock : Nat) (requests : List Request)
    (few : ((new policy memory metrics clock).history requests).countP (·.isMark) <
      UInt32.size) :
    let start := new policy memory metrics clock
    let after := start.run requests
    let happened := start.history requests
    let backoff := Backoff.new options.startingParkNanos options.backoffRatio
    (∀ earlier mark, earlier ++ [.marked mark] <+: happened → mark.throttled = true →
      mark.Gets (backoff.delay (attempts policy mark.inCheckpoint earlier)) ∧
        (options.policy = .speedBased → mark.inCheckpoint = true)) ∧
      (∀ kind earlier, attempts policy kind (earlier.filter (·.concerns kind)) =
        attempts policy kind earlier) ∧
      (∀ request, ∀ entry ∈ (after.handle request).1.finished,
        Answered (start.history (requests ++ [request])) entry) ∧
      (∀ sleeper ∈ after.parked, Answered happened (sleeper.number, sleeper.task.answer)) ∧
      happened.filterMap (·.writer?) = List.range after.started ∧
      ∀ inCheckpoint count, (after.handle (.markMany inCheckpoint count)).1.answer =
        ((ownMarks inCheckpoint count after).map (·.answer)).getLast? := by
  intro start after happened backoff
  have held : Held policy happened after.policy :=
    @Held.over policy [] start (held_ofOptions chosen) requests
  have numbered : Numbered happened after.standing :=
    @Numbered.over [] start ⟨rfl, nofun⟩ requests
  refine ⟨?_, attempts_filter policy, ?_, ?_, numbered.numbers, ?_⟩
  · intro earlier mark part throttled
    obtain ⟨own, known, gets⟩ := held.delays earlier mark part throttled
    obtain ⟨rfl, one⟩ := fresh_of_ofOptions chosen known
    have bound : attempts policy mark.inCheckpoint earlier < UInt32.size := by
      refine ((attempts_le _ _ _).trans ?_).trans_lt few
      exact ((List.prefix_append _ _).trans part).sublist.countP_le
    rw [UInt32.toNat_ofNat_of_lt' bound] at gets
    exact ⟨gets, one⟩
  · intro request entry finished
    rw [history_concat]
    exact (numbered.handle request).2 entry finished
  · intro sleeper member
    exact numbered.parked _ (List.mem_map_of_mem member)
  · intro inCheckpoint count
    exact (markMany_answer inCheckpoint count none after).trans (Option.or_none)

theorem delays_of_two_kinds :
    let policy : Policy := .ratio (.new false (throttledBy .targetRatio))
    let start := new policy crowdedMemory none 0
    let first := writingCheckpoint true
    let second := first ++ [.startMark false]
    let third := second ++ [.startMark true]
    (start.history third).countP (·.isMark) < UInt32.size ∧
      ((start.run first).nextMark false).Gets 4000 ∧
        ((start.run second).nextMark true).Gets 4200 := by
  intro policy start first second third
  let outside := (start.run first).nextMark false
  let inside := (start.run second).nextMark true
  let options := throttledBy .targetRatio
  let backoff := Backoff.new options.startingParkNanos options.backoffRatio
  have few : (start.history third).countP (·.isMark) < UInt32.size := by decide +kernel
  obtain ⟨delays, -⟩ :=
    @delays_of_run (throttledBy .targetRatio) 0 policy rfl crowdedMemory none 0 third few
  have two : start.history first ++ [.marked outside] = start.history second :=
    (history_concat start first (.startMark false)).symm
  have three : start.history second ++ [.marked inside] = start.history third :=
    (history_concat start second (.startMark true)).symm
  have part : start.history first ++ [.marked outside] <+: start.history third := by
    rw [two, ← three]
    exact List.prefix_append _ _
  have throttled : outside.throttled = true ∧ inside.throttled = true := by decide +kernel
  have short : backoff.delay (attempts policy outside.inCheckpoint (start.history first)) =
      4000 := by decide +kernel
  have long : backoff.delay (attempts policy inside.inCheckpoint (start.history second)) =
      4200 := by decide +kernel
  refine ⟨few, ?_, ?_⟩
  · rw [← short]
    exact (delays (start.history first) outside part throttled.1).1
  · rw [← long]
    exact (delays (start.history second) inside ⟨[], (List.append_nil _).trans three⟩
      throttled.2).1

end Writers

end Durability
