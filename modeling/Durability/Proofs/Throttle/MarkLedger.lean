import Durability.Proofs.Throttle.PolicyRun
import Durability.Proofs.Throttle.SampleLedger
import Mathlib.Data.List.Basic

/-! The account of the calls to mark a page. The metrics and the mean time parked are kept by the
writers themselves, each on its way out, while others decide, park and are woken. Here every call
is written down when it is made and struck off when it has returned, and the totals are those of
the calls that returned: under the speed-based throttle all to which throttling applied, otherwise
those that were given a delay. -/

namespace Durability

/-- A call to mark a page that has returned: its answer, when it was made and when it returned, and
whether it was given a delay. -/
structure MarkCall where
  answer : ParkTime
  called : Nat
  returned : Nat
  delayed : Bool

def MarkCall.millis (call : MarkCall) : Nat := (call.returned - call.called) / 1000000

def Metrics.of (calls : List MarkCall) : Metrics :=
  { millis := wrap64 (Meter.total (calls.map (·.millis))), events := wrap64 calls.length }

theorem Metrics.of_cons (call : MarkCall) (calls : List MarkCall) :
    Metrics.of (call :: calls) = (Metrics.of calls).add (call.returned - call.called) := by
  have millis : wrap64 (call.millis + Meter.total (calls.map (·.millis))) =
      wrap64 (wrap64 (Meter.total (calls.map (·.millis))) + call.millis) := by
    rw [wrap64, wrap64, wrap64, Nat.mod_add_mod, Nat.add_comm]
  have events : wrap64 (calls.length + 1) = wrap64 (wrap64 calls.length + 1) :=
    (Nat.mod_add_mod _ _ _).symm
  rw [of, add, List.map_cons, Meter.total_cons, List.length_cons, millis, events]
  rfl

theorem Metrics.of_perm {calls others : List MarkCall} (same : calls.Perm others) :
    Metrics.of calls = Metrics.of others := by
  rw [of, of, Meter.total_perm (same.map _), same.length_eq]

namespace Policy

def delays (policy : Policy) (memory : PageMemory) (progress : Option ProgressSnapshot)
    (inCheckpoint : Bool) : Bool :=
  match policy with
  | speed throttle => inCheckpoint && throttle.bufferOverflows memory
  | ratio throttle => throttle.exceeds? memory progress inCheckpoint = some true

def counted (policy : Policy) (call : MarkCall) : Bool :=
  match policy with
  | speed _ => call.answer ≠ .noThrottling
  | ratio _ => call.delayed

/-- A policy has come from another of its kind, and under the speed-based throttle the meter of
marks has recorded these samples. -/
def Sampled (start : Policy) (recorded : List (Nat × Nat)) (policy : Policy) : Prop :=
  match start, policy with
  | speed start, speed throttle => ∃ dropped, start.marks.Recorded recorded dropped throttle.marks
  | ratio _, ratio _ => True
  | _, _ => False

variable {start policy : Policy} {recorded : List (Nat × Nat)}

theorem Sampled.refl : start.Sampled [] start := by
  cases start with
  | speed throttle => exact ⟨[], .start⟩
  | ratio throttle => trivial

theorem Sampled.counted_eq (sampled : start.Sampled recorded policy) :
    policy.counted = start.counted := by
  cases start <;> cases policy <;> first | rfl | exact sampled.elim

theorem recorded_protect {start marks : Meter}
    (before : ∃ dropped, start.Recorded recorded dropped marks)
    (pages : CleanPages) (memory : PageMemory) (progress : Option ProgressSnapshot)
    (thread now : Nat) :
    ∃ dropped, start.Recorded recorded dropped
      (pages.protect marks memory progress thread now).2.2 := by
  cases seen : progress.bind (·.written) with
  | none =>
      rw [CleanPages.protect_of_unwritten _ _ _ seen]
      exact before
  | some written =>
      obtain ⟨progress, rfl, writing⟩ := Option.bind_eq_some_iff.mp seen
      rw [CleanPages.protect_of_writing _ _ _ writing]
      obtain ⟨dropped, before⟩ := before
      exact ⟨_, (before.read now).increment now⟩

theorem Sampled.decide (sampled : start.Sampled recorded policy) (memory : PageMemory)
    (progress : Option ProgressSnapshot) (inCheckpoint : Bool) (thread now : Nat) :
    start.Sampled recorded (policy.decide memory progress inCheckpoint thread now).2 := by
  match start, policy, sampled with
  | ratio _, ratio _, _ => trivial
  | speed start, speed throttle, sampled =>
      let kept (after : SpeedThrottle) : Prop :=
        ∃ dropped, start.marks.Recorded recorded dropped after.marks
      have decided : kept (throttle.decide memory progress inCheckpoint thread now).2 := by
        cases full : inCheckpoint && throttle.bufferOverflows memory with
        | true =>
            rw [SpeedThrottle.decide_of_full full]
            exact sampled
        | false =>
            rw [SpeedThrottle.decide_of_room full]
            exact recorded_protect sampled _ _ _ _ _
      exact kept_decideSpeed (fun _ now ⟨_, before⟩ => ⟨_, before.read now⟩) (fun _ _ => id)
        (fun _ _ => id) decided

theorem Sampled.begin (sampled : start.Sampled recorded policy) (now : Nat) :
    start.Sampled recorded (policy.begin now) := by
  match start, policy, sampled with
  | ratio _, ratio _, _ => trivial
  | speed _, speed _, sampled => exact sampled

theorem Sampled.finish (sampled : start.Sampled recorded policy) (now : Nat) :
    start.Sampled recorded (policy.finish now) := by
  match start, policy, sampled with
  | ratio _, ratio _, _ => trivial
  | speed start, speed throttle, sampled =>
      obtain ⟨dropped, recorded⟩ := sampled
      exact ⟨_, recorded.finish now⟩

theorem Sampled.relax (sampled : start.Sampled recorded policy) :
    start.Sampled recorded policy.relax := by
  match start, policy, sampled with
  | ratio _, ratio _, _ => trivial
  | speed _, speed _, sampled => exact sampled

theorem Sampled.complete (sampled : start.Sampled recorded policy) (call : MarkCall)
    (counts : start.counted call = true) :
    start.Sampled ((call.answer.duration, call.returned) :: recorded)
      (policy.complete call.answer call.returned) := by
  match start, policy, sampled with
  | ratio _, ratio _, _ => trivial
  | speed start, speed throttle, sampled =>
      cases answer : call.answer with
      | noThrottling => simp [counted, answer] at counts
      | measured nanos =>
          obtain ⟨dropped, recorded⟩ := sampled
          exact ⟨_, recorded.sample nanos call.returned⟩

/-! ### What a decision counts for -/

variable (policy : Policy) (memory : PageMemory) (progress : Option ProgressSnapshot)
  (inCheckpoint : Bool) (thread now : Nat)

theorem counts_decide (called returned : Nat) :
    let decided := policy.decide memory progress inCheckpoint thread now
    decided.2.counts decided.1 = policy.counted
      { answer := decided.1.answer
        called, returned
        delayed := policy.delays memory progress inCheckpoint } := by
  cases policy with
  | speed throttle => rfl
  | ratio throttle =>
      simp only [decide, decideRatio, counts, counted, delays]
      split <;> simp [*]

end Policy

namespace Writers

/-! ### The ledger of a run -/

structure Arrival where
  called : Nat
  delayed : Bool

def Arrival.call (arrival : Arrival) (answer : ParkTime) (returned : Nat) : MarkCall :=
  { answer, called := arrival.called, returned, delayed := arrival.delayed }

/-- The calls of a run: those of the writer that moves the clock, those that were made in the
background, by their numbers, and the ones of these that have returned. -/
structure Ledger where
  own : List MarkCall
  arrivals : List Arrival
  returned : List (Nat × MarkCall)

def Ledger.calls (ledger : Ledger) : List MarkCall := ledger.own ++ ledger.returned.map (·.2)

def arrival (writers : Writers) (inCheckpoint : Bool) : Arrival :=
  { called := writers.now
    delayed := writers.policy.delays writers.memory writers.progress.snapshot? inCheckpoint }

def ownCall (writers : Writers) (inCheckpoint : Bool) : MarkCall :=
  let marked := writers.mark inCheckpoint
  (writers.arrival inCheckpoint).call marked.1 marked.2.now

def ownCalls (inCheckpoint : Bool) : (count : Nat) → Writers → List MarkCall
  | 0, _ => []
  | count + 1, writers =>
    writers.ownCall inCheckpoint :: ownCalls inCheckpoint count (writers.mark inCheckpoint).2

def returning (arrivals : List Arrival) (now : Nat) (finished : List Finished) :
    List (Nat × MarkCall) :=
  finished.filterMap fun (number, answer) =>
    arrivals[number]?.map fun arrival => (number, arrival.call answer now)

def Ledger.enter (ledger : Ledger) (writers : Writers) : Request → Ledger
  | .mark inCheckpoint => { ledger with own := ledger.own ++ [writers.ownCall inCheckpoint] }
  | .markMany inCheckpoint count =>
    { ledger with own := ledger.own ++ ownCalls inCheckpoint count writers }
  | .startMark inCheckpoint =>
    { ledger with arrivals := ledger.arrivals ++ [writers.arrival inCheckpoint] }
  | _ => ledger

def Ledger.strike (ledger : Ledger) (now : Nat) (finished : List Finished) : Ledger :=
  { ledger with returned := ledger.returned ++ returning ledger.arrivals now finished }

def Ledger.after (ledger : Ledger) (writers : Writers) (request : Request) : Ledger :=
  let (reply, after) := writers.handle request
  (ledger.enter writers request).strike after.now reply.finished

def Ledger.over (ledger : Ledger) (writers : Writers) : List Request → Ledger
  | [] => ledger
  | request :: requests =>
    (ledger.after writers request).over (writers.handle request).2 requests

/-! ### Totals -/

/-- The metrics and the samples are those of the calls that count. -/
structure Balanced (start : Policy) (calls : List MarkCall) (writers : Writers) : Prop where
  metrics : writers.metrics = some (.of (calls.filter start.counted))
  sampled : ∃ recorded, start.Sampled recorded writers.policy ∧
    recorded.Perm ((calls.filter start.counted).map fun call =>
      (call.answer.duration, call.returned))
  measured : ∀ call ∈ calls.filter start.counted, call.answer ≠ .noThrottling

variable {start : Policy} {calls : List MarkCall} {writers : Writers}

theorem Balanced.perm (balanced : Balanced start calls writers) {others : List MarkCall}
    (same : calls.Perm others) : Balanced start others writers := by
  obtain ⟨recorded, sampled, samples⟩ := balanced.sampled
  have counted := same.filter start.counted
  exact ⟨balanced.metrics.trans (congrArg some (Metrics.of_perm counted)),
    ⟨recorded, sampled, samples.trans (counted.map _)⟩,
    fun call member => balanced.measured call (counted.mem_iff.2 member)⟩

theorem Balanced.congr (balanced : Balanced start calls writers) {other : Writers}
    (metrics : other.metrics = writers.metrics)
    (policy : ∀ recorded, start.Sampled recorded writers.policy →
      start.Sampled recorded other.policy) : Balanced start calls other := by
  obtain ⟨recorded, sampled, samples⟩ := balanced.sampled
  exact ⟨metrics.trans balanced.metrics, ⟨recorded, policy recorded sampled, samples⟩,
    balanced.measured⟩

theorem Balanced.returns (balanced : Balanced start calls writers) (call : MarkCall)
    (now : call.returned = writers.now)
    (measured : start.counted call = true → call.answer ≠ .noThrottling) :
    Balanced start (call :: calls)
      (if start.counted call then writers.complete call.answer call.called else writers) := by
  obtain ⟨recorded, sampled, samples⟩ := balanced.sampled
  cases counts : start.counted call with
  | false =>
      have others : (call :: calls).filter start.counted = calls.filter start.counted := by
        rw [List.filter_cons, if_neg (by rw [counts]; exact Bool.false_ne_true)]
      rw [if_neg Bool.false_ne_true]
      refine ⟨?_, ⟨recorded, sampled, ?_⟩, ?_⟩ <;> rw [others]
      · exact balanced.metrics
      · exact samples
      · exact balanced.measured
  | true =>
      have more : (call :: calls).filter start.counted =
          call :: calls.filter start.counted := by rw [List.filter_cons, if_pos counts]
      have completed := sampled.complete call counts
      rw [now] at completed
      rw [if_pos rfl]
      refine ⟨?_, ⟨_, completed, ?_⟩, ?_⟩ <;> rw [more]
      · rw [Metrics.of_cons, now]
        exact congrArg (Option.map (·.add (writers.now - call.called))) balanced.metrics
      · rw [← now]
        exact samples.cons _
      · exact List.forall_mem_cons.2 ⟨measured counts, balanced.measured⟩

theorem decide_policy (inCheckpoint : Bool) (thread : Nat) :
    (writers.decide inCheckpoint thread).2.policy =
      (writers.policy.decide writers.memory writers.progress.snapshot? inCheckpoint thread
        writers.now).2 := by
  simp only [decide]
  split <;> rfl

theorem Balanced.decide (balanced : Balanced start calls writers) (inCheckpoint : Bool)
    (thread : Nat) : Balanced start calls (writers.decide inCheckpoint thread).2 := by
  refine balanced.congr ?_ fun recorded sampled => ?_
  · simp only [Writers.decide]
    split <;> rfl
  · rw [decide_policy]
    exact sampled.decide _ _ _ _ _

theorem Balanced.counts (balanced : Balanced start calls writers) (inCheckpoint : Bool)
    (thread returned : Nat) :
    let decided := writers.decide inCheckpoint thread
    let call := (writers.arrival inCheckpoint).call decided.1.answer returned
    decided.2.policy.counts decided.1 = start.counted call ∧
      (start.counted call = true → call.answer ≠ .noThrottling) := by
  obtain ⟨recorded, sampled, -⟩ := balanced.sampled
  intro decided call
  have same : decided.2.policy.counts decided.1 = start.counted call := by
    rw [decide_policy, ← sampled.counted_eq]
    exact writers.policy.counts_decide _ _ _ _ _ _ _
  refine ⟨same, fun counts => ?_⟩
  rw [← same, decide_policy] at counts
  exact writers.policy.answer_of_counts _ _ _ _ _ counts

theorem Balanced.mark (balanced : Balanced start calls writers) (inCheckpoint : Bool) :
    Balanced start (writers.ownCall inCheckpoint :: calls) (writers.mark inCheckpoint).2 := by
  let decided := writers.decide inCheckpoint mainThread
  let later : Writers :=
    { decided.2 with clock := decided.2.clock + (decided.1.park.map (·.nanos)).getD 0 }
  let call := writers.ownCall inCheckpoint
  have moved : Balanced start calls later :=
    (balanced.decide inCheckpoint mainThread).congr rfl fun _ sampled => sampled
  have returned : call.returned = later.now := by
    simp only [call, ownCall, Arrival.call, Writers.mark]
    split <;> rfl
  obtain ⟨counts, measured⟩ : decided.2.policy.counts decided.1 = start.counted call ∧ _ :=
    balanced.counts inCheckpoint mainThread (writers.mark inCheckpoint).2.now
  have marked : (writers.mark inCheckpoint).2 =
      if start.counted call then later.complete call.answer call.called else later :=
    congrArg (fun counts : Bool =>
      if counts then later.complete call.answer call.called else later) counts
  rw [marked]
  exact moved.returns call returned measured

theorem Balanced.markMany (balanced : Balanced start calls writers) (inCheckpoint : Bool)
    (count : Nat) (last : Option ParkTime) :
    Balanced start (calls ++ ownCalls inCheckpoint count writers)
      (markMany inCheckpoint count last writers).2 := by
  induction count generalizing calls last writers with
  | zero => exact (List.append_nil calls).symm ▸ balanced
  | succ count ih =>
      refine (ih (balanced.mark inCheckpoint) _).perm ?_
      exact List.perm_middle.symm

/-! ### Background calls -/

def Awaited (start : Policy) (arrivals : List Arrival) (number : Nat) (task : ParkedWriter) :
    Prop :=
  task.answer ≠ .noThrottling ∧ ∃ arrival, arrivals[number]? = some arrival ∧
    arrival.called = task.since ∧
      ∀ returned, start.counted (arrival.call task.answer returned) = true

/-- The totals are those of the calls in the ledger, and of the calls made in the background each
has returned or is parked, and not both. -/
structure Accounted (start : Policy) (ledger : Ledger) (writers : Writers) : Prop where
  balanced : Balanced start ledger.calls writers
  started : ledger.arrivals.length = writers.standing.started
  awaited : ∀ entry ∈ writers.standing.tasks, Awaited start ledger.arrivals entry.1 entry.2
  numbers : (ledger.returned.map (·.1) ++ writers.standing.tasks.map (·.1)).Perm
    (List.range writers.standing.started)

variable {ledger : Ledger}

theorem Accounted.perm (accounted : Accounted start ledger writers)
    {returned : List (Nat × MarkCall)} (same : ledger.returned.Perm returned) :
    Accounted start { ledger with returned } writers :=
  ⟨accounted.balanced.perm ((same.map _).append_left _), accounted.started, accounted.awaited,
    ((same.map _).append_right _).symm.trans accounted.numbers⟩

theorem Accounted.congr (accounted : Accounted start ledger writers) {other : Writers}
    (metrics : other.metrics = writers.metrics) (standing : other.standing = writers.standing)
    (policy : ∀ recorded, start.Sampled recorded writers.policy →
      start.Sampled recorded other.policy) : Accounted start ledger other := by
  obtain ⟨balanced, started, awaited, numbers⟩ := accounted
  rw [← standing] at started awaited numbers
  exact ⟨balanced.congr metrics policy, started, awaited, numbers⟩

theorem Accounted.own (accounted : Accounted start ledger writers) {own : List MarkCall}
    {other : Writers} (balanced : Balanced start (ledger.calls ++ own) other)
    (standing : other.standing = writers.standing) :
    Accounted start { ledger with own := ledger.own ++ own } other := by
  obtain ⟨-, started, awaited, numbers⟩ := accounted
  rw [← standing] at started awaited numbers
  refine ⟨balanced.perm ?_, started, awaited, numbers⟩
  simp only [Ledger.calls, List.append_assoc]
  exact List.perm_append_comm.append_left _

theorem Awaited.concat {arrivals : List Arrival} {number : Nat} {task : ParkedWriter}
    (awaited : Awaited start arrivals number task) (arrival : Arrival) :
    Awaited start (arrivals ++ [arrival]) number task := by
  obtain ⟨measured, known, found, rest⟩ := awaited
  refine ⟨measured, known, ?_, rest⟩
  rwa [List.getElem?_append_left (List.getElem?_eq_some_iff.1 found).1]

theorem Accounted.enters (accounted : Accounted start ledger writers) {inCheckpoint : Bool}
    {arrival : Arrival} {struck : List (Nat × MarkCall)} {parked : List (Nat × ParkedWriter)}
    {other : Writers} (balanced : Balanced start (ledger.calls ++ struck.map (·.2)) other)
    (standing : other.standing = writers.standing.after parked (.startMark inCheckpoint))
    (number : struck.map (·.1) ++ parked.map (·.1) = [writers.standing.started])
    (awaited : ∀ entry ∈ parked, Awaited start (ledger.arrivals ++ [arrival]) entry.1 entry.2) :
    Accounted start
      { own := ledger.own
        arrivals := ledger.arrivals ++ [arrival]
        returned := ledger.returned ++ struck } other := by
  obtain ⟨-, started, before, numbers⟩ := accounted
  refine ⟨?_, ?_, ?_, ?_⟩
  · simpa only [Ledger.calls, List.map_append, List.append_assoc] using balanced
  · rw [standing, List.length_append, started]
    rfl
  · intro entry member
    rw [standing] at member
    rcases List.mem_append.1 member with old | new
    · exact (before entry old).concat arrival
    · exact awaited entry new
  · rw [standing]
    simp only [Standing.after, List.map_append, List.range_succ, List.append_assoc]
    refine ((List.perm_append_comm_assoc _ _ _).append_left _).trans ?_
    rw [number, ← List.append_assoc]
    exact numbers.append_right _

def startDecision (writers : Writers) (inCheckpoint : Bool) : Decision × Writers :=
  writers.decide inCheckpoint (mainThread + 1 + writers.started)

theorem startMark_of_stay {inCheckpoint : Bool}
    (stays : (writers.startDecision inCheckpoint).1.park = none) :
    let decided := writers.startDecision inCheckpoint
    let entered : Writers := { decided.2 with started := writers.started + 1 }
    writers.parking (.startMark inCheckpoint) = [] ∧
      writers.startMark inCheckpoint =
        (if entered.policy.counts decided.1 then entered.complete decided.1.answer writers.now
          else entered, [(writers.started, decided.1.answer)]) := by
  simp only [startDecision] at stays ⊢
  simp only [startMark, parking]
  rw [stays]
  exact ⟨rfl, rfl⟩

theorem startMark_of_park {inCheckpoint : Bool} {park : Park}
    (parks : (writers.startDecision inCheckpoint).1.park = some park) :
    let decided := writers.startDecision inCheckpoint
    let task : ParkedWriter :=
      { answer := decided.1.answer, since := writers.now, registered := park.registered }
    writers.parking (.startMark inCheckpoint) = [(writers.started, task)] ∧
      (writers.startMark inCheckpoint).2 = [] ∧
      (writers.startMark inCheckpoint).1.policy = decided.2.policy ∧
      (writers.startMark inCheckpoint).1.metrics = decided.2.metrics := by
  simp only [startDecision] at parks ⊢
  simp only [startMark, parking]
  rw [parks]
  exact ⟨rfl, rfl, rfl, rfl⟩

theorem Accounted.found (accounted : Accounted start ledger writers) (arrival : Arrival) :
    (ledger.arrivals ++ [arrival])[writers.started]? = some arrival := by
  rw [← show ledger.arrivals.length = writers.started from accounted.started]
  exact List.getElem?_concat_length

theorem Accounted.startMark_of_stay (accounted : Accounted start ledger writers)
    {inCheckpoint : Bool} (stays : (writers.startDecision inCheckpoint).1.park = none) :
    Accounted start
      ((ledger.enter writers (.startMark inCheckpoint)).strike
        (writers.startMark inCheckpoint).1.now (writers.startMark inCheckpoint).2)
      (writers.startMark inCheckpoint).1 := by
  let decided := writers.startDecision inCheckpoint
  let entered : Writers := { decided.2 with started := writers.started + 1 }
  let arrival := writers.arrival inCheckpoint
  let call := arrival.call decided.1.answer entered.now
  obtain ⟨nobody, started⟩ := Writers.startMark_of_stay stays
  have balanced : Balanced start ledger.calls entered :=
    (accounted.balanced.decide inCheckpoint _).congr rfl fun _ sampled => sampled
  obtain ⟨counts, measured⟩ : decided.2.policy.counts decided.1 = start.counted call ∧ _ :=
    accounted.balanced.counts inCheckpoint _ entered.now
  have after : (writers.startMark inCheckpoint).1 =
      if start.counted call then entered.complete call.answer call.called else entered := by
    rw [started, ← counts]
    rfl
  have returned : (writers.startMark inCheckpoint).1.now = entered.now := by
    rw [after]
    split <;> rfl
  have struck : returning (ledger.arrivals ++ [arrival]) (writers.startMark inCheckpoint).1.now
      (writers.startMark inCheckpoint).2 = [(writers.started, call)] := by
    rw [returned, started]
    simp only [returning, List.filterMap_cons, accounted.found arrival]
    rfl
  change Accounted start
    { own := ledger.own
      arrivals := ledger.arrivals ++ [arrival]
      returned := ledger.returned ++ returning (ledger.arrivals ++ [arrival]) _ _ } _
  rw [struck]
  refine accounted.enters ?_ (writers.startMark_standing inCheckpoint) ?_ ?_
  · rw [after]
    exact (balanced.returns call rfl measured).perm (List.perm_append_singleton _ _).symm
  · rw [nobody]
    rfl
  · rw [nobody]
    exact nofun

theorem Accounted.startMark_of_park (accounted : Accounted start ledger writers)
    {inCheckpoint : Bool} {park : Park}
    (parks : (writers.startDecision inCheckpoint).1.park = some park) :
    Accounted start
      ((ledger.enter writers (.startMark inCheckpoint)).strike
        (writers.startMark inCheckpoint).1.now (writers.startMark inCheckpoint).2)
      (writers.startMark inCheckpoint).1 := by
  let decided := writers.startDecision inCheckpoint
  let arrival := writers.arrival inCheckpoint
  obtain ⟨parked, finished, policy, metrics⟩ := Writers.startMark_of_park parks
  have balanced : Balanced start ledger.calls decided.2 := accounted.balanced.decide inCheckpoint _
  have struck : returning (ledger.arrivals ++ [arrival]) (writers.startMark inCheckpoint).1.now
      (writers.startMark inCheckpoint).2 = [] := by
    rw [finished]
    rfl
  change Accounted start
    { own := ledger.own
      arrivals := ledger.arrivals ++ [arrival]
      returned := ledger.returned ++ returning (ledger.arrivals ++ [arrival]) _ _ } _
  rw [struck]
  refine accounted.enters ?_ (writers.startMark_standing inCheckpoint) ?_ ?_
  · rw [List.map_nil, List.append_nil]
    exact balanced.congr metrics fun _ sampled => policy ▸ sampled
  · rw [parked]
    rfl
  · intro entry member
    rw [parked] at member
    cases List.mem_singleton.1 member
    have parked : decided.2.policy.counts decided.1 = true :=
      (congrArg (·.counts decided.1) (decide_policy inCheckpoint _)).trans
        (writers.policy.counts_of_park _ _ _ _ _ parks)
    have counts (returned : Nat) :
        start.counted (arrival.call decided.1.answer returned) = true :=
      (accounted.balanced.counts inCheckpoint _ returned).1.symm.trans parked
    have measured := (accounted.balanced.counts inCheckpoint _ 0).2 (counts 0)
    exact ⟨measured, arrival, accounted.found arrival, rfl, counts⟩

theorem Accounted.startMark (accounted : Accounted start ledger writers) (inCheckpoint : Bool) :
    Accounted start
      ((ledger.enter writers (.startMark inCheckpoint)).strike
        (writers.startMark inCheckpoint).1.now (writers.startMark inCheckpoint).2)
      (writers.startMark inCheckpoint).1 := by
  cases park : (writers.startDecision inCheckpoint).1.park with
  | none => exact accounted.startMark_of_stay park
  | some place => exact accounted.startMark_of_park park

/-! ### Requests and runs -/

theorem Ledger.strike_nil (now : Nat) : ledger.strike now [] = ledger := by
  simp only [strike, returning, List.filterMap_nil, List.append_nil]

theorem Ledger.strike_append (now : Nat) (first second : List Finished) :
    (ledger.strike now first).strike now second = ledger.strike now (first ++ second) := by
  simp only [strike, returning, List.filterMap_append, List.append_assoc]

theorem Accounted.serve (accounted : Accounted start ledger writers) (request : Request) :
    let served := writers.serve request
    Accounted start ((ledger.enter writers request).strike served.2.now served.1.finished)
      served.2 := by
  -- No other request has a background writer return before the parked ones go on.
  have others {entered : Ledger} {after : Writers} {now : Nat}
      (kept : Accounted start entered after) : Accounted start (entered.strike now []) after :=
    (Ledger.strike_nil now).symm ▸ kept
  cases request with
  | startMark inCheckpoint => exact accounted.startMark inCheckpoint
  | setMemory | advance => exact others (accounted.congr rfl rfl fun _ => id)
  | progress =>
      exact others ⟨accounted.balanced.congr rfl fun _ => id, accounted.started,
        accounted.awaited, accounted.numbers⟩
  | mark inCheckpoint =>
      refine others (accounted.own ?_ (writers.mark_standing inCheckpoint))
      exact (accounted.balanced.mark inCheckpoint).perm (List.perm_append_singleton _ _).symm
  | markMany inCheckpoint count =>
      exact others (accounted.own (accounted.balanced.markMany inCheckpoint count none)
        (writers.markMany_standing inCheckpoint count none))
  | beginCheckpoint =>
      exact others (accounted.congr rfl rfl fun _ sampled => sampled.begin writers.now)
  | finishCheckpoint =>
      exact others (accounted.congr rfl (wakeAll_standing _)
        fun _ sampled => sampled.finish writers.now)
  | wakeIfRelaxed =>
      refine others ?_
      simp only [Writers.serve, wakeIfRelaxed]
      split
      · exact accounted
      · exact accounted.congr rfl (wakeAll_standing _) fun _ sampled => sampled.relax

theorem Balanced.completeAll (balanced : Balanced start calls writers) {arrivals : List Arrival}
    (ready : List (Sleeper ParkedWriter))
    (awaited : ∀ sleeper ∈ ready, Awaited start arrivals sleeper.number sleeper.task) :
    let struck := returning arrivals writers.now
      (ready.map fun sleeper => (sleeper.number, sleeper.task.answer))
    struck.map (·.1) = ready.map (·.number) ∧
      Balanced start (calls ++ struck.map (·.2))
        (ready.foldl (fun writers sleeper =>
          writers.complete sleeper.task.answer sleeper.task.since) writers) := by
  induction ready generalizing calls writers with
  | nil => exact ⟨rfl, (List.append_nil calls).symm ▸ balanced⟩
  | cons sleeper ready ih =>
      obtain ⟨measured, arrival, found, called, counts⟩ := awaited sleeper List.mem_cons_self
      let call := arrival.call sleeper.task.answer writers.now
      have completed := balanced.returns call rfl fun _ => measured
      rw [if_pos (counts writers.now), show call.called = sleeper.task.since from called]
        at completed
      obtain ⟨numbers, rest⟩ := ih completed fun other member =>
        awaited other (List.mem_cons_of_mem _ member)
      have struck : returning arrivals writers.now
          ((sleeper :: ready).map fun sleeper => (sleeper.number, sleeper.task.answer)) =
            (sleeper.number, call) :: returning arrivals writers.now
              (ready.map fun sleeper => (sleeper.number, sleeper.task.answer)) := by
        simp only [returning, List.map_cons, List.filterMap_cons, found]
        rfl
      intro all
      rw [show all = _ from struck]
      exact ⟨congrArg (sleeper.number :: ·) numbers, rest.perm List.perm_middle.symm⟩

theorem Accounted.settle (accounted : Accounted start ledger writers) :
    Accounted start (ledger.strike writers.settle.1.now writers.settle.2) writers.settle.1 := by
  let ready := writers.parked.filter (·.canRun writers.clock)
  let left := writers.parked.filter (!·.canRun writers.clock)
  have now : writers.settle.1.now = writers.now := congrArg saturate writers.settle_clock
  have standing := writers.settle_standing
  have awaited {sleeper : Sleeper ParkedWriter} (member : sleeper ∈ writers.parked) :
      Awaited start ledger.arrivals sleeper.number sleeper.task :=
    accounted.awaited _ (List.mem_map_of_mem member)
  have parted : Balanced start ledger.calls { writers with parked := left } :=
    accounted.balanced.congr rfl fun _ => id
  obtain ⟨numbers, balanced⟩ := parted.completeAll ready fun sleeper member =>
    awaited (List.mem_filter.1 member).1
  rw [now]
  refine ⟨?_, ?_, ?_, ?_⟩
  · refine balanced.perm ?_
    rw [Ledger.calls, Ledger.calls, Ledger.strike, List.map_append, List.append_assoc]
    exact .rfl
  · rw [standing]
    exact accounted.started
  · rw [standing]
    intro entry member
    obtain ⟨sleeper, there, rfl⟩ := List.mem_map.1 member
    exact awaited (List.mem_filter.1 there).1
  · rw [standing]
    -- Those that go on and those that are left are together those that were parked.
    have split : (ready.map (·.number) ++ left.map (·.number)).Perm
        (writers.parked.map (·.number)) := by
      rw [← List.map_append]
      exact (List.filter_append_perm _ _).map _
    have before := accounted.numbers
    simp only [Writers.standing, Ledger.strike, List.map_append, List.map_map,
      List.append_assoc] at before ⊢
    refine (List.Perm.append_left _ ?_).trans before
    exact (congrArg (· ++ _) numbers) ▸ split

theorem Accounted.handle (accounted : Accounted start ledger writers) (request : Request) :
    Accounted start (ledger.after writers request) (writers.handle request).2 := by
  let served := writers.serve request
  have settled := (accounted.serve request).settle
  rw [show served.2.now = served.2.settle.1.now from
    congrArg saturate served.2.settle_clock.symm, Ledger.strike_append] at settled
  -- The answers are put in the order in which the calls were made.
  exact settled.perm (((List.mergeSort_perm _ _).symm.filterMap _).append_left _)

theorem Accounted.over (accounted : Accounted start ledger writers) (requests : List Request) :
    Accounted start (ledger.over writers requests) (writers.run requests) := by
  induction requests generalizing ledger writers with
  | nil => exact accounted
  | cons request requests ih => exact ih (accounted.handle request)

def Ledger.empty : Ledger := { own := [], arrivals := [], returned := [] }

/-- Along any run of writers and checkpoints under any policy, the metrics are those of the calls
that have returned and count, with no more than these as long as words of 64 bits hold them: under
the speed-based throttle those with a measured answer, be it zero, and otherwise those that were
given a delay. Under the speed-based throttle each of them has recorded one sample on its return, of
the time it was to park, however early it was woken: over all the intervals that the meter of marks
was given, these are counted and added up. Of the calls in the background each has returned once or
is parked. -/
theorem accounts_of_run (policy : Policy) (memory : PageMemory) (clock : Nat)
    (requests : List Request) :
    let start := new policy memory (some .zero) clock
    let after := start.run requests
    let ledger := Ledger.empty.over start requests
    let counted := ledger.calls.filter policy.counted
    after.metrics = some (.of counted) ∧
      (counted.length ≤ largest64 → (Metrics.of counted).events = counted.length) ∧
      (Meter.total (counted.map (·.millis)) ≤ largest64 →
        (Metrics.of counted).millis = Meter.total (counted.map (·.millis))) ∧
      (∀ throttle, policy = .speed throttle → ∃ later recorded dropped,
        after.policy = .speed later ∧ throttle.marks.Recorded recorded dropped later.marks ∧
          recorded.Perm (counted.map fun call => (call.answer.duration, call.returned)) ∧
          Meter.Tallied
            (Meter.overall (·.samples) throttle.marks.intervals + counted.length)
            (Meter.overall (·.sum) throttle.marks.intervals +
              Meter.total (counted.map (·.answer.duration))) dropped later.marks) ∧
      (∀ call ∈ counted, call.answer ≠ .noThrottling) ∧
      (ledger.returned.map (·.1) ++ after.parked.map (·.number)).Perm
        (List.range after.started) := by
  intro start after ledger counted
  have empty : Accounted policy .empty start :=
    ⟨⟨rfl, ⟨[], .refl, .rfl⟩, nofun⟩, rfl, nofun, .rfl⟩
  obtain ⟨⟨metrics, ⟨recorded, sampled, samples⟩, measured⟩, -, -, numbers⟩ := empty.over requests
  refine ⟨metrics, wrap64_of_le, wrap64_of_le, ?_, measured, ?_⟩
  · rintro throttle rfl
    cases kind : after.policy with
    | speed later =>
        rw [kind] at sampled
        obtain ⟨dropped, record⟩ := sampled
        have tallied := record.tallied
        have answers := Meter.total_perm (samples.map (·.1))
        rw [List.map_map] at answers
        rw [samples.length_eq, List.length_map, answers] at tallied
        exact ⟨later, recorded, dropped, rfl, record, samples, tallied⟩
    | ratio later =>
        rw [kind] at sampled
        exact sampled.elim
  · rwa [standing, List.map_map] at numbers

/-- The first writer is woken after three milliseconds of the five that it was to park, one parks
for its whole time, the second is not throttled and the last one is still parked. -/
theorem accounts_of_run_wokenEarly :
    let options : ThrottleOptions := { ThrottleOptions.default with startingParkNanos := 5000000 }
    let memory : PageMemory :=
      { bufferCount := 100, bufferSize := 100, totalPages := 1000, dirtyRatio := 0.1 }
    let requests : List Request :=
      [.startMark true, .startMark false, .advance 3000000, .finishCheckpoint, .mark true,
        .startMark true, .advance 1000000]
    let after := (new (.speed (.new options 0)) memory (some .zero) 0).run requests
    after.metrics = some { millis := 3 + 5, events := 2 } ∧
      ∃ later dropped, after.policy = .speed later ∧
        Meter.Tallied 2 (5000000 + 5000000) dropped later.marks := by
  intro options memory requests after
  let policy := Policy.speed (.new options 0)
  let start := new policy memory (some .zero) 0
  let counted := (Ledger.empty.over start requests).calls.filter policy.counted
  obtain ⟨metrics, -, -, samples, -⟩ := accounts_of_run policy memory 0 requests
  obtain ⟨later, -, dropped, same, -, -, tallied⟩ := samples _ rfl
  have fresh (told : Interval → Nat) (starts : ∀ now counter, told (.starting now counter) = 0) :
      Meter.overall told (SpeedThrottle.new options 0).marks.intervals = 0 := starts 0 0
  refine ⟨metrics.trans ?_, later, dropped, same, ?_⟩
  · decide +kernel
  · have answers : counted.map (·.answer.duration) = [5000000, 5000000] := by decide +kernel
    have two := congrArg List.length answers
    rw [List.length_map] at two
    rw [two, answers, fresh (·.samples) fun _ _ => rfl, fresh (·.sum) fun _ _ => rfl, Nat.zero_add,
      Nat.zero_add] at tallied
    exact tallied

end Writers

end Durability
