import Durability.Throttle.Policy
import Durability.Throttle.Sleepers

/-! Writers under a throttling policy, with the page memory they share, the running checkpoint
and a clock. One writer moves the clock: when it parks, the clock goes on by just that time.
Every other writer runs in the background on a thread of its own; it parks until the clock has
reached its time or it is woken, and goes on after the current request. Of the registry and its
signals only what they do to the sleepers is kept, which is `ParkingHost.sleepersAfter`. -/

namespace Durability

structure Metrics where
  millis : Nat
  events : Nat
  deriving DecidableEq, Repr

def Metrics.zero : Metrics := { millis := 0, events := 0 }

def Metrics.add (metrics : Metrics) (nanos : Nat) : Metrics :=
  { millis := wrap64 (metrics.millis + nanos / 1000000), events := wrap64 (metrics.events + 1) }

/-- What a parked writer goes on with: the answer it gets, when it was decided on, and whether it
is in the registry. -/
structure ParkedWriter where
  answer : ParkTime
  since : Nat
  registered : Bool
  deriving DecidableEq, Repr

structure Writers where
  policy : Policy
  memory : PageMemory
  progress : CheckpointProgress
  clock : Nat
  /-- What was counted; absent if nothing is. -/
  metrics : Option Metrics
  /-- The parked writers in the order in which they were started. -/
  parked : List (Sleeper ParkedWriter)
  /-- How many background writers were started. -/
  started : Nat
  journal : List ThrottleNotice

namespace Writers

def new (policy : Policy) (memory : PageMemory) (metrics : Option Metrics) (clock : Nat) :
    Writers :=
  { policy, memory, progress := .idle, clock, metrics, parked := [], started := 0, journal := [] }

abbrev Finished := Nat × ParkTime

/-- The time that the clock shows: at most the largest number of 64 bits. -/
def now (writers : Writers) : Nat := saturate writers.clock

def mainThread : Nat := 0

def registered (writers : Writers) : Nat := writers.parked.countP (·.task.registered)

def wakeAll (writers : Writers) : Writers :=
  { writers with parked := writers.parked.map (·.wakeIf (·.registered)) }

def decide (writers : Writers) (inCheckpoint : Bool) (thread : Nat) : Decision × Writers :=
  let (decision, policy) := writers.policy.decide writers.memory writers.progress.snapshot?
    inCheckpoint thread writers.now
  let decided := { writers with policy, journal := writers.journal ++ decision.notices }
  (decision, if decision.wakes then decided.wakeAll else decided)

def complete (writers : Writers) (answer : ParkTime) (since : Nat) : Writers :=
  { writers with
    policy := writers.policy.complete answer writers.now
    metrics := writers.metrics.map (·.add (writers.now - since)) }

def mark (writers : Writers) (inCheckpoint : Bool) : ParkTime × Writers :=
  let since := writers.now
  let (decision, decided) := writers.decide inCheckpoint mainThread
  let nanos := (decision.park.map (·.nanos)).getD 0
  let later := { decided with clock := decided.clock + nanos }
  (decision.answer,
    if decided.policy.counts decision then later.complete decision.answer since else later)

def markMany (inCheckpoint : Bool) : (count : Nat) → (last : Option ParkTime) → Writers →
    Option ParkTime × Writers
  | 0, last, writers => (last, writers)
  | count + 1, _, writers =>
    let (answer, writers) := writers.mark inCheckpoint
    markMany inCheckpoint count (some answer) writers

def startMark (writers : Writers) (inCheckpoint : Bool) : Writers × List Finished :=
  let since := writers.now
  let number := writers.started
  let (decision, decided) := writers.decide inCheckpoint (mainThread + 1 + number)
  let decided := { decided with started := number + 1 }
  match decision.park with
  | none =>
    (if decided.policy.counts decision then decided.complete decision.answer since else decided,
      [(number, decision.answer)])
  | some park =>
    let sleeper : Sleeper ParkedWriter :=
      { number
        deadline := some (decided.clock + park.nanos)
        woken := false
        task := { answer := decision.answer, since, registered := park.registered } }
    ({ decided with parked := decided.parked ++ [sleeper] }, [])

def settle (writers : Writers) : Writers × List Finished :=
  let ready := writers.parked.filter (·.canRun writers.clock)
  let left := { writers with parked := writers.parked.filter (!·.canRun writers.clock) }
  (ready.foldl (fun writers sleeper => writers.complete sleeper.task.answer sleeper.task.since)
      left,
    ready.map fun sleeper => (sleeper.number, sleeper.task.answer))

def beginCheckpoint (writers : Writers) : Writers :=
  { writers with policy := writers.policy.begin writers.now }

def finishCheckpoint (writers : Writers) : Writers :=
  { writers with policy := writers.policy.finish writers.now }.wakeAll

def wakeIfRelaxed (writers : Writers) : Writers :=
  if writers.policy.bufferOverflows writers.memory then writers
  else { writers with policy := writers.policy.relax }.wakeAll

def advance (writers : Writers) (nanos : Nat) : Writers :=
  { writers with clock := writers.clock + nanos }

inductive Request where
  | setMemory (memory : PageMemory)
  | progress (event : CheckpointProgress.Event)
  | advance (nanos : Nat)
  | mark (inCheckpoint : Bool)
  | markMany (inCheckpoint : Bool) (count : Nat)
  | startMark (inCheckpoint : Bool)
  | beginCheckpoint
  | finishCheckpoint
  | wakeIfRelaxed

structure Reply where
  answer : Option ParkTime
  finished : List Finished

def serve (writers : Writers) : Request → Reply × Writers
  | .setMemory memory => ({ answer := none, finished := [] }, { writers with memory })
  | .progress event =>
    ({ answer := none, finished := [] }, { writers with progress := writers.progress.after event })
  | .advance nanos => ({ answer := none, finished := [] }, writers.advance nanos)
  | .mark inCheckpoint =>
    let (answer, writers) := writers.mark inCheckpoint
    ({ answer := some answer, finished := [] }, writers)
  | .markMany inCheckpoint count =>
    let (answer, writers) := markMany inCheckpoint count none writers
    ({ answer, finished := [] }, writers)
  | .startMark inCheckpoint =>
    let (writers, finished) := writers.startMark inCheckpoint
    ({ answer := none, finished }, writers)
  | .beginCheckpoint => ({ answer := none, finished := [] }, writers.beginCheckpoint)
  | .finishCheckpoint => ({ answer := none, finished := [] }, writers.finishCheckpoint)
  | .wakeIfRelaxed => ({ answer := none, finished := [] }, writers.wakeIfRelaxed)

/-- Carries out a request and lets the parked writers go on that can. Answers are in the order in
which the writers were started. -/
def handle (writers : Writers) (request : Request) : Reply × Writers :=
  let (reply, served) := writers.serve request
  let (settled, finished) := served.settle
  ({ reply with
     finished := (reply.finished ++ finished).mergeSort fun one other => one.1 ≤ other.1 },
    settled)

end Writers

end Durability
