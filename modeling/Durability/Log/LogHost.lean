import Durability.Log.Cleaner

/-! A log together with its storage, a clock and the background callers that wait for it. A
request is carried out completely before any background caller goes on; then each of them goes
on until it has finished or is blocked again. A caller that waits for the archive size looks at
it again only when it has been signalled since it last looked. One request lets callers go on in
between: a cleaner that is stopped calls the waits off and, once it has ended, allows them again,
and a prompt wait looks before that. -/

namespace Durability

inductive Caller where
  /-- Waits for the archive to reach a size; `seen` is the signal count when it last looked. -/
  | sizeWait (number : Nat) (size : Int) (seen : Option Nat)
  /-- Waited for a size and is about to return. -/
  | returning (number : Nat) (size : Int) (result : Except Error Unit)
  /-- Waited for a size and was broken off; it never returns. -/
  | broken (number : Nat) (size : Int)
  | cleaner (cleaner : Cleaner)

def Caller.look (archive : Archive) : Caller → Caller
  | sizeWait number size _ =>
    match archive.look size with
    | .lacking => sizeWait number size (some archive.signals)
    | .reached => returning number size (.ok ())
    | .calledOff => returning number size (.error .sizeWaitInterrupted)
    | .broken => broken number size
  | caller => caller

structure LogHost where
  segments : Segments
  storage : Storage
  clock : Nat
  /-- The callers that have not returned, in the order in which they were started. -/
  callers : List Caller
  /-- How many waits for the size have been started. -/
  started : Nat
  /-- The waits that look at the archive while a stopped cleaner has called them off. -/
  prompt : List Nat

namespace LogHost

abbrev Finished := Nat × Except Error Unit

def start (options : WalOptions) (onOverflow : Overflow) : LogHost :=
  { segments := .ofOptions options onOverflow, storage := .empty, clock := 0, callers := [],
    started := 0, prompt := [] }

def ofOptions (options : WalOptions) : LogHost := start options .wraps

def returned : Caller → Option Caller × List Finished
  | .returning number _ result => (none, [(number, result)])
  | caller => (some caller, [])

def resumeCaller (clock : Nat) (storage : Storage) (segments : Segments) :
    Caller → (Option Caller × List Finished) × Segments
  | .sizeWait number size seen =>
    let caller := Caller.sizeWait number size seen
    if seen = some segments.archive.signals then ((some caller, []), segments)
    else (returned (caller.look segments.archive), segments)
  | .cleaner cleaner =>
    let after := cleaner.run clock storage segments
    ((some (.cleaner after.1), []), after.2)
  | caller => (returned caller, segments)

def resumeAll (clock : Nat) (storage : Storage) :
    List Caller → Segments → (List Caller × List Finished) × Segments
  | [], segments => (([], []), segments)
  | caller :: callers, segments =>
    let first := resumeCaller clock storage segments caller
    let others := resumeAll clock storage callers first.2
    ((first.1.1.toList ++ others.1.1, first.1.2 ++ others.1.2), others.2)

def round (host : LogHost) : LogHost × List Finished :=
  let after := resumeAll host.clock host.storage host.callers host.segments
  ({ host with callers := after.1.1, segments := after.2 }, after.1.2)

/-- Lets the callers go on until none of them can. Only the cleaner signals others, so a second
round is enough for those that went on before it. The results are in the order in which the
waits were started. -/
def settle (host : LogHost) : LogHost × List Finished :=
  let first := host.round
  let second := first.1.round
  (second.1, (first.2 ++ second.2).mergeSort fun one other => one.1 ≤ other.1)

def waiting (host : LogHost) : Nat :=
  host.callers.countP fun caller => match caller with
    | .sizeWait _ _ _ => true
    | .returning _ _ _ | .broken _ _ | .cleaner _ => false

def cleaner? (host : LogHost) : Option Cleaner :=
  host.callers.findSome? fun caller => match caller with
    | .cleaner cleaner => some cleaner
    | .sizeWait _ _ _ | .returning _ _ _ | .broken _ _ => none

def withoutCleaner (host : LogHost) : LogHost :=
  { host with callers := host.callers.filter fun caller => match caller with
      | .cleaner _ => false
      | .sizeWait _ _ _ | .returning _ _ _ | .broken _ _ => true }

def lookPromptly (host : LogHost) : LogHost :=
  { host with callers := host.callers.map fun caller => match caller with
      | .sizeWait number _ _ =>
        if number ∈ host.prompt then caller.look host.segments.archive else caller
      | .returning _ _ _ | .broken _ _ | .cleaner _ => caller }

/-- Stops the cleaner: it is told to stop, its wait for the size is called off, it runs to its
end, and only then can callers wait for the size again. -/
def stopCleaner (host : LogHost) : LogHost :=
  match host.cleaner? with
  | none => host
  | some cleaner =>
    let calledOff := { host with segments := host.segments.interrupt }
    let ended := { cleaner with stopped := true }.run host.clock host.storage calledOff.segments
    { calledOff.lookPromptly.withoutCleaner with segments := ended.2.resume }

def startCleaner (host : LogHost) (pause : Nat) : Except Error LogHost :=
  match Cleaner.new host.segments.archive pause with
  | .error cause => .error cause
  | .ok cleaner =>
    let host := host.stopCleaner
    .ok { host with callers := host.callers ++ [.cleaner cleaner] }

def startSizeWait (host : LogHost) (size : Int) : LogHost :=
  { host with
    callers := host.callers ++ [.sizeWait host.started size none]
    started := host.started + 1 }

inductive Request where
  | call (call : Segments.Call)
  | truncate (threshold : Int)
  | startSizeWait (size : Int)
  | startCleaner (pause : Nat)
  | stopCleaner
  | setCheckpoint (segment : Option Nat)
  | setFailure (failure : Nat → Option Error)
  /-- From now on these waits are the prompt ones. -/
  | setPrompt (numbers : List Nat)
  | advance (nanos : Nat)

/-- What a request gave. A call that was broken off counts as refused. -/
inductive Reply where
  | done
  | refused
  | deleted (count : Nat)
  | failed (cause : Error)
  deriving DecidableEq, Repr

def serve (host : LogHost) : Request → Reply × LogHost
  | .call call =>
    let answer := host.segments.answer call
    (if answer.1 = .done then .done else .refused, { host with segments := answer.2 })
  | .truncate threshold =>
    match host.storage.truncate threshold host.segments with
    | (.ok count, segments) => (.deleted count, { host with segments })
    | (.error cause, segments) => (.failed cause, { host with segments })
  | .startSizeWait size => (.done, host.startSizeWait size)
  | .startCleaner pause =>
    match host.startCleaner pause with
    | .ok host => (.done, host)
    | .error cause => (.failed cause, host)
  | .stopCleaner => (.done, host.stopCleaner)
  | .setCheckpoint segment =>
    (.done, { host with storage := { host.storage with checkpoint := segment } })
  | .setFailure failure => (.done, { host with storage := { host.storage with failure } })
  | .setPrompt numbers => (.done, { host with prompt := numbers })
  | .advance nanos => (.done, { host with clock := host.clock + nanos })

def handle (host : LogHost) (request : Request) : Reply × LogHost × List Finished :=
  let served := host.serve request
  (served.1, served.2.settle)

end LogHost

end Durability
