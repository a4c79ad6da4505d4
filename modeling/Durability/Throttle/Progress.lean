import Durability.Number.Rounding

/-! The progress of a checkpoint: how many pages it covers and how many of them were written,
brought to stable storage, or evicted before they were written. -/

namespace Durability

/-- The progress of the running checkpoint as others see it. The pages written are absent until
it has started to write. -/
structure ProgressSnapshot where
  written : Option Nat
  synced : Nat
  evicted : Nat
  total : Nat
  deriving DecidableEq, Repr

namespace ProgressSnapshot

def idle : ProgressSnapshot := { written := none, synced := 0, evicted := 0, total := 0 }

def writtenOrZero (snapshot : ProgressSnapshot) : Nat := snapshot.written.getD 0

end ProgressSnapshot

structure CheckpointProgress where
  running : Bool
  writing : Bool
  written : Nat
  synced : Nat
  evicted : Nat
  total : Nat
  deriving DecidableEq, Repr

namespace CheckpointProgress

def idle : CheckpointProgress :=
  { running := false, writing := false, written := 0, synced := 0, evicted := 0, total := 0 }

def start (total : Nat) : CheckpointProgress := { idle with running := true, total }

def startWriting (progress : CheckpointProgress) : CheckpointProgress :=
  { progress with writing := true }

def addWritten (progress : CheckpointProgress) (pages : Nat) : CheckpointProgress :=
  { progress with written := wrap64 (progress.written + pages) }

def addSynced (progress : CheckpointProgress) (pages : Nat) : CheckpointProgress :=
  { progress with synced := wrap64 (progress.synced + pages) }

def addEvicted (progress : CheckpointProgress) (pages : Nat) : CheckpointProgress :=
  { progress with evicted := wrap64 (progress.evicted + pages) }

def finish (progress : CheckpointProgress) : CheckpointProgress :=
  { progress with running := false, writing := false }

inductive Event where
  | start (total : Nat)
  | startWriting
  | written (pages : Nat)
  | synced (pages : Nat)
  | evicted (pages : Nat)
  | finish
  deriving DecidableEq, Repr

def after (progress : CheckpointProgress) : Event → CheckpointProgress
  | .start total => .start total
  | .startWriting => progress.startWriting
  | .written pages => progress.addWritten pages
  | .synced pages => progress.addSynced pages
  | .evicted pages => progress.addEvicted pages
  | .finish => progress.finish

def snapshot? (progress : CheckpointProgress) : Option ProgressSnapshot :=
  if progress.running then
    some { written := if progress.writing then some progress.written else none
           synced := progress.synced
           evicted := progress.evicted
           total := progress.total }
  else none

end CheckpointProgress

end Durability
