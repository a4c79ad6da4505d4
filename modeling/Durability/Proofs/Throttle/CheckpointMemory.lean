import Durability.Throttle.CleanPages
import Mathlib.Data.List.Dedup
import Mathlib.Data.List.DropRight
import Mathlib.Data.List.Induction

/-! What the protection of clean pages remembers while checkpoints come and go. It keeps the dirty
ratio of the first decision that sees written pages until the next checkpoint begins, the threads
that were decided on until the checkpoint ends, and the dirty ratio of the last decision for good.
Each of these is read off the calls and their answers alone. -/

namespace Durability

namespace CleanPages

/-! ### Calls and their answers -/

inductive Call where
  /-- A thread asks how long to park. The meter of marks is shared with others; each call finds it
  as these have left it. -/
  | protect (marks : Meter) (memory : PageMemory) (progress : Option ProgressSnapshot)
      (thread : Nat)
  | reset
  | close
  | readWriteSpeed

namespace Call

def isReset : Call → Bool
  | reset => true
  | _ => false

def isClose : Call → Bool
  | close => true
  | _ => false

end Call

structure Answered where
  call : Call
  answer : Option ParkTime

def answer (pages : CleanPages) (now : Nat) : Call → Option ParkTime
  | .protect marks memory progress thread =>
    some (pages.protect marks memory progress thread now).1
  | .reset | .close | .readWriteSpeed => none

def asked (pages : CleanPages) (now : Nat) (call : Call) : Answered :=
  { call, answer := pages.answer now call }

def after (pages : CleanPages) (now : Nat) : Call → CleanPages
  | .protect marks memory progress thread =>
    (pages.protect marks memory progress thread now).2.1
  | .reset => pages.reset now
  | .close => pages.close now
  | .readWriteSpeed => (pages.readWriteSpeed now).2

def run (pages : CleanPages) (calls : List (Nat × Call)) : CleanPages :=
  calls.foldl (fun pages (now, call) => pages.after now call) pages

def record (pages : CleanPages) : List (Nat × Call) → List Answered
  | [] => []
  | (now, call) :: calls => pages.asked now call :: (pages.after now call).record calls

theorem run_concat (pages : CleanPages) (calls : List (Nat × Call)) (now : Nat) (call : Call) :
    pages.run (calls ++ [(now, call)]) = (pages.run calls).after now call := by
  rw [run, List.foldl_append]
  rfl

theorem record_concat (pages : CleanPages) (calls : List (Nat × Call)) (now : Nat) (call : Call) :
    pages.record (calls ++ [(now, call)]) =
      pages.record calls ++ [(pages.run calls).asked now call] := by
  induction calls generalizing pages with
  | nil => rfl
  | cons made calls ih => exact congrArg (_ :: ·) (ih _)

/-! ### Computations -/

/-- A decision that saw a checkpoint writing pages: the thread that it was on, and what it saw of
the checkpoint and of the page memory. -/
structure Computation where
  thread : Nat
  snapshot : ProgressSnapshot
  ratio : Float

namespace Computation

def sized (seen : Computation) : Bool := seen.snapshot.total ≠ 0

def captures (seen : Computation) : Bool := 0 < seen.snapshot.writtenOrZero && seen.sized

end Computation

/-- The computation that a call comes to if the checkpoint that it sees reports written pages. -/
def Answered.computation? (made : Answered) : Option Computation :=
  match made.call with
  | .protect _ memory progress thread =>
    progress.bind fun snapshot => snapshot.written.map fun _ =>
      { thread, snapshot, ratio := memory.dirtyRatio }
  | _ => none

def Answered.thread? (made : Answered) : Option Nat :=
  match made.call with
  | .protect _ _ _ thread => if made.answer = some .noThrottling then none else some thread
  | _ => none

def computations (record : List Answered) : List Computation := record.filterMap (·.computation?)

/-- The calls since the last one that ends what came before it. -/
def since (ends : Call → Bool) (record : List Answered) : List Answered :=
  record.rtakeWhile fun made => !ends made.call

def captured? (record : List Answered) : Option Computation :=
  (computations (since Call.isReset record)).find? (·.captures)

def lastSized? (record : List Answered) : Option Computation :=
  (computations record).reverse.find? (·.sized)

def decidedThreads (record : List Answered) : List Nat :=
  (since Call.isClose record).filterMap (·.thread?)

theorem computations_concat (record : List Answered) (made : Answered) :
    computations (record ++ [made]) = computations record ++ made.computation?.toList := by
  rw [computations, List.filterMap_append]
  cases found : made.computation? <;> simp [computations, found]

theorem since_concat (ends : Call → Bool) (record : List Answered) (made : Answered) :
    since ends (record ++ [made]) =
      if ends made.call then [] else since ends record ++ [made] := by
  rw [since, List.rtakeWhile_concat]
  cases ends made.call <;> rfl

section Concat

variable {record : List Answered} {made : Answered}

theorem captured?_concat (goesOn : made.call.isReset = false) :
    captured? (record ++ [made]) =
      (captured? record).or (made.computation?.filter (·.captures)) := by
  rw [captured?, since_concat, goesOn, if_neg Bool.false_ne_true, computations_concat,
    List.find?_append]
  cases made.computation? <;> simp [captured?, Option.filter, List.find?_singleton]

theorem captured?_concat_reset (resets : made.call.isReset = true) :
    captured? (record ++ [made]) = none := by
  rw [captured?, since_concat, if_pos resets]
  rfl

theorem lastSized?_concat :
    lastSized? (record ++ [made]) =
      (made.computation?.filter (·.sized)).or (lastSized? record) := by
  rw [lastSized?, computations_concat, List.reverse_append, List.find?_append]
  cases made.computation? <;> simp [lastSized?, Option.filter, List.find?_singleton]

theorem decidedThreads_concat (goesOn : made.call.isClose = false) :
    decidedThreads (record ++ [made]) = decidedThreads record ++ made.thread?.toList := by
  rw [decidedThreads, since_concat, goesOn, if_neg Bool.false_ne_true, List.filterMap_append]
  cases found : made.thread? <;> simp [decidedThreads, found]

theorem decidedThreads_concat_close (closes : made.call.isClose = true) :
    decidedThreads (record ++ [made]) = [] := by
  rw [decidedThreads, since_concat, if_pos closes]
  rfl

end Concat

/-! ### What a call does to the memory -/

def remembered (pages : CleanPages) : Nat × Float × Float × List Nat :=
  (pages.firstWritten, pages.initialRatio, pages.currentRatio, pages.threads)

def observe (pages : CleanPages) (seen : Computation) : CleanPages :=
  let pages := pages.noteThread seen.thread
  if seen.sized then
    { pages with currentRatio := seen.ratio }.noteWriteStart seen.snapshot.writtenOrZero seen.ratio
  else pages

theorem remembered_parkNanosAt (pages : CleanPages) (memory : PageMemory)
    (snapshot : ProgressSnapshot) (written markSpeed writeSpeed : Nat) :
    (pages.parkNanosAt memory snapshot written markSpeed writeSpeed).2.remembered =
      (if snapshot.total = 0 then pages
        else { pages with currentRatio := memory.dirtyRatio }.noteWriteStart written
          memory.dirtyRatio).remembered := by
  simp only [parkNanosAt, parkNanosAtBy]
  split
  · rfl
  · split <;> rfl

theorem remembered_protect (pages : CleanPages) (marks : Meter) (memory : PageMemory)
    {snapshot : ProgressSnapshot} {written : Nat} (writing : snapshot.written = some written)
    (thread now : Nat) :
    (pages.protect marks memory (some snapshot) thread now).2.1.remembered =
      (pages.observe { thread, snapshot, ratio := memory.dirtyRatio }).remembered := by
  rw [protect_of_writing _ _ _ writing]
  simp only [writing, remembered_parkNanosAt, observe, Computation.sized,
    ProgressSnapshot.writtenOrZero, Option.getD_some, noteWriteStart]
  by_cases unsized : snapshot.total = 0
  · rw [if_pos unsized, if_neg (by simp [unsized])]
    rfl
  · rw [if_neg unsized, if_pos (decide_eq_true unsized)]
    split <;> rfl

section Observe

variable (pages : CleanPages) (seen : Computation)

theorem observe_threads :
    (pages.observe seen).threads = (pages.noteThread seen.thread).threads := by
  simp only [observe, noteWriteStart]
  split
  · split <;> rfl
  · rfl

theorem observe_currentRatio :
    (pages.observe seen).currentRatio = if seen.sized then seen.ratio else pages.currentRatio := by
  simp only [observe, noteWriteStart]
  split
  · split <;> rfl
  · rfl

theorem observe_of_first (captures : seen.captures = true) (first : pages.firstWritten = 0) :
    (pages.observe seen).firstWritten = seen.snapshot.writtenOrZero ∧
      (pages.observe seen).initialRatio = clampRatio seen.ratio := by
  obtain ⟨written, sized⟩ := Bool.and_eq_true_iff.mp captures
  have both : 0 < seen.snapshot.writtenOrZero ∧ (pages.noteThread seen.thread).firstWritten = 0 :=
    ⟨of_decide_eq_true written, first⟩
  simp only [observe, noteWriteStart, if_pos sized, if_pos both, and_self]

theorem observe_of_later (later : ¬(seen.captures = true ∧ pages.firstWritten = 0)) :
    (pages.observe seen).firstWritten = pages.firstWritten ∧
      (pages.observe seen).initialRatio = pages.initialRatio := by
  simp only [observe, noteWriteStart]
  split
  · next sized =>
      have either : ¬(0 < seen.snapshot.writtenOrZero ∧
          (pages.noteThread seen.thread).firstWritten = 0) := fun both =>
        later ⟨Bool.and_eq_true_iff.mpr ⟨decide_eq_true both.1, sized⟩, both.2⟩
      rw [if_neg either]
      exact ⟨rfl, rfl⟩
  · exact ⟨rfl, rfl⟩

end Observe

theorem asked_of_unwritten (pages : CleanPages) (marks : Meter) (memory : PageMemory)
    {progress : Option ProgressSnapshot} (unwritten : progress.bind (·.written) = none)
    (thread now : Nat) :
    let made := pages.asked now (.protect marks memory progress thread)
    made.computation? = none ∧ made.thread? = none := by
  constructor
  · cases progress with
    | none => rfl
    | some snapshot => exact congrArg (Option.map _) unwritten
  · have inapplicable := pages.protect_of_unwritten marks memory unwritten thread now
    simp [Answered.thread?, asked, answer, inapplicable]

theorem asked_of_writing (pages : CleanPages) (marks : Meter) (memory : PageMemory)
    {snapshot : ProgressSnapshot} {written : Nat} (writing : snapshot.written = some written)
    (thread now : Nat) :
    let made := pages.asked now (.protect marks memory (some snapshot) thread)
    made.computation? = some { thread, snapshot, ratio := memory.dirtyRatio } ∧
      made.thread? = some thread := by
  constructor
  · exact congrArg (Option.map _) writing
  · have measured := pages.protect_of_writing marks memory writing thread now
    simp [Answered.thread?, asked, answer, measured]

/-! ### What the memory holds -/

/-- The memory holds the ratio of the computation that the checkpoint was first seen writing by, the
ratio of the last one that knew the size of its checkpoint, and the threads that were decided on,
each once. -/
structure Holds (captured last : Option Computation) (decided : List Nat) (pages : CleanPages) :
    Prop where
  first : pages.firstWritten = 0 ↔ captured = none
  initial : pages.initialRatio = (captured.map (clampRatio ·.ratio)).getD minRatio
  current : pages.currentRatio = (last.map (·.ratio)).getD 0.0
  distinct : pages.threads.Nodup
  threads : ∀ thread, thread ∈ pages.threads ↔ thread ∈ decided

variable {captured last : Option Computation} {decided : List Nat} {pages : CleanPages}

theorem holds_new (built : Nat) : Holds none none [] (new built) where
  first := iff_of_true rfl rfl
  initial := rfl
  current := rfl
  distinct := List.nodup_nil
  threads := fun _ => iff_of_false List.not_mem_nil List.not_mem_nil

theorem Holds.congr {other : CleanPages} (holds : Holds captured last decided pages)
    (same : other.remembered = pages.remembered) : Holds captured last decided other := by
  simp only [remembered, Prod.mk.injEq] at same
  obtain ⟨first, initial, current, threads⟩ := same
  exact ⟨first ▸ holds.first, initial.trans holds.initial, current.trans holds.current,
    threads ▸ holds.distinct, threads ▸ holds.threads⟩

theorem Holds.noteThread (holds : Holds captured last decided pages) (thread : Nat) :
    (pages.noteThread thread).threads.Nodup ∧
      ∀ each, each ∈ (pages.noteThread thread).threads ↔ each ∈ decided ++ [thread] := by
  simp only [CleanPages.noteThread, List.mem_append, List.mem_singleton, ← holds.threads]
  split
  · next known =>
      refine ⟨holds.distinct, fun each => (or_iff_left_of_imp ?_).symm⟩
      rintro rfl
      exact known
  · next unknown =>
      refine ⟨List.nodup_cons.mpr ⟨unknown, holds.distinct⟩, fun each => ?_⟩
      rw [List.mem_cons, or_comm]

theorem Holds.observe (holds : Holds captured last decided pages) (seen : Computation) :
    Holds (captured.or ((some seen).filter (·.captures))) (((some seen).filter (·.sized)).or last)
      (decided ++ [seen.thread]) (pages.observe seen) := by
  obtain ⟨distinct, threads⟩ := holds.noteThread seen.thread
  rw [← observe_threads] at distinct threads
  have current : (pages.observe seen).currentRatio =
      ((((some seen).filter (·.sized)).or last).map (·.ratio)).getD 0.0 := by
    rw [observe_currentRatio, holds.current]
    cases sized : seen.sized <;> simp [Option.filter, sized]
  by_cases captures : seen.captures = true ∧ pages.firstWritten = 0
  · obtain ⟨captures, fresh⟩ := captures
    obtain ⟨first, initial⟩ := observe_of_first pages seen captures fresh
    obtain rfl := holds.first.mp fresh
    have written : seen.snapshot.writtenOrZero ≠ 0 :=
      (of_decide_eq_true (Bool.and_eq_true_iff.mp captures).1).ne'
    rw [Option.none_or, Option.filter_some_pos captures]
    exact ⟨iff_of_false (first ▸ written) nofun, initial, current, distinct, threads⟩
  · obtain ⟨first, initial⟩ := observe_of_later pages seen captures
    have same : captured.or ((some seen).filter (·.captures)) = captured := by
      cases captured with
      | some known => exact Option.some_or
      | none =>
          have unseen : seen.captures = false :=
            Bool.eq_false_iff.mpr fun sees => captures ⟨sees, holds.first.mpr rfl⟩
          rw [Option.filter_some_neg unseen, Option.or_none]
    rw [same]
    exact ⟨first ▸ holds.first, initial.trans holds.initial, current, distinct, threads⟩

theorem Holds.reset (holds : Holds captured last decided pages) (now : Nat) :
    Holds none last decided (pages.reset now) where
  first := iff_of_true rfl rfl
  initial := rfl
  current := holds.current
  distinct := holds.distinct
  threads := holds.threads

theorem Holds.close (holds : Holds captured last decided pages) (now : Nat) :
    Holds captured last [] (pages.close now) where
  first := holds.first
  initial := holds.initial
  current := holds.current
  distinct := List.nodup_nil
  threads := fun _ => Iff.rfl

theorem Holds.after {record : List Answered}
    (holds : Holds (captured? record) (lastSized? record) (decidedThreads record) pages)
    (now : Nat) (call : Call) :
    let next := record ++ [pages.asked now call]
    Holds (captured? next) (lastSized? next) (decidedThreads next) (pages.after now call) := by
  intro next
  cases call with
  | protect marks memory progress thread =>
      rw [captured?_concat rfl, lastSized?_concat, decidedThreads_concat rfl]
      cases written : progress.bind (·.written) with
      | none =>
          have inapplicable := pages.protect_of_unwritten marks memory written thread now
          obtain ⟨uncomputed, unasked⟩ := asked_of_unwritten pages marks memory written thread now
          rw [uncomputed, unasked, CleanPages.after, inapplicable]
          simpa using holds
      | some pagesWritten =>
          obtain ⟨snapshot, rfl, writing⟩ := Option.bind_eq_some_iff.mp written
          obtain ⟨computed, asked⟩ := asked_of_writing pages marks memory writing thread now
          rw [computed, asked]
          exact (holds.observe _).congr (remembered_protect pages marks memory writing thread now)
  | reset =>
      rw [captured?_concat_reset rfl, lastSized?_concat, decidedThreads_concat rfl]
      simpa [asked, Answered.computation?, Answered.thread?, CleanPages.after] using
        holds.reset now
  | close =>
      rw [captured?_concat rfl, lastSized?_concat, decidedThreads_concat_close rfl]
      simpa [asked, Answered.computation?, CleanPages.after] using holds.close now
  | readWriteSpeed =>
      have still : (pages.after now .readWriteSpeed).remembered = pages.remembered := rfl
      rw [captured?_concat rfl, lastSized?_concat, decidedThreads_concat rfl]
      simpa [asked, Answered.computation?, Answered.thread?] using holds.congr still

theorem holds_run (built : Nat) (calls : List (Nat × Call)) :
    let record := (new built).record calls
    Holds (captured? record) (lastSized? record) (decidedThreads record)
      ((new built).run calls) := by
  intro record
  induction calls using List.reverseRecOn with
  | nil => exact holds_new built
  | append_singleton calls made ih =>
      obtain ⟨now, call⟩ := made
      simp only [record, record_concat, run_concat]
      exact ih.after now call

/-- Whichever threads ask, however checkpoints begin and end and whatever is seen of the checkpoint
and of the page memory: the initial ratio is that of the first computation since the last reset
that saw written pages of a checkpoint whose size it knew, the threads counted are those that
throttling applied to since the last close, and the last ratio is that of the last computation that
knew the size of the checkpoint. -/
theorem memory_of_run (built : Nat) (calls : List (Nat × Call)) :
    let final := (new built).run calls
    let record := (new built).record calls
    final.initialRatio = ((captured? record).map (clampRatio ·.ratio)).getD minRatio ∧
      final.threads.length = (decidedThreads record).dedup.length ∧
      final.currentRatio = ((lastSized? record).map (·.ratio)).getD 0.0 := by
  intro final record
  have holds := holds_run built calls
  have same : final.threads.Perm (decidedThreads record).dedup :=
    (List.perm_ext_iff_of_nodup holds.distinct (List.nodup_dedup _)).mpr fun thread =>
      (holds.threads thread).trans List.mem_dedup.symm
  exact ⟨holds.initial, same.length_eq, holds.current⟩

/-- The second checkpoint starts from the ratio of the sixth call, which is the first since the
reset to see written pages of a checkpoint of known size, though that ratio is too small to be taken
as it is. The threads are those of the calls after the close to which throttling applies. -/
theorem memory_of_run_laterCheckpoint :
    let memory (dirtyRatio : Float) : PageMemory :=
      { bufferCount := 0, bufferSize := 100, totalPages := 1000, dirtyRatio }
    let seen (written total : Nat) : Option ProgressSnapshot :=
      some { written := some written, synced := 0, evicted := 0, total }
    let ask (dirtyRatio : Float) (progress : Option ProgressSnapshot) (thread : Nat) : Call :=
      .protect (.new 1000 3 0) (memory dirtyRatio) progress thread
    let calls : List (Nat × Call) :=
      [(0, ask 0.5 (seen 4 100) 1), (1, .reset), (2, ask 0.4 none 2), (3, ask 0.3 (seen 0 100) 3),
        (4, .close), (5, ask 0.2 (seen 9 0) 4), (6, ask 0.01 (seen 9 100) 5),
        (7, ask 0.6 (seen 20 100) 4), (8, ask 0.7 none 6)]
    let final := (new 0).run calls
    final.initialRatio = 0.03 ∧ final.threads.length = 2 ∧ final.currentRatio = 0.6 := by
  intro memory seen ask calls final
  obtain ⟨initial, threads, current⟩ := memory_of_run 0 calls
  refine ⟨initial.trans ?_, threads.trans ?_, current.trans ?_⟩
  · decide +kernel
  · decide +kernel
  · decide +kernel
end CleanPages

end Durability
