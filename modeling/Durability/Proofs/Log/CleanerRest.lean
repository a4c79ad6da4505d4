import Durability.Log.Cleaner
import Durability.Proofs.Log.TruncationEnd

/-! The cleaner comes to rest. With no other client in between, a pass of its loop ends it, blocks
it, or deletes a tracked segment, so that it makes at most one pass more than there are tracked
segments. It waits for the size only below its minimum, and pauses only if its last truncation
failed or could delete nothing; once it is told to stop it deletes nothing more. -/

namespace Durability

namespace Archive

def Lacks (archive : Archive) (size : Int) : Prop := ∃ lack ∈ archive.lack? size, 0 < lack

instance (archive : Archive) (size : Int) : Decidable (archive.Lacks size) := by
  unfold Lacks
  cases archive.lack? size with
  | none => exact isFalse nofun
  | some lack => exact decidable_of_iff (0 < lack) (by simp)

def Reaches (archive : Archive) (size : Int) : Prop := ∃ lack ∈ archive.lack? size, lack ≤ 0

theorem lacks_iff {archive : Archive} {size : Int} (fits : IsWord (size - archive.total)) :
    archive.Lacks size ↔ archive.total < size := by
  rw [Lacks, lack?, Overflow.word?_of_isWord fits]
  simp

theorem reaches_iff {archive : Archive} {size : Int} (fits : IsWord (size - archive.total)) :
    archive.Reaches size ↔ size ≤ archive.total := by
  rw [Reaches, lack?, Overflow.word?_of_isWord fits]
  constructor
  · rintro ⟨lack, found, enough⟩
    cases found
    omega
  · intro enough
    exact ⟨_, rfl, by omega⟩

theorem not_lacks_of_reaches {archive : Archive} {size : Int} (reaches : archive.Reaches size) :
    ¬ archive.Lacks size := by
  obtain ⟨lack, found, enough⟩ := reaches
  rintro ⟨other, same, more⟩
  cases Option.mem_unique found same
  exact absurd more (Int.not_lt.2 enough)

inductive Sees (archive : Archive) (size : Int) : Look → Prop
  | lacking (clear : archive.interrupted = false) (lacks : archive.Lacks size) :
      Sees archive size .lacking
  | reached (clear : archive.interrupted = false) (reaches : archive.Reaches size) :
      Sees archive size .reached
  | calledOff (off : archive.interrupted = true) : Sees archive size .calledOff
  | broken (unknown : archive.lack? size = none) : Sees archive size .broken

theorem look_sees (archive : Archive) (size : Int) : archive.Sees size (archive.look size) := by
  unfold look
  cases found : archive.lack? size with
  | none => exact .broken found
  | some lack =>
      cases off : archive.interrupted with
      | true => exact .calledOff off
      | false =>
          simp only [Bool.false_eq_true, if_false]
          split
          next more => exact .lacking off ⟨lack, found, more⟩
          next enough => exact .reached off ⟨lack, found, Int.not_lt.1 enough⟩

theorem look_of_interrupted {archive : Archive} (off : archive.interrupted = true) (size : Int) :
    archive.look size = .calledOff ∨ archive.look size = .broken := by
  have sees := archive.look_sees size
  generalize archive.look size = found at sees ⊢
  cases sees with
  | lacking clear | reached clear =>
      rw [off] at clear
      cases clear
  | calledOff => exact Or.inl rfl
  | broken => exact Or.inr rfl

end Archive

namespace Cleaner

/-! ### One pass -/

inductive Passed (cleaner : Cleaner) (clock : Nat) (storage : Storage) (segments : Segments) :
    Cleaner × Segments → Prop where
  | exits : Passed cleaner clock storage segments ({ cleaner with phase := .ended }, segments)
  | waits (clear : segments.archive.interrupted = false)
      (lacks : segments.archive.Lacks cleaner.threshold) :
      Passed cleaner clock storage segments
        ({ cleaner with phase := .awaitingSize segments.archive.signals }, segments)
  | idles {left : Segments} (running : cleaner.stopped = false)
      (enough : ¬ segments.archive.Lacks cleaner.threshold)
      (nothing : storage.truncate cleaner.threshold segments = (.ok 0, left)) :
      Passed cleaner clock storage segments
        ({ cleaner with phase := .pausing (clock + cleaner.pause) }, left)
  | fails {cause : Error} {left : Segments} (running : cleaner.stopped = false)
      (failed : storage.truncate cleaner.threshold segments = (.error cause, left)) :
      Passed cleaner clock storage segments
        ({ cleaner with phase := .pausing (clock + cleaner.pause) },
          left.report [.deletionFailed cause])
  | repeats {count : Nat} {left : Segments}
      (deleted : storage.truncate cleaner.threshold segments = (.ok (count + 1), left)) :
      Passed cleaner clock storage segments ({ cleaner with phase := .ready }, left)

def inPass (cleaner : Cleaner) : Bool :=
  match cleaner.phase with
  | .ready | .awaitingSize _ => true
  | .pausing _ | .ended => false

variable {cleaner : Cleaner} {clock : Nat} {storage : Storage} {segments : Segments}

theorem await_passed (cleaner : Cleaner) (clock : Nat) (storage : Storage)
    (segments : Segments) :
    Passed cleaner clock storage segments (cleaner.await clock storage segments) := by
  unfold await
  have sees := segments.archive.look_sees cleaner.threshold
  generalize segments.archive.look cleaner.threshold = found at sees ⊢
  cases sees with
  | lacking clear lacks => exact .waits clear lacks
  | calledOff | broken => exact .exits
  | reached clear reaches =>
      by_cases stopped : cleaner.stopped = true
      · simp only [if_pos stopped]
        exact .exits
      · have running : cleaner.stopped = false := Bool.eq_false_iff.2 stopped
        simp only [truncate, if_neg stopped]
        split
        next left nothing => exact .idles running (Archive.not_lacks_of_reaches reaches) nothing
        next count left deleted => exact .repeats deleted
        next cause left failed => exact .fails running failed

theorem advance_passed (begun : cleaner.inPass = true) :
    Passed cleaner clock storage segments (cleaner.advance clock storage segments) := by
  unfold advance
  cases phase : cleaner.phase with
  | ready =>
      by_cases stopped : cleaner.stopped = true
      · rw [if_pos stopped]
        exact .exits
      · rw [if_neg stopped]
        exact await_passed cleaner clock storage segments
  | awaitingSize seen => exact await_passed cleaner clock storage segments
  | pausing deadline => simp [inPass, phase] at begun
  | ended => simp [inPass, phase] at begun

theorem fewer_of_deleted {count : Nat} {left : Segments}
    (bounded : segments.archive.isUnlimited = false)
    (deleted : storage.truncate cleaner.threshold segments = (.ok (count + 1), left)) :
    left.archive.segments.length < segments.archive.segments.length ∧
      left.archive.isUnlimited = false := by
  obtain ⟨gone, cause, result, parts, -, -⟩ := storage.truncate_end cleaner.threshold bounded
  have kept := (storage.truncate_subsides cleaner.threshold segments).window
  rw [deleted] at result parts kept
  refine ⟨?_, (congrArg Option.isNone kept).trans bounded⟩
  cases cause with
  | some cause => cases result
  | none =>
      have counted : count + 1 = gone.length := Except.ok.inj result
      rw [parts, List.length_append]
      change left.archive.segments.length < gone.length + left.archive.segments.length
      omega

/-- A pass that the cleaner repeats has deleted a tracked segment. -/
theorem Passed.repeats_of_ready {after : Cleaner × Segments}
    (passed : Passed cleaner clock storage segments after)
    (bounded : segments.archive.isUnlimited = false) (ready : after.1.phase = .ready) :
    after.1 = { cleaner with phase := .ready } ∧
      after.2.archive.segments.length < segments.archive.segments.length ∧
      after.2.archive.isUnlimited = false := by
  cases passed with
  | exits | waits | idles | fails => cases ready
  | repeats deleted => exact ⟨rfl, fewer_of_deleted bounded deleted⟩

theorem canRun_pausing (running : cleaner.stopped = false) (pauses : 0 < cleaner.pause)
    (segments : Segments) :
    ({ cleaner with phase := .pausing (clock + cleaner.pause) } : Cleaner).canRun clock segments =
      false := by
  have later : ¬ clock + cleaner.pause ≤ clock := by omega
  change (cleaner.stopped || decide (clock + cleaner.pause ≤ clock)) = false
  rw [running, Bool.false_or, decide_eq_false later]

theorem Passed.rests {after : Cleaner × Segments}
    (passed : Passed cleaner clock storage segments after) (pauses : 0 < cleaner.pause)
    (halts : after.1.phase ≠ .ready) : after.1.canRun clock after.2 = false := by
  cases passed with
  | exits => rfl
  | waits => simp [canRun]
  | idles running enough nothing => exact canRun_pausing running pauses _
  | fails running failed => exact canRun_pausing running pauses _
  | repeats deleted => exact absurd rfl halts

theorem Passed.subsides {after : Cleaner × Segments}
    (passed : Passed cleaner clock storage segments after) :
    segments.archive.Subsides after.2.archive := by
  have truncated := storage.truncate_subsides cleaner.threshold segments
  cases passed with
  | exits | waits => exact segments.archive.subsides_refl
  | idles _ _ nothing =>
      rw [nothing] at truncated
      exact truncated
  | fails _ failed =>
      rw [failed] at truncated
      exact truncated
  | repeats deleted =>
      rw [deleted] at truncated
      exact truncated

/-! ### One pass after another -/

theorem runFor_of_rest (rests : cleaner.canRun clock segments = false) (advances : Nat) :
    runFor clock storage advances cleaner segments = (cleaner, segments) := by
  cases advances with
  | zero => rfl
  | succ advances => rw [runFor, rests, if_neg Bool.false_ne_true]

theorem runFor_of_canRun (runs : cleaner.canRun clock segments = true) (advances : Nat) :
    runFor clock storage (advances + 1) cleaner segments =
      runFor clock storage advances (cleaner.advance clock storage segments).1
        (cleaner.advance clock storage segments).2 := by
  rw [runFor, if_pos runs]

theorem advance_of_pausing (runs : cleaner.canRun clock segments = true)
    (paused : cleaner.inPass = false) :
    cleaner.advance clock storage segments =
      ({ cleaner with phase := if cleaner.stopped then .ended else .ready }, segments) := by
  unfold advance
  cases phase : cleaner.phase with
  | ready | awaitingSize seen => simp [inPass, phase] at paused
  | ended => simp [canRun, phase] at runs
  | pausing deadline => rfl

theorem runFor_subsides (advances : Nat) (cleaner : Cleaner) (segments : Segments) :
    segments.archive.Subsides (runFor clock storage advances cleaner segments).2.archive := by
  induction advances generalizing cleaner segments with
  | zero => exact segments.archive.subsides_refl
  | succ advances ih =>
      cases runs : cleaner.canRun clock segments with
      | false =>
          rw [runFor_of_rest runs]
          exact segments.archive.subsides_refl
      | true =>
          rw [runFor_of_canRun runs]
          cases begun : cleaner.inPass with
          | false =>
              rw [advance_of_pausing runs begun]
              exact ih _ segments
          | true =>
              have passed : Passed cleaner clock storage segments _ := advance_passed begun
              exact passed.subsides.trans (ih _ _)

theorem Passed.threshold {after : Cleaner × Segments}
    (passed : Passed cleaner clock storage segments after) :
    after.1.threshold = cleaner.threshold := by
  cases passed <;> rfl

theorem runFor_threshold (advances : Nat) (cleaner : Cleaner) (segments : Segments) :
    (runFor clock storage advances cleaner segments).1.threshold = cleaner.threshold := by
  induction advances generalizing cleaner segments with
  | zero => rfl
  | succ advances ih =>
      cases runs : cleaner.canRun clock segments with
      | false => rw [runFor_of_rest runs]
      | true =>
          rw [runFor_of_canRun runs, ih]
          cases begun : cleaner.inPass with
          | false => rw [advance_of_pausing runs begun]
          | true =>
              have passed : Passed cleaner clock storage segments _ := advance_passed begun
              exact passed.threshold

def passes (clock : Nat) (storage : Storage) :
    (advances : Nat) → Cleaner → Segments → Nat
  | 0, _, _ => 0
  | advances + 1, cleaner, segments =>
    if cleaner.canRun clock segments then
      let next := cleaner.advance clock storage segments
      (if cleaner.inPass then 1 else 0) + passes clock storage advances next.1 next.2
    else 0

theorem passes_of_rest (rests : cleaner.canRun clock segments = false) (advances : Nat) :
    passes clock storage advances cleaner segments = 0 := by
  cases advances with
  | zero => rfl
  | succ advances => rw [passes, rests, if_neg Bool.false_ne_true]

theorem passes_of_canRun (runs : cleaner.canRun clock segments = true) (advances : Nat) :
    passes clock storage (advances + 1) cleaner segments =
      (if cleaner.inPass then 1 else 0) +
        passes clock storage advances (cleaner.advance clock storage segments).1
          (cleaner.advance clock storage segments).2 := by
  rw [passes, if_pos runs]

theorem passes_le (pauses : 0 < cleaner.pause) (bounded : segments.archive.isUnlimited = false)
    (advances : Nat) :
    passes clock storage advances cleaner segments ≤ segments.archive.segments.length + 1 := by
  induction advances generalizing cleaner segments with
  | zero => exact Nat.zero_le _
  | succ advances ih =>
      cases runs : cleaner.canRun clock segments with
      | false => simp [passes_of_rest runs]
      | true =>
          rw [passes_of_canRun runs]
          cases begun : cleaner.inPass with
          | false =>
              rw [advance_of_pausing runs begun, if_neg Bool.false_ne_true, Nat.zero_add]
              exact ih pauses bounded
          | true =>
              have passed : Passed cleaner clock storage segments _ := advance_passed begun
              rw [if_pos rfl]
              by_cases ready : (cleaner.advance clock storage segments).1.phase = .ready
              · obtain ⟨same, fewer, still⟩ := passed.repeats_of_ready bounded ready
                have later := @ih { cleaner with phase := .ready } _ pauses still
                rw [same]
                omega
              · rw [passes_of_rest (passed.rests pauses ready)]
                omega

theorem runFor_halts (bounded : segments.archive.isUnlimited = false)
    (scheduled : cleaner.canRun clock segments = true) {advances : Nat}
    (enough : segments.archive.segments.length + (if cleaner.inPass then 1 else 2) ≤ advances) :
    let after := runFor clock storage advances cleaner segments
    after.1.phase = .ended ∨ ∃ earlier left phase,
      let last := runFor clock storage earlier cleaner segments
      let next := last.1.advance clock storage last.2
      last.1 = { cleaner with phase } ∧ last.1.inPass = true ∧
        last.2.archive.isUnlimited = false ∧ Passed last.1 clock storage last.2 next ∧
        next.1.phase ≠ .ready ∧ after = runFor clock storage left next.1 next.2 := by
  induction advances generalizing cleaner segments with
  | zero =>
      split at enough <;> omega
  | succ advances ih =>
      rw [runFor_of_canRun scheduled]
      cases begun : cleaner.inPass with
      | false =>
          rw [advance_of_pausing scheduled begun]
          by_cases stopped : cleaner.stopped = true
          · rw [if_pos stopped, runFor_of_rest rfl]
            exact Or.inl rfl
          · rw [begun, if_neg Bool.false_ne_true] at enough
            rw [if_neg stopped]
            have fits : segments.archive.segments.length + 1 ≤ advances := by omega
            refine (@ih { cleaner with phase := .ready } segments bounded rfl fits).imp_right ?_
            rintro ⟨earlier, left, phase, halts⟩
            refine ⟨earlier + 1, left, phase, ?_⟩
            rw [runFor_of_canRun scheduled, advance_of_pausing scheduled begun, if_neg stopped]
            exact halts
      | true =>
          have passed : Passed cleaner clock storage segments _ := advance_passed begun
          by_cases ready : (cleaner.advance clock storage segments).1.phase = .ready
          · obtain ⟨same, fewer, still⟩ := passed.repeats_of_ready bounded ready
            rw [begun, if_pos rfl] at enough
            have fits : (cleaner.advance clock storage segments).2.archive.segments.length + 1 ≤
                advances := by omega
            have again := @ih { cleaner with phase := .ready }
              (cleaner.advance clock storage segments).2 still rfl fits
            rw [← same] at again
            refine again.imp_right ?_
            rintro ⟨earlier, left, phase, same_cleaner, halts⟩
            refine ⟨earlier + 1, left, phase, ?_⟩
            rw [runFor_of_canRun scheduled]
            exact ⟨by rw [same_cleaner, same], halts⟩
          · exact Or.inr ⟨0, advances, cleaner.phase, rfl, begun, bounded, passed, ready, rfl⟩

theorem run_halts (bounded : segments.archive.isUnlimited = false)
    (scheduled : cleaner.canRun clock segments = true) :
    let after := cleaner.run clock storage segments
    after.1.phase = .ended ∨ ∃ earlier left phase,
      let last := runFor clock storage earlier cleaner segments
      let next := last.1.advance clock storage last.2
      last.1 = { cleaner with phase } ∧ last.1.inPass = true ∧
        last.2.archive.isUnlimited = false ∧ Passed last.1 clock storage last.2 next ∧
        next.1.phase ≠ .ready ∧ after = runFor clock storage left next.1 next.2 := by
  have enough : segments.archive.segments.length + (if cleaner.inPass then 1 else 2) ≤
      segments.archive.sizes.size + 2 :=
    Nat.add_le_add_left (by split <;> decide) segments.archive.sizes.entries.length
  exact runFor_halts bounded scheduled enough

/-! ### A cleaner that has nothing left to do -/

/-- The cleaner has ended, is blocked until the next signal, or something keeps it from the oldest
of the tracked segments. -/
def Spent (cleaner : Cleaner) (storage : Storage) (segments : Segments) : Prop :=
  cleaner.phase = .ended ∨ cleaner.phase = .awaitingSize segments.archive.signals ∨
    ∃ cause, Truncation.Hindrance storage cleaner.threshold segments cause

theorem Passed.spent {after : Cleaner × Segments}
    (passed : Passed cleaner clock storage segments after)
    (bounded : segments.archive.isUnlimited = false) (halts : after.1.phase ≠ .ready) :
    Spent after.1 storage after.2 := by
  obtain ⟨gone, cause, -, -, -, hindrance⟩ := storage.truncate_end cleaner.threshold bounded
  cases passed with
  | exits => exact Or.inl rfl
  | waits => exact Or.inr (Or.inl rfl)
  | idles running enough nothing =>
      rw [nothing] at hindrance
      exact Or.inr (Or.inr ⟨cause, hindrance⟩)
  | fails running failed =>
      rw [failed] at hindrance
      exact Or.inr (Or.inr ⟨cause, hindrance.report _⟩)
  | repeats deleted => exact absurd rfl halts

theorem Passed.of_hindrance {after : Cleaner × Segments} {cause : Option Error}
    (passed : Passed cleaner clock storage segments after)
    (hindrance : Truncation.Hindrance storage cleaner.threshold segments cause) :
    after.2.archive = segments.archive ∧ Spent after.1 storage after.2 := by
  have again := Storage.truncate_of_hindrance hindrance
  cases passed with
  | exits => exact ⟨rfl, Or.inl rfl⟩
  | waits => exact ⟨rfl, Or.inr (Or.inl rfl)⟩
  | idles running enough nothing =>
      cases congrArg Prod.snd (again.symm.trans nothing)
      exact ⟨rfl, Or.inr (Or.inr ⟨cause, hindrance⟩)⟩
  | fails running failed =>
      cases congrArg Prod.snd (again.symm.trans failed)
      exact ⟨rfl, Or.inr (Or.inr ⟨cause, hindrance.report _⟩)⟩
  | repeats deleted =>
      have result := congrArg Prod.fst (again.symm.trans deleted)
      cases cause <;> cases result

theorem Spent.advance (spent : Spent cleaner storage segments)
    (runs : cleaner.canRun clock segments = true) :
    let next := cleaner.advance clock storage segments
    next.2.archive = segments.archive ∧ Spent next.1 storage next.2 := by
  intro next
  have running : cleaner.phase ≠ .ended := by
    intro ended
    simp [canRun, ended] at runs
  have signalled : cleaner.phase ≠ .awaitingSize segments.archive.signals := by
    intro blocked
    simp [canRun, blocked] at runs
  obtain ⟨cause, hindrance⟩ := (spent.resolve_left running).resolve_left signalled
  cases begun : cleaner.inPass with
  | true =>
      have passed : Passed cleaner clock storage segments next := advance_passed begun
      exact passed.of_hindrance hindrance
  | false =>
      have leaves : next = _ := advance_of_pausing runs begun
      rw [leaves]
      exact ⟨rfl, Or.inr (Or.inr ⟨cause, hindrance⟩)⟩

theorem Spent.runFor (spent : Spent cleaner storage segments) (clock advances : Nat) :
    let after := runFor clock storage advances cleaner segments
    after.2.archive = segments.archive ∧ Spent after.1 storage after.2 := by
  induction advances generalizing cleaner segments with
  | zero => exact ⟨rfl, spent⟩
  | succ advances ih =>
      cases runs : cleaner.canRun clock segments with
      | false =>
          rw [runFor_of_rest runs]
          exact ⟨rfl, spent⟩
      | true =>
          rw [runFor_of_canRun runs]
          obtain ⟨same, still⟩ := spent.advance runs
          obtain ⟨later, ends⟩ := ih still
          exact ⟨later.trans same, ends⟩

theorem run_again (clock : Nat) (storage : Storage)
    (bounded : segments.archive.isUnlimited = false) :
    let after := cleaner.run clock storage segments
    (after.1.run clock storage after.2).2.archive = after.2.archive := by
  intro after
  cases scheduled : cleaner.canRun clock segments with
  | false =>
      have same : after = (cleaner, segments) := runFor_of_rest scheduled _
      rw [same]
      exact congrArg (fun ended => ended.2.archive) same
  | true =>
      have spent : Spent after.1 storage after.2 := by
        rcases run_halts bounded scheduled with
          ended | ⟨earlier, left, phase, -, -, limited, passed, halts, goesOn⟩
        · exact Or.inl ended
        · have later := ((passed.spent limited halts).runFor clock left).2
          rw [← goesOn] at later
          exact later
      exact (spent.runFor clock _).1

/-! ### Why it rests -/

def NothingDeletable (storage : Storage) (segments : Segments) : Prop :=
  storage.checkpoint = none ∨ segments.archive.segments = [] ∨
    ∃ oldest rest, segments.archive.segments = oldest :: rest ∧
      ((∃ checkpoint, storage.checkpoint = some checkpoint ∧ checkpoint ≤ oldest.1) ∨
        segments.reservations.protects oldest.1 = true)

theorem nothingDeletable_of_idle {threshold : Int} {left : Segments}
    (bounded : segments.archive.isUnlimited = false)
    (reached : threshold ≤ segments.archive.total)
    (nothing : storage.truncate threshold segments = (.ok 0, left)) :
    NothingDeletable storage left := by
  obtain ⟨gone, cause, result, -, same, hindrance⟩ := storage.truncate_end threshold bounded
  rw [nothing] at result same hindrance
  cases hindrance with
  | noCheckpoint unknown => exact Or.inl unknown
  | nothingTracked untracked => exact Or.inr (Or.inl untracked)
  | notBelow known listed beyond =>
      exact Or.inr (Or.inr ⟨_, _, listed, Or.inl ⟨_, known, beyond⟩⟩)
  | reserved listed protects => exact Or.inr (Or.inr ⟨_, _, listed, Or.inr protects⟩)
  | failing => cases result
  | smallEnough below =>
      have none_gone : gone = [] := List.length_eq_zero_iff.1 (Except.ok.inj result).symm
      rw [same none_gone] at below
      exact absurd reached (Int.not_le.2 below)

theorem Passed.of_awaitingSize {after : Cleaner × Segments}
    (passed : Passed cleaner clock storage segments after) {seen : Nat}
    (blocked : after.1.phase = .awaitingSize seen) :
    seen = after.2.archive.signals ∧ after.2.archive.Lacks cleaner.threshold ∧
      after.2.archive.interrupted = false := by
  cases passed with
  | exits | idles | fails | repeats => cases blocked
  | waits clear lacks => exact ⟨(Phase.awaitingSize.inj blocked).symm, lacks, clear⟩

theorem Passed.of_pausing {after : Cleaner × Segments}
    (passed : Passed cleaner clock storage segments after)
    (bounded : segments.archive.isUnlimited = false) {deadline : Nat}
    (blocked : after.1.phase = .pausing deadline) :
    match storage.truncate cleaner.threshold segments with
    | (.ok count, left) => count = 0 ∧ after.2 = left ∧
      (IsWord (cleaner.threshold - segments.archive.total) → NothingDeletable storage left)
    | (.error cause, left) => after.2 = left.report [.deletionFailed cause] := by
  cases passed with
  | exits | waits | repeats => cases blocked
  | idles running enough nothing =>
      rw [nothing]
      refine ⟨rfl, rfl, fun fits => nothingDeletable_of_idle bounded ?_ nothing⟩
      rw [Archive.lacks_iff fits] at enough
      exact Int.not_lt.1 enough
  | fails running failed =>
      rw [failed]

/-! ### Told to stop -/

theorem run_of_ends (runs : cleaner.canRun clock segments = true)
    (ends : cleaner.advance clock storage segments =
      ({ cleaner with phase := .ended }, segments)) :
    cleaner.run clock storage segments = ({ cleaner with phase := .ended }, segments) := by
  have rests : ({ cleaner with phase := .ended } : Cleaner).canRun clock segments = false := rfl
  rw [run, runFor_of_canRun runs, ends]
  exact runFor_of_rest rests _

/-- A blocked cleaner that is told to stop, and whose wait for the size is called off, ends and
changes nothing. -/
theorem run_of_stopped (blocked : cleaner.phase ≠ .ready) (stopped : cleaner.stopped = true)
    (waits : ∀ seen, cleaner.phase = .awaitingSize seen → seen ≤ segments.archive.signals) :
    cleaner.run clock storage segments.interrupt =
      ({ cleaner with phase := .ended }, segments.interrupt) := by
  cases phase : cleaner.phase with
  | ready => exact absurd phase blocked
  | ended =>
      have rests : cleaner.canRun clock segments.interrupt = false := by
        rw [canRun, phase]
      have same : cleaner = { cleaner with phase := .ended } := by
        rw [← phase]
      rw [← same]
      exact runFor_of_rest rests _
  | pausing deadline =>
      apply run_of_ends
      · simp [canRun, phase, stopped]
      · simp [advance, phase, stopped]
  | awaitingSize seen =>
      have signalled : seen ≠ segments.archive.signals + 1 := by
        have earlier := waits seen phase
        omega
      apply run_of_ends
      · simp only [canRun, phase]
        exact decide_eq_true signalled
      · have off : segments.interrupt.archive.interrupted = true := rfl
        simp only [advance, phase, await]
        rcases Archive.look_of_interrupted off cleaner.threshold with found | found <;>
          simp only [found]

/-- A cleaner that is scheduled and has its log to itself comes to rest, after at most one pass
more than there are tracked segments. Its threshold is the minimum of the archive, as it is in
every run of a host. If it then waits for the size, the archive is below its minimum and no wait is
called off. If it pauses, its last pass was a truncation that failed or that found nothing to
delete. Told to stop with its wait called off, it only ends. What is said of the minimum needs the
bytes that the cleaner computes to be in range when it looks. -/
theorem run_rests (clock : Nat) (storage : Storage) {window : SizeWindow}
    (bounded : segments.archive.window = some window) (own : cleaner.threshold = window.min)
    (pauses : 0 < cleaner.pause) (scheduled : cleaner.canRun clock segments = true) :
    let after := cleaner.run clock storage segments
    after.1.canRun clock after.2 = false ∧
      (∀ advances, passes clock storage advances cleaner segments ≤
        segments.archive.segments.length + 1) ∧
      (∀ seen, after.1.phase = .awaitingSize seen → after.2.archive.Lacks window.min ∧
        (IsWord (window.min - after.2.archive.total) → after.2.archive.total < window.min) ∧
          after.2.archive.interrupted = false) ∧
      (∀ deadline, after.1.phase = .pausing deadline → ∃ advances,
        let last := runFor clock storage advances cleaner segments
        last.1.inPass = true ∧ last.1.advance clock storage last.2 = after ∧
          match storage.truncate window.min last.2 with
          | (.ok count, left) => count = 0 ∧ after.2 = left ∧
            (IsWord (window.min - last.2.archive.total) → NothingDeletable storage left)
          | (.error cause, left) => after.2 = left.report [.deletionFailed cause]) ∧
      ∀ (later : Nat) (storage : Storage) (others : Segments),
        after.2.archive.signals ≤ others.archive.signals →
          ({ after.1 with stopped := true } : Cleaner).run later storage others.interrupt =
            ({ after.1 with stopped := true, phase := .ended }, others.interrupt) := by
  intro after
  have limited : segments.archive.isUnlimited = false := congrArg Option.isNone bounded
  have ends : after.1.phase = .ended ∨ ∃ earlier phase,
      let last := runFor clock storage earlier cleaner segments
      last.1 = { cleaner with phase } ∧ last.1.inPass = true ∧
        last.2.archive.isUnlimited = false ∧ last.1.advance clock storage last.2 = after ∧
        Passed last.1 clock storage last.2 after ∧ after.1.canRun clock after.2 = false := by
    refine (run_halts limited scheduled).imp_right ?_
    rintro ⟨earlier, left, phase, same, begun, still, passed, halts, goesOn⟩
    have rests := passed.rests (by rw [same]; exact pauses) halts
    have last : after = _ := goesOn.trans (runFor_of_rest rests left)
    rw [last]
    exact ⟨earlier, phase, same, begun, still, rfl, passed, rests⟩
  have rests : after.1.canRun clock after.2 = false := by
    rcases ends with ended | ⟨-, -, -, -, -, -, -, rests⟩
    · rw [canRun, ended]
    · exact rests
  refine ⟨rests, passes_le pauses limited, ?_, ?_, ?_⟩
  · intro seen waits
    rcases ends with ended | ⟨earlier, phase, same, -, -, -, passed, -⟩
    · cases ended.symm.trans waits
    · obtain ⟨-, lacks, clear⟩ := passed.of_awaitingSize waits
      rw [same, own] at lacks
      exact ⟨lacks, fun fits => (Archive.lacks_iff fits).1 lacks, clear⟩
  · intro deadline pausing
    rcases ends with ended | ⟨earlier, phase, same, begun, still, goesOn, passed, -⟩
    · cases ended.symm.trans pausing
    · have found := passed.of_pausing still pausing
      rw [same, own] at found
      exact ⟨earlier, begun, goesOn, found⟩
  · intro later storage others unseen
    have blocked : after.1.phase ≠ .ready := by
      intro ready
      have runs : after.1.canRun clock after.2 = true := by
        rw [canRun, ready]
      rw [rests] at runs
      cases runs
    have called_off : ∀ seen, after.1.phase = .awaitingSize seen →
        seen ≤ others.archive.signals := by
      intro seen waits
      rcases ends with ended | ⟨earlier, phase, same, -, -, -, passed, -⟩
      · cases ended.symm.trans waits
      · obtain ⟨known, -, -⟩ := passed.of_awaitingSize waits
        rw [known]
        exact unseen
    exact @run_of_stopped { after.1 with stopped := true } later storage others blocked rfl
      called_off

def twoTracked : Segments :=
  { reservations := .empty .fails
    archive :=
      { window := some { min := 100, max := 300 }, total := 250,
        sizes := .ofList [(1, 100), (2, 150)], interrupted := false, signals := 2,
        onOverflow := .fails }
    observers := 0
    journal := [] }

def locked : Error := .io "segment file is locked"

def secondLocked : Storage := { checkpoint := some 3, failure := Storage.failingAt 2 locked }

def begins : Cleaner := { threshold := 100, pause := 5, stopped := false, phase := .ready }

/-- A cleaner of two segments, of which the second cannot be removed: it deletes the first one,
reports the failure of the second and pauses. -/
theorem run_rests_failingRemoval :
    begins.canRun 0 twoTracked = true ∧
      (begins.run 0 secondLocked twoTracked).1 = { begins with phase := .pausing 5 } ∧
      (begins.run 0 secondLocked twoTracked).2.journal = [.deleted 1, .deletionFailed locked] ∧
      (begins.run 0 secondLocked twoTracked).2.archive.segments = [(2, 150)] ∧
      (begins.run 0 secondLocked twoTracked).1.canRun 0
        (begins.run 0 secondLocked twoTracked).2 = false ∧
      (∀ advances, passes 0 secondLocked advances begins twoTracked ≤ 3) ∧
      ∃ advances,
        let last := runFor 0 secondLocked advances begins twoTracked
        last.1.inPass = true ∧
          last.1.advance 0 secondLocked last.2 = begins.run 0 secondLocked twoTracked := by
  let left := (twoTracked.afterDeletion (1, 100)).floored 2
  have unreserved : ∀ entry ∈ twoTracked.reservations.counts.entries, 1 < entry.1 :=
    fun _ member => absurd member List.not_mem_nil
  have truncated : secondLocked.truncate begins.threshold twoTracked = (.error locked, left) := by
    rw [Storage.truncate_eq rfl,
      Truncation.run_pass rfl ⟨by decide, by decide, unreserved, rfl, by decide⟩,
      Truncation.run_checking_of_goesOn rfl (by decide),
      Truncation.run_protecting_of_lowered rfl, Truncation.run_deleting_of_failure rfl]
    rfl
  have advanced : begins.advance 0 secondLocked twoTracked =
      ({ begins with phase := .pausing 5 }, left.report [.deletionFailed locked]) := by
    change begins.truncate 0 secondLocked twoTracked = _
    rw [truncate, truncated]
    rfl
  have ran : begins.run 0 secondLocked twoTracked =
      ({ begins with phase := .pausing 5 }, left.report [.deletionFailed locked]) := by
    rw [run, runFor_of_canRun rfl, advanced, runFor_of_rest rfl]
  obtain ⟨rests, few, -, pauses, -⟩ :=
    @run_rests begins twoTracked 0 secondLocked { min := 100, max := 300 } rfl rfl (by decide) rfl
  obtain ⟨advances, begun, ends, -⟩ := pauses 5 (congrArg (·.1.phase) ran)
  exact ⟨rfl, congrArg Prod.fst ran, congrArg (·.2.journal) ran,
    congrArg (·.2.archive.segments) ran, rests, few, advances, begun, ends⟩

end Cleaner

end Durability
