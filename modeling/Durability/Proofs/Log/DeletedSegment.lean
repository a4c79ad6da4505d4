import Durability.Proofs.Log.ArchiveLedger

/-! What is left in the record of a segment that a truncation deleted. A truncation lists the sizes
once, before it deletes anything, and takes the listed size off the archive after each deletion.
Whatever other clients report for the segment between these calls is told apart by when they report
it; the listed size is the right one to take off exactly as long as nothing else became of the
segment between the listing and its deletion, and nobody voided the sizes before it was taken
off. -/

namespace Durability

namespace Truncation

def pending : Truncation → List (Nat × Int)
  | .start _ | .listing _ _ | .done _ => []
  | .checking progress => progress.remaining
  | .protecting progress segment size | .deleting progress segment size
  | .accounting progress segment size => (segment, size) :: progress.remaining

def HasListed : Truncation → Prop
  | .start _ | .listing _ _ => False
  | .checking _ | .protecting _ _ _ | .deleting _ _ _ | .accounting _ _ _ | .done _ => True

theorem HasListed.step {truncation : Truncation} (listed : truncation.HasListed)
    (storage : Storage) (segments : Segments) :
    (truncation.step storage segments).1.HasListed ∧
      (truncation.step storage segments).1.pending <:+ truncation.pending := by
  cases truncation with
  | start threshold => exact listed.elim
  | listing threshold checkpoint => exact listed.elim
  | checking progress =>
      simp only [Truncation.step]
      split
      · exact ⟨trivial, List.nil_suffix⟩
      next segment size rest remaining =>
        split
        · exact ⟨trivial, List.nil_suffix⟩
        · have whole : (segment, size) :: rest <:+ progress.remaining := ⟨[], remaining.symm⟩
          exact ⟨trivial, whole⟩
  | protecting progress segment size =>
      simp only [Truncation.step]
      split
      · exact ⟨trivial, List.suffix_refl _⟩
      · exact ⟨trivial, List.nil_suffix⟩
  | deleting progress segment size =>
      simp only [Truncation.step]
      split
      · exact ⟨trivial, List.nil_suffix⟩
      · exact ⟨trivial, List.suffix_refl _⟩
  | accounting progress segment size => exact ⟨trivial, List.suffix_cons _ _⟩
  | done result => exact ⟨trivial, List.suffix_refl _⟩

end Truncation

namespace SharedLog

def Turn.advances (number : Nat) : Turn → Bool
  | .advance other _ => other == number
  | .call _ | .truncate _ => false

/-- The reports of sizes in the course of a run that are not made by the truncation with this
number. -/
def reportsApart (log : SharedLog) (number : Nat) : List Turn → List SizeReport
  | [] => []
  | turn :: turns =>
    (if turn.advances number then [] else log.sizeReports turn) ++
      (log.turn turn).reportsApart number turns

theorem truncation_turn {log : SharedLog} {number : Nat} {truncation : Truncation}
    (current : log.truncations[number]? = some truncation) (turn : Turn) :
    (∃ storage, turn = .advance number storage ∧
      (log.turn turn).truncations[number]? =
        some (truncation.step storage log.segments).1) ∨
    turn.advances number = false ∧
      (log.turn turn).truncations[number]? = some truncation := by
  have inside := (List.getElem?_eq_some_iff.1 current).1
  cases turn with
  | call call => exact Or.inr ⟨rfl, current⟩
  | truncate threshold =>
      exact Or.inr ⟨rfl, (List.getElem?_append_left inside).trans current⟩
  | advance other storage =>
      by_cases same : other = number
      · subst same
        refine Or.inl ⟨storage, rfl, ?_⟩
        simp only [SharedLog.turn, current]
        exact List.getElem?_set_self inside
      · refine Or.inr ⟨beq_eq_false_iff_ne.2 same, ?_⟩
        simp only [SharedLog.turn]
        cases log.truncations[other]? with
        | none => exact current
        | some another => exact (List.getElem?_set_ne same).trans current

theorem pending_run {log : SharedLog} {number : Nat} {truncation later : Truncation}
    {turns : List Turn} (current : log.truncations[number]? = some truncation)
    (listed : truncation.HasListed)
    (reached : (log.run turns).truncations[number]? = some later) :
    later.HasListed ∧ later.pending <:+ truncation.pending := by
  induction turns generalizing log truncation with
  | nil =>
      have same : truncation = later := Option.some.inj (current.symm.trans reached)
      subst same
      exact ⟨listed, List.suffix_refl _⟩
  | cons turn turns ih =>
      rcases truncation_turn current turn with ⟨storage, -, moved⟩ | ⟨-, stayed⟩
      · obtain ⟨listedNow, shorter⟩ := listed.step storage log.segments
        obtain ⟨listedLater, suffix⟩ := ih moved listedNow reached
        exact ⟨listedLater, suffix.trans shorter⟩
      · exact ih stayed listed reached

theorem bytesAt_run {log : SharedLog} {number segment : Nat} {truncation : Truncation}
    (turns : List Turn) (balanced : log.segments.archive.Balanced)
    (current : log.truncations[number]? = some truncation) (listed : truncation.HasListed)
    (ascending : truncation.pending.Pairwise fun first second => first.1 < second.1)
    (untouched : (∃ later size, (log.run turns).truncations[number]? = some later ∧
        (segment, size) ∈ later.pending) ∨
      ∀ entry ∈ truncation.pending, entry.1 ≠ segment) :
    (log.run turns).segments.archive.bytesAt segment =
      SizeReport.recordedAll segment (log.segments.archive.bytesAt segment)
        (log.reportsApart number turns) := by
  induction turns generalizing log truncation with
  | nil => rfl
  | cons turn turns ih =>
      have follows := log.turn_archive turn
      have now := balanced.bytesAt_afterReports follows segment
      rw [reportsApart, SizeReport.recordedAll_append]
      rcases truncation_turn current turn with ⟨storage, rfl, moved⟩ | ⟨others, stayed⟩
      · obtain ⟨listedNow, shorter⟩ := listed.step storage log.segments
        have own : log.sizeReports (.advance number storage) = truncation.sizeReports := by
          simp only [sizeReports, current]
        rw [own] at now
        have quiet : (log.turn (.advance number storage)).segments.archive.bytesAt segment =
            log.segments.archive.bytesAt segment := by
          rw [now]
          cases truncation with
          | accounting progress other size =>
              -- The segment comes behind this one in the listing, or was never in it.
              have different : other ≠ segment := by
                rcases untouched with ⟨later, left, reached, member⟩ | absent
                · have behind := (pending_run moved listedNow reached).2.subset member
                  have order := (List.pairwise_cons.1 ascending).1 _ behind
                  exact Nat.ne_of_lt order
                · exact absent _ List.mem_cons_self
              exact if_neg different
          | start | listing | checking | protecting | deleting | done => rfl
        have rest := ih (balanced.afterReports follows) moved listedNow
          (ascending.sublist shorter.sublist)
          (untouched.imp_right fun absent entry member => absent entry (shorter.subset member))
        have silent : (Turn.advance number storage).advances number = true := beq_self_eq_true _
        rw [if_pos silent]
        exact rest.trans (congrArg (SizeReport.recordedAll segment · _) quiet)
      · have rest := ih (balanced.afterReports follows) stayed listed ascending untouched
        rw [others, if_neg Bool.false_ne_true]
        exact rest.trans (congrArg (SizeReport.recordedAll segment · _) now)

/-! ### The course of one deletion -/

/-- A stretch of a run in which a truncation makes three of its calls: it lists the segments, it
deletes one of them, and it takes the size of that one off the archive. Turns of others come
before, between and after these calls. -/
structure Passage where
  options : WalOptions
  onOverflow : Overflow
  number : Nat
  before : List Turn
  atListing : Storage
  between : List Turn
  atDeletion : Storage
  during : List Turn
  atAccounting : Storage
  after : List Turn

namespace Passage

def start (passage : Passage) : SharedLog :=
  (ofOptions passage.options passage.onOverflow).run passage.before

def found (passage : Passage) : SharedLog :=
  passage.start.run (.advance passage.number passage.atListing :: passage.between)

def gone (passage : Passage) : SharedLog :=
  passage.found.run (.advance passage.number passage.atDeletion :: passage.during)

def finish (passage : Passage) : SharedLog :=
  passage.gone.run (.advance passage.number passage.atAccounting :: passage.after)

def early (passage : Passage) : List SizeReport :=
  passage.start.reportsApart passage.number
    (.advance passage.number passage.atListing :: passage.between)

def meanwhile (passage : Passage) : List SizeReport :=
  passage.found.reportsApart passage.number
    (.advance passage.number passage.atDeletion :: passage.during)

def late (passage : Passage) : List SizeReport :=
  passage.gone.reportsApart passage.number
    (.advance passage.number passage.atAccounting :: passage.after)

/-- The archive is bounded, and the calls are those for `segment`, which was listed with `size`. -/
structure Deletes (passage : Passage) (segment : Nat) (size : Int) : Prop where
  bounded : passage.options.maxArchiveSize.isSome
  lists : ∃ threshold checkpoint,
    passage.start.truncations[passage.number]? = some (.listing threshold checkpoint)
  deletes : ∃ progress,
    passage.found.truncations[passage.number]? = some (.deleting progress segment size)
  accounts : ∃ progress,
    passage.gone.truncations[passage.number]? = some (.accounting progress segment size)

variable {passage : Passage} {segment : Nat} {size : Int}

theorem Deletes.balanced (deletes : passage.Deletes segment size) :
    passage.start.segments.archive.Balanced ∧ passage.found.segments.archive.Balanced ∧
      passage.gone.segments.archive.Balanced ∧ passage.finish.segments.archive.Balanced := by
  have start : passage.start.segments.archive.Balanced :=
    balanced_run (balanced_ofOptions deletes.bounded) passage.before
  have found : passage.found.segments.archive.Balanced := balanced_run start _
  have gone : passage.gone.segments.archive.Balanced := balanced_run found _
  exact ⟨start, found, gone, balanced_run gone _⟩

theorem Deletes.listed (deletes : passage.Deletes segment size) :
    ∃ truncation : Truncation, truncation.HasListed ∧
      truncation.pending = passage.start.segments.archive.segments ∧
      (truncation.pending.Pairwise fun first second => first.1 < second.1) ∧
      (passage.start.turn (.advance passage.number passage.atListing)).truncations[
        passage.number]? = some truncation ∧
      (passage.start.turn (.advance passage.number passage.atListing)).segments =
        passage.start.segments := by
  obtain ⟨threshold, checkpoint, waiting⟩ := deletes.lists
  have inside := (List.getElem?_eq_some_iff.1 waiting).1
  let progress : Truncation.Progress :=
    { threshold, checkpoint, deleted := 0
      remaining := passage.start.segments.archive.segments }
  refine ⟨.checking progress, trivial, rfl, passage.start.segments.archive.sizes.ascending, ?_, ?_⟩
  · simp only [SharedLog.turn, waiting, Truncation.step]
    exact List.getElem?_set_self inside
  · simp only [SharedLog.turn, waiting, Truncation.step]

theorem Deletes.bytesAt_found (deletes : passage.Deletes segment size) :
    size ≠ 0 ∧ passage.found.segments.archive.bytesAt segment =
      SizeReport.recordedAll segment size passage.early := by
  obtain ⟨truncation, listed, pending, ascending, current, same⟩ := deletes.listed
  obtain ⟨progress, deleting⟩ := deletes.deletes
  have balanced := deletes.balanced.1
  have member : (segment, size) ∈ passage.start.segments.archive.segments := by
    rw [← pending]
    exact (pending_run current listed deleting).2.subset List.mem_cons_self
  have size_eq : passage.start.segments.archive.bytesAt segment = size := by
    have tracked := (KeyMap.find?_eq_some_iff _ _ _).2 member
    exact congrArg (Option.getD · 0) tracked
  have between := bytesAt_run passage.between
    (by rw [same]; exact balanced) current listed ascending
    (Or.inl ⟨_, size, deleting, List.mem_cons_self⟩)
  have own : (Turn.advance passage.number passage.atListing).advances passage.number = true :=
    beq_self_eq_true _
  refine ⟨balanced.nonzero _ member, ?_⟩
  rw [early, reportsApart, if_pos own, List.nil_append, ← size_eq]
  rw [same] at between
  exact between

theorem Deletes.bytesAt_gone (deletes : passage.Deletes segment size) :
    passage.gone.segments.archive.bytesAt segment =
      SizeReport.recordedAll segment (passage.found.segments.archive.bytesAt segment)
        passage.meanwhile := by
  -- The call that deletes the segment comes first and reports nothing.
  obtain ⟨truncation, listed, -, ascending, current, -⟩ := deletes.listed
  obtain ⟨progress, deleting⟩ := deletes.deletes
  obtain ⟨later, accounting⟩ := deletes.accounts
  have suffix := (pending_run current listed deleting).2
  exact bytesAt_run _ deletes.balanced.2.1 deleting trivial (ascending.sublist suffix.sublist)
    (Or.inl ⟨_, size, accounting, List.mem_cons_self⟩)

theorem Deletes.bytesAt_finish (deletes : passage.Deletes segment size) :
    passage.finish.segments.archive.bytesAt segment =
      SizeReport.recordedAll segment (passage.gone.segments.archive.bytesAt segment - size)
        passage.late := by
  obtain ⟨truncation, listed, -, ascending, current, -⟩ := deletes.listed
  obtain ⟨progress, deleting⟩ := deletes.deletes
  obtain ⟨later, accounting⟩ := deletes.accounts
  have balanced := deletes.balanced.2.2.1
  have suffix := (pending_run deleting trivial accounting).2.trans
    (pending_run current listed deleting).2
  obtain ⟨behind, rest⟩ := List.pairwise_cons.1 (ascending.sublist suffix.sublist)
  have own : (Turn.advance passage.number passage.atAccounting).advances passage.number = true :=
    beq_self_eq_true _
  have moved : (passage.gone.turn (.advance passage.number passage.atAccounting)).truncations[
      passage.number]? = some (.checking { later with deleted := later.deleted + 1 }) := by
    simp only [SharedLog.turn, accounting, Truncation.step]
    exact List.getElem?_set_self (List.getElem?_eq_some_iff.1 accounting).1
  have follows := passage.gone.turn_archive (.advance passage.number passage.atAccounting)
  have taken := balanced.bytesAt_afterReports follows segment
  have reports : passage.gone.sizeReports (.advance passage.number passage.atAccounting) =
      [.change segment (-size)] := by
    simp only [sizeReports, accounting, Truncation.sizeReports]
  have after := bytesAt_run passage.after (balanced.afterReports follows) moved trivial
    rest (Or.inr fun entry member => (Nat.ne_of_lt (behind entry member)).symm)
  rw [reports] at taken
  have off : SizeReport.recordedAll segment (passage.gone.segments.archive.bytesAt segment)
      [.change segment (-size)] = passage.gone.segments.archive.bytesAt segment - size :=
    if_pos rfl
  rw [late, reportsApart, if_pos own, List.nil_append]
  rw [taken, off] at after
  exact after

def among (early meanwhile late : List Turn) : Passage :=
  let storage : Storage := { checkpoint := some 9, failure := fun _ => none }
  { options := .default
    onOverflow := .wraps
    number := 0
    before := [.call (.addSize 0 100), .truncate 0, .advance 0 storage]
    atListing := storage
    between := .advance 0 storage :: early ++ [.advance 0 storage]
    atDeletion := storage
    during := meanwhile
    atAccounting := storage
    after := late }

def lone : Truncation.Progress := { threshold := 0, checkpoint := 9, deleted := 0, remaining := [] }

end Passage

end SharedLog

end Durability
