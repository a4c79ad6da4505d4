import Durability.Proofs.Codec.Corruption
import Durability.Proofs.Codec.Spelling

/-! Looking ahead refuses nothing. Before counted items are read, their count is held against the
bytes that remain, at so many bytes for each item. No item that can be read takes fewer, so that an
input which cannot hold the count would have run out, or been found corrupt, in one of the items.
Nested counts make no difference: a reader that looks ahead stays beside one that does not, field by
field. -/

namespace Durability

namespace Reader

variable {α β : Type}

/-- The first reader does on every input what the second does, unless it calls the input cut off
already where the second goes on to find it corrupt. -/
def Forestalls (first second : Reader α) : Prop :=
  ∀ input, first.run input = second.run input ∨
    (first.run input).1 = .error (.corruption .truncated) ∧
      ∃ why, (second.run input).1 = .error (.corruption why)

theorem forestalls_refl (reader : Reader α) : reader.Forestalls reader := fun _ => Or.inl rfl

theorem Forestalls.bind {first second : Reader α} {next later : α → Reader β}
    (one : first.Forestalls second) (others : ∀ value, (next value).Forestalls (later value)) :
    (first >>= next).Forestalls (second >>= later) := by
  intro input
  rcases one input with same | ⟨cut, why, corrupt⟩
  · rw [run_bind, run_bind, same]
    match second.run input with
    | (.ok value, rest) => exact others value rest
    | (.error _, _) => exact Or.inl rfl
  · exact Or.inr ⟨run_bind_of_error cut, why, run_bind_of_error corrupt⟩

theorem forestalls_after (reader : Reader α) {next later : α → Reader β}
    (others : ∀ value, (next value).Forestalls (later value)) :
    (reader >>= next).Forestalls (reader >>= later) :=
  (forestalls_refl reader).bind others

theorem Forestalls.map {first second : Reader α} (one : first.Forestalls second) (f : α → β) :
    (f <$> first).Forestalls (f <$> second) :=
  one.bind fun value => forestalls_refl (pure (f value))

theorem Forestalls.times {item plain : Reader α} (one : item.Forestalls plain) (count : Nat) :
    (Reader.times count item).Forestalls (Reader.times count plain) := by
  induction count with
  | zero => exact forestalls_refl _
  | succ count ih =>
      rw [times_succ, times_succ]
      exact one.bind fun value => ih.bind fun values => forestalls_refl _

theorem length_of_times {item : Reader α} {write : α → Output} {holds : α → Prop} {width : Nat}
    (takes : item.Takes fun value output => holds value ∧ output = write value)
    (wide : ∀ value, (write value).failure = none → width ≤ (write value).bytes.length)
    {count : Nat} {input rest : Bytes} {values : List α}
    (success : (times count item).run input = (.ok values, rest)) :
    count * width ≤ input.length := by
  obtain ⟨output, ⟨rfl, -, rfl⟩, fine, split⟩ :=
    takes_times takes count input values rest success rfl
  have long := Output.length_concat_le values (fun value _ => wide value) fine
  have whole : input = (Output.concat (values.map write)).bytes ++ rest := split
  rw [whole, List.length_append]
  exact Nat.le_trans long (Nat.le_add_right _ _)

theorem Forestalls.counted {item plain : Reader α} {write : α → Output} {holds : α → Prop}
    {width : Nat} (one : item.Forestalls plain)
    (takes : plain.Takes fun value output => holds value ∧ output = write value)
    (wide : ∀ value, (write value).failure = none → width ≤ (write value).bytes.length)
    (only : plain.FailsCorrupt) (count : Nat) :
    (Reader.counted .checked count width item).Forestalls
      (Reader.counted .unchecked count width plain) := by
  change (ensure (count * width) >>= fun _ => Reader.times count item).Forestalls
    (Reader.times count plain)
  intro input
  by_cases enough : reaches (count * width) input = true
  · have passed : (ensure (count * width)).run input = (.ok (), input) := by
      simp only [ensure, enough, if_true]
    rw [run_bind, passed]
    exact one.times count input
  · have short : ¬ count * width ≤ input.length := fun fits => enough (reaches_iff.2 fits)
    have refused : ((ensure (count * width)).run input).1 = .error (.corruption .truncated) := by
      simp only [ensure, enough, Bool.false_eq_true, if_false]
    refine Or.inr ⟨run_bind_of_error refused, ?_⟩
    cases outcome : (Reader.times count plain).run input with
    | mk result rest =>
        cases result with
        | ok values => exact absurd (length_of_times takes wide outcome) short
        | error cause =>
            obtain ⟨why, rfl⟩ := only.times count input cause (congrArg Prod.fst outcome)
            exact ⟨why, rfl⟩

end Reader

namespace Codec

open Output Reader

/-! ### Counted blocks -/

theorem forestalls_readGroups : (readGroups .checked).Forestalls (readGroups .unchecked) := by
  have partitions (count : Nat) :
      (Reader.counted .checked count partitionSize readPartition).Forestalls
        (Reader.counted .unchecked count partitionSize readPartition) :=
    (forestalls_refl readPartition).counted takes_partition.each
      (fun state fine => Nat.le_of_eq (hasSize_partition state fine).symm)
      failsCorrupt_readPartition count
  have group : (readGroup .checked).Forestalls (readGroup .unchecked) :=
    forestalls_after _ fun _ => forestalls_after _ fun count =>
      (partitions count).bind fun _ => forestalls_refl _
  exact forestalls_after _ fun count => (group.times count).bind fun _ => forestalls_refl _

theorem forestalls_readEntries (count : Nat) :
    (Reader.counted .checked count entryFixedSize readEntry).Forestalls
      (Reader.counted .unchecked count entryFixedSize readEntry) := by
  apply (forestalls_refl readEntry).counted takes_entry.each _ failsCorrupt_readEntry
  intro entry fine
  rw [hasSize_entry entry fine, entrySize]
  omega

theorem forestalls_readParticipants :
    (readParticipants .checked).Forestalls (readParticipants .unchecked) := by
  have backups (count : Nat) : (Reader.counted .checked count 2 Reader.uint16).Forestalls
      (Reader.counted .unchecked count 2 Reader.uint16) :=
    (forestalls_refl Reader.uint16).counted takes_uint16.each
      (fun backup fine => Nat.le_of_eq (hasSize_number 2 backup.toNat fine).symm)
      failsCorrupt_uint16 count
  have participant : (readParticipant .checked).Forestalls (readParticipant .unchecked) :=
    forestalls_after _ fun _ => forestalls_after _ fun count =>
      (backups count).bind fun _ => forestalls_refl _
  have wide (participant : UInt16 × List UInt16)
      (fine : (writeParticipant participant).failure = none) :
      participantFixedSize ≤ (writeParticipant participant).bytes.length := by
    rw [hasSize_participant participant fine]
    exact Nat.le_add_right _ _
  exact forestalls_after _ fun count =>
    (participant.counted (takes_participant .unchecked) wide
      (failsCorrupt_readParticipant .unchecked) count).bind fun _ => forestalls_refl _

/-! ### Payloads -/

theorem forestalls_readTransaction :
    (readTransaction .checked).Forestalls (readTransaction .unchecked) :=
  forestalls_after _ fun _ => forestalls_after _ fun _ =>
    forestalls_after _ fun _ => forestalls_after _ fun _ =>
      forestalls_readParticipants.bind fun _ => forestalls_refl _

theorem forestalls_readBatch (version : Version) :
    (readBatch .checked version).Forestalls (readBatch .unchecked version) := by
  refine forestalls_after _ fun count => ?_
  cases version with
  | v1 | v2 =>
      exact forestalls_after _ fun _ =>
        (forestalls_readEntries count).bind fun _ => forestalls_refl _

theorem forestalls_readCheckpoint (version : Version) :
    (readCheckpoint .checked version).Forestalls (readCheckpoint .unchecked version) :=
  forestalls_after _ fun _ => forestalls_after _ fun _ =>
    forestalls_after _ fun _ => forestalls_readGroups.bind fun _ => forestalls_refl _

theorem forestalls_readPayload (version : Version) (kind : RecordKind) :
    (readPayload .checked version kind).Forestalls (readPayload .unchecked version kind) := by
  cases kind with
  | transaction => exact forestalls_readTransaction.map _
  | data => exact (forestalls_readBatch version).map _
  | checkpoint => exact (forestalls_readCheckpoint version).map _
  | header | memoryRecovery | partitionDestroy | switchSegment | snapshot | exchange | rollback
  | metastore | pageRepair => exact forestalls_refl _

/-- Whatever the version, the kind and the bytes: reading a payload gives what it would give without
any look ahead, the same record in front of the same bytes. Where it fails it would fail without
too, for a kind that the version does not provide by turning that away, and otherwise because the
input is corrupt. All that looking ahead may change is that the input is called cut off, before
something else is found wrong with it. -/
theorem lookAhead_refuses_nothing (version : Version) (kind : RecordKind) (input : Bytes) :
    let looking := (read version kind).run input
    let plain := (readWith .unchecked version kind).run input
    (∃ record rest, looking = (.ok record, rest) ∧ plain = (.ok record, rest)) ∨
      (∃ why found, looking.1 = .error (.corruption why) ∧ plain.1 = .error (.corruption found) ∧
        (why = found ∨ why = .truncated)) ∨
      version.provides kind = false ∧ looking = plain ∧
        looking = (.error (.unsupported (.kindNeedsVersion2 kind)), input) := by
  intro looking plain
  by_cases provided : version.provides kind = true
  · have looks : looking = (readPayload .checked version kind).run input := by
      simp only [looking, read, readWith, if_pos provided]
    have reads : plain = (readPayload .unchecked version kind).run input := by
      simp only [plain, readWith, if_pos provided]
    have both := forestalls_readPayload version kind input
    rw [← looks, ← reads] at both
    rcases both with same | ⟨cut, found, corrupt⟩
    · rw [same]
      cases outcome : plain with
      | mk result rest =>
          cases result with
          | ok record => exact Or.inl ⟨record, rest, rfl, rfl⟩
          | error cause =>
              obtain ⟨why, rfl⟩ := failsCorrupt_readPayload .unchecked version kind input cause
                (congrArg Prod.fst (reads.symm.trans outcome))
              exact Or.inr (Or.inl ⟨why, why, rfl, rfl, Or.inl rfl⟩)
    · exact Or.inr (Or.inl ⟨.truncated, found, cut, corrupt, Or.inr rfl⟩)
  · refine Or.inr (Or.inr ⟨Bool.eq_false_iff.2 provided, ?_, ?_⟩)
    · simp only [looking, plain, read, readWith, if_neg provided]
    · simp only [looking, read, readWith, if_neg provided]
      rfl

example :
    let input : Bytes := [0, 0, 0, 1, 0, 0, 0, 9, 255, 255, 255, 255]
    ((read .v1 .data).run input).1 = .error (.corruption .truncated) ∧
      ((readWith .unchecked .v1 .data).run input).1 = .error (.corruption .entryKeyMissing) :=
  ⟨rfl, rfl⟩

end Codec

end Durability
