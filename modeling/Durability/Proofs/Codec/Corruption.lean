import Durability.Codec.Payload
import Durability.Proofs.Bytes.ReadBack

/-! Reading fails for one reason only: the input is corrupt. A reader is put together from parts
that fail in no other way, whatever bytes they are given; what a version does not provide is turned
away before anything is read. -/

namespace Durability

namespace Reader

variable {α β : Type}

def FailsCorrupt (reader : Reader α) : Prop :=
  ∀ input cause, (reader.run input).1 = .error cause → ∃ why, cause = .corruption why

theorem failsCorrupt_pure (value : α) : (pure value : Reader α).FailsCorrupt := nofun

theorem failsCorrupt_fail (why : Corruption) :
    (fail (.corruption why) : Reader α).FailsCorrupt :=
  fun _ _ failed => ⟨why, (Except.error.inj failed).symm⟩

theorem FailsCorrupt.bind {first : Reader α} {next : α → Reader β} (one : first.FailsCorrupt)
    (others : ∀ value, (next value).FailsCorrupt) : (first >>= next).FailsCorrupt := by
  intro input cause failed
  have start := one input
  rw [run_bind] at failed
  cases taken : first.run input with
  | mk outcome rest =>
      rw [taken] at start failed
      cases outcome with
      | ok value => exact others value rest cause failed
      | error found =>
          cases failed
          exact start cause rfl

theorem FailsCorrupt.map {reader : Reader α} (only : reader.FailsCorrupt) (f : α → β) :
    (f <$> reader).FailsCorrupt :=
  only.bind fun value => failsCorrupt_pure (f value)

theorem FailsCorrupt.ite {condition : Prop} [Decidable condition] {first second : Reader α}
    (one : first.FailsCorrupt) (other : second.FailsCorrupt) :
    (if condition then first else second).FailsCorrupt := by
  split
  · exact one
  · exact other

theorem failsCorrupt_require (why : Corruption) (found : Option α) :
    (require why found).FailsCorrupt := by
  cases found with
  | none => exact failsCorrupt_fail why
  | some value => exact failsCorrupt_pure value

theorem failsCorrupt_ensure (count : Nat) : (ensure count).FailsCorrupt := by
  intro input cause failed
  simp only [ensure] at failed
  split at failed
  · cases failed
  · exact ⟨.truncated, (Except.error.inj failed).symm⟩

theorem failsCorrupt_take (count : Nat) : (take count).FailsCorrupt := by
  intro input cause failed
  simp only [take] at failed
  split at failed
  · cases failed
  · exact ⟨.truncated, (Except.error.inj failed).symm⟩

theorem failsCorrupt_number (width : Nat) : (number width).FailsCorrupt :=
  (failsCorrupt_take width).map _

theorem failsCorrupt_uint8 : uint8.FailsCorrupt := (failsCorrupt_number 1).map _

theorem failsCorrupt_uint16 : uint16.FailsCorrupt := (failsCorrupt_number 2).map _

theorem failsCorrupt_uint32 : uint32.FailsCorrupt := (failsCorrupt_number 4).map _

theorem failsCorrupt_uint64 : uint64.FailsCorrupt := (failsCorrupt_number 8).map _

theorem failsCorrupt_int32 : int32.FailsCorrupt := failsCorrupt_uint32.map _

theorem failsCorrupt_flag : flag.FailsCorrupt := failsCorrupt_uint8.map _

theorem failsCorrupt_lengthPrefixed : lengthPrefixed.FailsCorrupt :=
  (failsCorrupt_number 4).bind fun length =>
    (failsCorrupt_pure none).ite ((failsCorrupt_take length).map some)

theorem FailsCorrupt.times {item : Reader α} (only : item.FailsCorrupt) (count : Nat) :
    (Reader.times count item).FailsCorrupt := by
  induction count with
  | zero => exact failsCorrupt_pure []
  | succ count ih =>
      rw [times_succ]
      exact only.bind fun value => ih.bind fun values => failsCorrupt_pure (value :: values)

theorem FailsCorrupt.counted {item : Reader α} (only : item.FailsCorrupt) (look : LookAhead)
    (count width : Nat) : (Reader.counted look count width item).FailsCorrupt := by
  cases look with
  | unchecked => exact only.times count
  | checked => exact (failsCorrupt_ensure (count * width)).bind fun _ => only.times count

end Reader

namespace Codec

open Reader

/-! ### Counted blocks -/

theorem failsCorrupt_readPartition : readPartition.FailsCorrupt :=
  failsCorrupt_uint16.bind fun _ => failsCorrupt_uint64.bind fun _ =>
    failsCorrupt_uint64.bind fun _ => failsCorrupt_uint8.bind fun _ => failsCorrupt_pure _

theorem failsCorrupt_readGroups (look : LookAhead) : (readGroups look).FailsCorrupt := by
  have group : (readGroup look).FailsCorrupt :=
    failsCorrupt_int32.bind fun _ => (failsCorrupt_number 2).bind fun count =>
      (failsCorrupt_readPartition.counted look count partitionSize).bind fun _ =>
        failsCorrupt_pure _
  exact (failsCorrupt_number 2).bind fun count =>
    (group.times count).bind fun _ => failsCorrupt_pure _

theorem failsCorrupt_readParticipant (look : LookAhead) : (readParticipant look).FailsCorrupt :=
  failsCorrupt_uint16.bind fun _ => (failsCorrupt_number 4).bind fun count =>
    (failsCorrupt_uint16.counted look count 2).bind fun _ => failsCorrupt_pure _

theorem failsCorrupt_readParticipants (look : LookAhead) :
    (readParticipants look).FailsCorrupt :=
  (failsCorrupt_number 4).bind fun count =>
    ((failsCorrupt_readParticipant look).counted look count participantFixedSize).bind fun _ =>
      failsCorrupt_pure _

theorem failsCorrupt_readCacheVersion : readCacheVersion.FailsCorrupt :=
  failsCorrupt_uint32.bind fun _ => failsCorrupt_uint32.bind fun _ =>
    failsCorrupt_uint64.bind fun _ => failsCorrupt_pure _

theorem failsCorrupt_readEntry : readEntry.FailsCorrupt := by
  refine failsCorrupt_int32.bind fun cache => failsCorrupt_lengthPrefixed.bind fun key => ?_
  refine (failsCorrupt_require _ key).bind fun key => failsCorrupt_lengthPrefixed.bind fun _ => ?_
  refine failsCorrupt_uint8.bind fun byte => (failsCorrupt_require _ _).bind fun operation => ?_
  exact failsCorrupt_readCacheVersion.bind fun _ => failsCorrupt_readCacheVersion.bind fun _ =>
    failsCorrupt_int32.bind fun _ => failsCorrupt_uint64.bind fun _ =>
      failsCorrupt_uint64.bind fun _ => failsCorrupt_pure _

/-! ### Payloads -/

theorem failsCorrupt_readTransaction (look : LookAhead) : (readTransaction look).FailsCorrupt :=
  failsCorrupt_uint8.bind fun _ => (failsCorrupt_require _ _).bind fun _ =>
    failsCorrupt_readCacheVersion.bind fun _ => failsCorrupt_readCacheVersion.bind fun _ =>
      (failsCorrupt_readParticipants look).bind fun _ => failsCorrupt_uint64.bind fun _ =>
        failsCorrupt_pure _

theorem failsCorrupt_readBatch (look : LookAhead) (version : Version) :
    (readBatch look version).FailsCorrupt := by
  have entries (count : Nat) :
      (Reader.counted look count entryFixedSize readEntry).FailsCorrupt :=
    failsCorrupt_readEntry.counted look count entryFixedSize
  refine (failsCorrupt_number 4).bind fun count => ?_
  cases version with
  | v1 =>
      exact (failsCorrupt_pure 0).bind fun _ => (entries count).bind fun _ => failsCorrupt_pure _
  | v2 => exact failsCorrupt_uint64.bind fun _ => (entries count).bind fun _ => failsCorrupt_pure _

theorem failsCorrupt_readMark (version : Version) : (readMark version).FailsCorrupt := by
  refine failsCorrupt_flag.bind fun announced => FailsCorrupt.ite ?_ (failsCorrupt_pure none)
  refine failsCorrupt_uint64.bind fun segment => failsCorrupt_uint32.bind fun offset => ?_
  cases version with
  | v1 => exact (failsCorrupt_pure 0).bind fun _ => failsCorrupt_pure _
  | v2 => exact failsCorrupt_uint32.bind fun _ => failsCorrupt_pure _

theorem failsCorrupt_readCheckpoint (look : LookAhead) (version : Version) :
    (readCheckpoint look version).FailsCorrupt :=
  failsCorrupt_uint64.bind fun _ => failsCorrupt_uint64.bind fun _ =>
    (failsCorrupt_readMark version).bind fun _ => (failsCorrupt_readGroups look).bind fun _ =>
      failsCorrupt_flag.bind fun _ => failsCorrupt_pure _

theorem failsCorrupt_readMetastore : readMetastore.FailsCorrupt := by
  refine failsCorrupt_lengthPrefixed.bind fun key => (failsCorrupt_require _ key).bind fun key => ?_
  refine (failsCorrupt_require _ (String.fromUTF8? key.toByteArray)).bind fun text => ?_
  exact failsCorrupt_lengthPrefixed.bind fun _ => failsCorrupt_pure _

theorem failsCorrupt_readPayload (look : LookAhead) (version : Version) (kind : RecordKind) :
    (readPayload look version kind).FailsCorrupt := by
  cases kind with
  | transaction => exact (failsCorrupt_readTransaction look).map _
  | data => exact (failsCorrupt_readBatch look version).map _
  | checkpoint => exact (failsCorrupt_readCheckpoint look version).map _
  | header =>
      exact (failsCorrupt_number 8).bind fun _ =>
        (failsCorrupt_uint32.map _).ite (failsCorrupt_fail _)
  | memoryRecovery => exact failsCorrupt_uint64.map _
  | partitionDestroy =>
      exact failsCorrupt_int32.bind fun _ => failsCorrupt_int32.bind fun _ => failsCorrupt_pure _
  | switchSegment => exact failsCorrupt_pure _
  | snapshot =>
      have parts : readSnapshot.FailsCorrupt :=
        failsCorrupt_uint64.bind fun _ => failsCorrupt_uint8.bind fun _ => failsCorrupt_pure _
      exact parts.map _
  | exchange =>
      have parts : readExchange.FailsCorrupt :=
        failsCorrupt_int32.bind fun _ => (failsCorrupt_require _ _).bind fun _ =>
          failsCorrupt_uint16.bind fun _ => failsCorrupt_uint64.bind fun _ => failsCorrupt_pure _
      exact parts.map _
  | rollback =>
      have parts : readRollback.FailsCorrupt :=
        failsCorrupt_int32.bind fun _ => failsCorrupt_int32.bind fun _ =>
          failsCorrupt_uint64.bind fun _ => failsCorrupt_uint64.bind fun _ => failsCorrupt_pure _
      exact parts.map _
  | metastore => exact failsCorrupt_readMetastore.map _
  | pageRepair =>
      have parts : readPageRepair.FailsCorrupt :=
        failsCorrupt_int32.bind fun _ => failsCorrupt_uint64.bind fun _ => failsCorrupt_pure _
      exact parts.map _

end Codec

end Durability
