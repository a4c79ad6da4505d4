import Durability.Codec.Frame
import Durability.Proofs.Bytes.Stable

/-! Every reader of the codec is stable: what it makes of a byte string, other than that the
string was cut short, it makes of every longer one. The readers are put together from stable parts,
and the look at the bytes that remain, which comes before counted items, is one of them. -/

namespace Durability.Codec

open Reader

/-! ### Checkpoints -/

theorem stable_readPartition : readPartition.Stable :=
  stable_uint16.bind fun _ => stable_uint64.bind fun _ => stable_uint64.bind fun _ =>
    stable_uint8.bind fun _ => stable_pure _

theorem stable_readGroup (look : LookAhead) : (readGroup look).Stable :=
  stable_int32.bind fun _ => (stable_number 2).bind fun count =>
    (stable_readPartition.counted look count partitionSize).bind fun _ => stable_pure _

theorem stable_readGroups (look : LookAhead) : (readGroups look).Stable :=
  (stable_number 2).bind fun count =>
    ((stable_readGroup look).times count).bind fun _ => stable_pure _

theorem stable_readMark (version : Version) : (readMark version).Stable := by
  refine stable_flag.bind fun announced => Stable.ite ?_ (stable_pure none)
  refine stable_uint64.bind fun segment => stable_uint32.bind fun offset => ?_
  cases version with
  | v1 => exact (stable_pure 0).bind fun _ => stable_pure _
  | v2 => exact stable_uint32.bind fun _ => stable_pure _

theorem stable_readCheckpoint (look : LookAhead) (version : Version) :
    (readCheckpoint look version).Stable :=
  stable_uint64.bind fun _ => stable_uint64.bind fun _ => (stable_readMark version).bind fun _ =>
    (stable_readGroups look).bind fun _ => stable_flag.bind fun _ => stable_pure _

/-! ### Data batches -/

theorem stable_readCacheVersion : readCacheVersion.Stable :=
  stable_uint32.bind fun _ => stable_uint32.bind fun _ => stable_uint64.bind fun _ =>
    stable_pure _

theorem stable_readEntry : readEntry.Stable := by
  refine stable_int32.bind fun cache => stable_lengthPrefixed.bind fun key => ?_
  refine (stable_require _ key).bind fun key => stable_lengthPrefixed.bind fun value => ?_
  refine stable_uint8.bind fun operation => (stable_require _ _).bind fun operation => ?_
  exact stable_readCacheVersion.bind fun _ => stable_readCacheVersion.bind fun _ =>
    stable_int32.bind fun _ => stable_uint64.bind fun _ => stable_uint64.bind fun _ =>
      stable_pure _

theorem stable_readBatch (look : LookAhead) (version : Version) :
    (readBatch look version).Stable := by
  have entries (count : Nat) : (Reader.counted look count entryFixedSize readEntry).Stable :=
    stable_readEntry.counted look count entryFixedSize
  refine (stable_number 4).bind fun count => ?_
  cases version with
  | v1 =>
      exact (stable_pure 0).bind fun _ => (entries count).bind fun _ => stable_pure _
  | v2 => exact stable_uint64.bind fun _ => (entries count).bind fun _ => stable_pure _

/-! ### Transactions -/

theorem stable_readParticipant (look : LookAhead) : (readParticipant look).Stable :=
  stable_uint16.bind fun _ => (stable_number 4).bind fun count =>
    (stable_uint16.counted look count 2).bind fun _ => stable_pure _

theorem stable_readParticipants (look : LookAhead) : (readParticipants look).Stable :=
  (stable_number 4).bind fun count =>
    ((stable_readParticipant look).counted look count participantFixedSize).bind fun _ =>
      stable_pure _

theorem stable_readTransaction (look : LookAhead) : (readTransaction look).Stable :=
  stable_uint8.bind fun state => (stable_require _ (TransactionState.ofId? state)).bind fun _ =>
    stable_readCacheVersion.bind fun _ => stable_readCacheVersion.bind fun _ =>
      (stable_readParticipants look).bind fun _ => stable_uint64.bind fun _ => stable_pure _

/-! ### Payloads and frames -/

theorem stable_readHeader : readHeader.Stable :=
  (stable_number 8).bind fun _ => (stable_uint32.map _).ite (stable_fail _)

theorem stable_readExchange : readExchange.Stable :=
  stable_int32.bind fun ordinal => (stable_require _ (ExchangeKind.ofOrdinal? ordinal)).bind
    fun _ => stable_uint16.bind fun _ => stable_uint64.bind fun _ => stable_pure _

theorem stable_readMetastore : readMetastore.Stable := by
  refine stable_lengthPrefixed.bind fun key => (stable_require _ key).bind fun key => ?_
  refine (stable_require _ (String.fromUTF8? key.toByteArray)).bind fun text => ?_
  exact stable_lengthPrefixed.bind fun _ => stable_pure _

theorem stable_readPayload (look : LookAhead) (version : Version) (kind : RecordKind) :
    (readPayload look version kind).Stable := by
  cases kind with
  | transaction => exact (stable_readTransaction look).map _
  | data => exact (stable_readBatch look version).map _
  | checkpoint => exact (stable_readCheckpoint look version).map _
  | header => exact stable_readHeader
  | memoryRecovery => exact stable_uint64.map _
  | partitionDestroy => exact stable_int32.bind fun _ => stable_int32.bind fun _ => stable_pure _
  | switchSegment => exact stable_pure _
  | snapshot =>
      have parts : readSnapshot.Stable :=
        stable_uint64.bind fun _ => stable_uint8.bind fun _ => stable_pure _
      exact parts.map _
  | exchange => exact stable_readExchange.map _
  | rollback =>
      have parts : readRollback.Stable := stable_int32.bind fun _ => stable_int32.bind fun _ =>
        stable_uint64.bind fun _ => stable_uint64.bind fun _ => stable_pure _
      exact parts.map _
  | metastore => exact stable_readMetastore.map _
  | pageRepair =>
      have parts : readPageRepair.Stable :=
        stable_int32.bind fun _ => stable_uint64.bind fun _ => stable_pure _
      exact parts.map _

theorem stable_readWith (look : LookAhead) (version : Version) (kind : RecordKind) :
    (readWith look version kind).Stable :=
  (stable_readPayload look version kind).ite (stable_fail _)

theorem stable_readKind : readKind.Stable :=
  stable_uint8.bind fun byte => stable_require _ (RecordKind.ofId? byte)

theorem stable_readFramed (version : Version) : (readFramed version).Stable :=
  stable_readKind.bind fun kind => stable_readWith .checked version kind

end Durability.Codec
