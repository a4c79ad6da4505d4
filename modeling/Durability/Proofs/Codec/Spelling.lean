import Durability.Proofs.Bytes.Spelling
import Durability.Proofs.Codec.RoundTrip

/-! The payloads that are read as a record. Of most records there is one, its layout. The others
have more for three reasons only: a byte read as a truth value may be any that has this truth value,
a cache group or a primary node may be listed again, and the lists need not be in order. `Spells`
names them, and every reader is shown to take nothing else. -/

namespace Durability

theorem CacheOperation.id_of_ofId? {byte : UInt8} {operation : CacheOperation}
    (found : ofId? byte = some operation) : operation.id = byte := by
  simpa using List.find?_some found

theorem ExchangeKind.ordinal_of_ofOrdinal? {ordinal : Int32} {kind : ExchangeKind}
    (found : ofOrdinal? ordinal = some kind) : kind.ordinal = ordinal := by
  simpa using List.find?_some found

theorem TransactionState.id_of_ofId? {byte : UInt8} {state : TransactionState}
    (found : ofId? byte = some state) : state.id = byte := by
  simpa using List.find?_some found

namespace Codec

open Output Reader

/-! ### The spellings -/

def spellMark (version : Version) (announced : UInt8) (mark : Option LogPointer) : Output :=
  .uint8 announced ++
    match mark with
    | none => .nil
    | some pointer =>
      .uint64 pointer.segment ++ .uint32 pointer.offset ++
        match version with
        | .v1 => .nil
        | .v2 => .uint32 pointer.length

def spellCheckpoint (version : Version) (id : CheckpointId) (announced : UInt8)
    (mark : Option LogPointer) (listed : List (Int32 × List PartitionState)) (ended : UInt8) :
    Output :=
  .uint64 id.high ++ .uint64 id.low ++ spellMark version announced mark ++ writeGroups listed ++
    .uint8 ended

def spellTransaction (state : TransactionState) (nearVersion writeVersion : CacheVersion)
    (listed : List (UInt16 × List UInt16)) (timestamp : UInt64) : Output :=
  .uint8 state.id ++ writeCacheVersion nearVersion ++ writeCacheVersion writeVersion ++
    writeParticipants listed ++ .uint64 timestamp

def spellSnapshot (id : UInt64) (full : UInt8) : Output := .uint64 id ++ .uint8 full

def respelled : List RecordKind := [.checkpoint, .transaction, .snapshot]

/-- `output` is a payload that is read as the record. -/
inductive Spells (version : Version) : Record → Output → Prop where
  | checkpoint (id : CheckpointId) (announced : UInt8) (mark : Option LogPointer)
      (listed : List (Int32 × List PartitionState)) (ended : UInt8)
      (announces : mark.isSome = (announced != 0))
      (count : listed.length < BigEndian.capacity 2)
      (counts : ∀ group ∈ listed, group.2.length < BigEndian.capacity 2) :
      Spells version
        (.checkpoint { id, mark, groups := KeyMap.ofList listed, isEnd := ended != 0 })
        (spellCheckpoint version id announced mark listed ended)
  | transaction (state : TransactionState) (nearVersion writeVersion : CacheVersion)
      (listed : List (UInt16 × List UInt16)) (timestamp : UInt64)
      (count : listed.length < BigEndian.capacity 4)
      (counts : ∀ participant ∈ listed, participant.2.length < BigEndian.capacity 4) :
      Spells version
        (.transaction { state, nearVersion, writeVersion, participants := KeyMap.ofList listed,
                        timestamp })
        (spellTransaction state nearVersion writeVersion listed timestamp)
  | snapshot (id : UInt64) (full : UInt8) :
      Spells version (.snapshot { id, full := full == 1 }) (spellSnapshot id full)
  | only (record : Record) (size : Nat) (single : record.kind ∉ respelled)
      (sized : payloadSize version record = .ok size) :
      Spells version record (layout version record)

/-! ### Checkpoints -/

theorem takes_partition : readPartition.TakesBack writePartition :=
  takes_uint16.bind fun _ => takes_uint64.bind fun _ => takes_uint64.bind fun _ =>
    takes_uint8.bind fun _ => TakesAfter.pure rfl

theorem takes_group (look : LookAhead) :
    (readGroup look).Takes fun group output =>
      group.2.length < BigEndian.capacity 2 ∧ output = writeGroup group := by
  apply takes_int32.bind
  intro group
  apply (takes_number 2).bind
  rintro count output ⟨fits, rfl⟩
  apply (takes_counted takes_partition.each look count partitionSize).bind
  rintro partitions output ⟨rfl, -, rfl⟩
  exact TakesAfter.pure ⟨fits, rfl⟩

theorem takes_groups (look : LookAhead) :
    (readGroups look).Takes fun groups output => ∃ listed,
      groups = KeyMap.ofList listed ∧ listed.length < BigEndian.capacity 2 ∧
        (∀ group ∈ listed, group.2.length < BigEndian.capacity 2) ∧
        output = writeGroups listed := by
  apply (takes_number 2).bind
  rintro count output ⟨fits, rfl⟩
  apply (takes_times (takes_group look) count).bind
  rintro listed output ⟨rfl, each, rfl⟩
  exact TakesAfter.pure ⟨listed, rfl, fits, each, rfl⟩

theorem takes_mark (version : Version) :
    (readMark version).Takes fun mark output => ∃ announced,
      mark.isSome = (announced != 0) ∧ output = spellMark version announced mark := by
  apply takes_flag.bind
  rintro present output ⟨announced, rfl, rfl⟩
  cases announces : announced != 0 with
  | false =>
      exact TakesAfter.pure ⟨announced, announces.symm, (append_nil _).symm⟩
  | true =>
      apply takes_uint64.bind
      intro segment
      apply takes_uint32.bind
      intro offset
      cases version with
      | v1 =>
          apply (takes_pure 0).bind
          rintro length output ⟨rfl, rfl⟩
          refine TakesAfter.pure ⟨announced, announces.symm, ?_⟩
          simp only [spellMark, append_assoc, nil_append]
      | v2 =>
          apply takes_uint32.bind
          intro length
          refine TakesAfter.pure ⟨announced, announces.symm, ?_⟩
          simp only [spellMark, append_assoc, nil_append]

theorem takes_checkpoint (look : LookAhead) (version : Version) :
    (readCheckpoint look version).Takes fun checkpoint output =>
      Spells version (.checkpoint checkpoint) output := by
  apply takes_uint64.bind
  intro high
  apply takes_uint64.bind
  intro low
  apply (takes_mark version).bind
  rintro mark output ⟨announced, announces, rfl⟩
  apply (takes_groups look).bind
  rintro groups output ⟨listed, rfl, count, counts, rfl⟩
  apply takes_flag.bind
  rintro isEnd output ⟨ended, rfl, rfl⟩
  exact TakesAfter.pure (.checkpoint ⟨high, low⟩ announced mark listed ended announces count counts)

/-! ### Data batches -/

theorem takes_cacheVersion : readCacheVersion.TakesBack writeCacheVersion :=
  takes_uint32.bind fun _ => takes_uint32.bind fun _ => takes_uint64.bind fun _ =>
    TakesAfter.pure rfl

theorem takes_entry : readEntry.TakesBack writeEntry := by
  apply takes_int32.bind
  intro cache
  apply takes_lengthPrefixed.bind
  intro array
  apply TakesAfter.require
  rintro key rfl
  apply takes_lengthPrefixed.bind
  intro value
  apply takes_uint8.bind
  intro byte
  apply TakesAfter.require
  intro operation found
  obtain rfl := CacheOperation.id_of_ofId? found
  exact takes_cacheVersion.bind fun _ => takes_cacheVersion.bind fun _ =>
    takes_int32.bind fun _ => takes_uint64.bind fun _ => takes_uint64.bind fun _ =>
      TakesAfter.pure rfl

theorem takes_batch (look : LookAhead) (version : Version) :
    (readBatch look version).Takes fun batch output =>
      batch.entries.length < BigEndian.capacity 4 ∧ output = writeBatch version batch := by
  have entries := takes_counted takes_entry.each look
  apply (takes_number 4).bind
  rintro count output ⟨fits, rfl⟩
  cases version with
  | v1 =>
      apply (takes_pure 0).bind
      rintro timestamp output ⟨rfl, rfl⟩
      apply (entries count entryFixedSize).bind
      rintro entries output ⟨rfl, -, rfl⟩
      exact TakesAfter.pure ⟨fits, rfl⟩
  | v2 =>
      apply takes_uint64.bind
      intro timestamp
      apply (entries count entryFixedSize).bind
      rintro entries output ⟨rfl, -, rfl⟩
      exact TakesAfter.pure ⟨fits, rfl⟩

theorem batch_sized (version : Version) (batch : DataBatch)
    (fits : batch.entries.length < BigEndian.capacity 4) :
    ∃ size, batchSize version batch = .ok size :=
  ⟨_, bind_eq_ok_iff.2 ⟨(), countFits_eq_ok_iff.2 fits, rfl⟩⟩

/-! ### Transactions -/

theorem takes_participant (look : LookAhead) :
    (readParticipant look).Takes fun participant output =>
      participant.2.length < BigEndian.capacity 4 ∧ output = writeParticipant participant := by
  apply takes_uint16.bind
  intro primary
  apply (takes_number 4).bind
  rintro count output ⟨fits, rfl⟩
  apply (takes_counted takes_uint16.each look count 2).bind
  rintro backups output ⟨rfl, -, rfl⟩
  exact TakesAfter.pure ⟨fits, rfl⟩

theorem takes_participants (look : LookAhead) :
    (readParticipants look).Takes fun participants output => ∃ listed,
      participants = KeyMap.ofList listed ∧ listed.length < BigEndian.capacity 4 ∧
        (∀ participant ∈ listed, participant.2.length < BigEndian.capacity 4) ∧
        output = writeParticipants listed := by
  apply (takes_number 4).bind
  rintro count output ⟨fits, rfl⟩
  apply (takes_counted (takes_participant look) look count participantFixedSize).bind
  rintro listed output ⟨rfl, each, rfl⟩
  exact TakesAfter.pure ⟨listed, rfl, fits, each, rfl⟩

theorem takes_transaction (look : LookAhead) (version : Version) :
    (readTransaction look).Takes fun transaction output =>
      Spells version (.transaction transaction) output := by
  apply takes_uint8.bind
  intro byte
  apply TakesAfter.require
  intro state found
  obtain rfl := TransactionState.id_of_ofId? found
  apply takes_cacheVersion.bind
  intro nearVersion
  apply takes_cacheVersion.bind
  intro writeVersion
  apply (takes_participants look).bind
  rintro participants output ⟨listed, rfl, count, counts, rfl⟩
  apply takes_uint64.bind
  intro timestamp
  exact TakesAfter.pure (.transaction state nearVersion writeVersion listed timestamp count counts)

/-! ### Payloads -/

theorem takes_header :
    readHeader.Takes fun record output => ∃ number : UInt32,
      record = .header number ∧ output = layout .v1 (.header number) := by
  apply (takes_number 8).bind
  rintro magic output ⟨-, rfl⟩
  by_cases opened : magic = headerMagic
  · rw [if_pos opened, opened]
    apply takes_uint32.bind
    intro number
    exact TakesAfter.pure ⟨number, rfl, rfl⟩
  · rw [if_neg opened]
    exact TakesAfter.fail

theorem toList_of_fromUTF8? {bytes : Bytes} {text : String}
    (found : String.fromUTF8? bytes.toByteArray = some text) :
    text.toByteArray.data.toList = bytes := by
  unfold String.fromUTF8? at found
  split at found
  · cases found
    change bytes.toByteArray.data.toList = bytes
    rw [List.data_toByteArray]
  · cases found

theorem takes_metastore (version : Version) :
    readMetastore.TakesBack fun entry => layout version (.metastore entry) := by
  apply takes_lengthPrefixed.bind
  intro array
  apply TakesAfter.require
  rintro key rfl
  apply TakesAfter.require
  intro text found
  obtain rfl := toList_of_fromUTF8? found
  apply takes_lengthPrefixed.bind
  intro value
  refine TakesAfter.pure ?_
  simp only [layout, lengthPrefixedText_eq]
  rfl

theorem takes_exchange (version : Version) :
    readExchange.TakesBack fun exchange => layout version (.exchange exchange) := by
  apply takes_int32.bind
  intro ordinal
  apply TakesAfter.require
  intro kind found
  obtain rfl := ExchangeKind.ordinal_of_ofOrdinal? found
  exact takes_uint16.bind fun _ => takes_uint64.bind fun _ => TakesAfter.pure rfl

theorem takes_rollback (version : Version) :
    readRollback.TakesBack fun rollback => layout version (.rollback rollback) :=
  takes_int32.bind fun _ => takes_int32.bind fun _ => takes_uint64.bind fun _ =>
    takes_uint64.bind fun _ => TakesAfter.pure rfl

theorem takes_pageRepair (version : Version) :
    readPageRepair.TakesBack fun repair => layout version (.pageRepair repair) :=
  takes_int32.bind fun _ => takes_uint64.bind fun _ => TakesAfter.pure rfl

theorem takes_snapshot (version : Version) :
    readSnapshot.Takes fun snapshot output => Spells version (.snapshot snapshot) output :=
  takes_uint64.bind fun id => takes_uint8.bind fun full => TakesAfter.pure (.snapshot id full)

theorem Spells.single {version : Version} {record : Record} {kind : RecordKind} {size : Nat}
    (is : record.kind = kind) (others : kind ∉ respelled)
    (sized : payloadSize version record = .ok size) :
    record.kind = kind ∧ Spells version record (layout version record) :=
  ⟨is, .only record size (is ▸ others) sized⟩

theorem takes_payload (look : LookAhead) (version : Version) (kind : RecordKind)
    (written : ¬ (version = .v2 ∧ kind = .header)) :
    (readPayload look version kind).Takes fun record output =>
      record.kind = kind ∧ Spells version record output := by
  cases kind with
  | transaction => exact (takes_transaction look version).map _ fun _ _ spelled => ⟨rfl, spelled⟩
  | data =>
      apply (takes_batch look version).map
      rintro batch output ⟨fits, rfl⟩
      obtain ⟨size, sized⟩ := batch_sized version batch fits
      exact Spells.single rfl (by decide) sized
  | checkpoint => exact (takes_checkpoint look version).map _ fun _ _ spelled => ⟨rfl, spelled⟩
  | header =>
      cases version with
      | v1 =>
          apply takes_header.mono
          rintro record output ⟨number, rfl, rfl⟩
          exact Spells.single rfl (by decide) rfl
      | v2 => exact absurd ⟨rfl, rfl⟩ written
  | memoryRecovery =>
      apply takes_uint64.map
      rintro timestamp output rfl
      exact Spells.single rfl (by decide) rfl
  | partitionDestroy =>
      apply takes_int32.bind
      intro group
      apply takes_int32.bind
      intro partition
      exact TakesAfter.pure (Spells.single rfl (by decide) rfl)
  | switchSegment => exact TakesAfter.pure (Spells.single rfl (by decide) rfl)
  | snapshot => exact (takes_snapshot version).map _ fun _ _ spelled => ⟨rfl, spelled⟩
  | exchange =>
      apply (takes_exchange version).map
      rintro exchange output rfl
      exact Spells.single rfl (by decide) rfl
  | rollback =>
      apply (takes_rollback version).map
      rintro rollback output rfl
      exact Spells.single rfl (by decide) rfl
  | metastore =>
      apply (takes_metastore version).map
      rintro entry output rfl
      exact Spells.single rfl (by decide) rfl
  | pageRepair =>
      apply (takes_pageRepair version).map
      rintro repair output rfl
      exact Spells.single rfl (by decide) rfl

end Codec

end Durability
