import Durability.Codec.Payload
import Durability.Proofs.Bytes.ReadBack
import Durability.Proofs.KeyMap

/-! Reading gives back what was written. Each layout is followed field by field, with the reader
beside the writer; a count is read back because the size, which is computed first, accepts only
counts that their fields can hold. What version 1 does not keep of a record is zero when it is
read back. -/

namespace Durability

/-- What a version keeps of a pointer: version 1 drops the length it points to. -/
def LogPointer.kept : Version → LogPointer → LogPointer
  | .v1, pointer => { pointer with length := 0 }
  | .v2, pointer => pointer

def Checkpoint.kept (version : Version) (checkpoint : Checkpoint) : Checkpoint :=
  { checkpoint with mark := checkpoint.mark.map (LogPointer.kept version) }

def DataBatch.kept : Version → DataBatch → DataBatch
  | .v1, batch => { batch with timestamp := 0 }
  | .v2, batch => batch

def Record.kept (version : Version) : Record → Record
  | .checkpoint marker => .checkpoint (marker.kept version)
  | .data batch => .data (batch.kept version)
  | record => record

theorem Record.kept_v2 (record : Record) : record.kept .v2 = record := by
  cases record with
  | checkpoint marker =>
      have same : marker.mark.map (LogPointer.kept .v2) = marker.mark := by
        cases marker.mark <;> rfl
      rw [kept, Checkpoint.kept, same]
  | _ => rfl

namespace Codec

open Output

/-! ### Counts that fit -/

theorem bind_eq_ok_iff {α β : Type} {first : Except Error α} {next : α → Except Error β}
    {result : β} :
    (first >>= next) = .ok result ↔ ∃ value, first = .ok value ∧ next value = .ok result := by
  cases first with
  | error cause =>
      constructor
      · intro failed
        cases failed
      · rintro ⟨value, failed, -⟩
        cases failed
  | ok value =>
      constructor
      · exact fun done => ⟨value, rfl, done⟩
      · rintro ⟨other, same, done⟩
        cases same
        exact done

theorem ok_of_mapM {α β : Type} {f : α → Except Error β} {items : List α} {results : List β}
    (done : items.mapM f = .ok results) : ∀ item ∈ items, ∃ result, f item = .ok result := by
  induction items generalizing results with
  | nil => exact fun _ member => absurd member List.not_mem_nil
  | cons item items ih =>
      rw [List.mapM_cons] at done
      obtain ⟨result, first, done⟩ := bind_eq_ok_iff.1 done
      obtain ⟨others, rest, -⟩ := bind_eq_ok_iff.1 done
      intro other member
      rcases List.mem_cons.1 member with rfl | member
      · exact ⟨result, first⟩
      · exact ih rest other member

theorem countFits_eq_ok_iff {width count : Nat} {cause : Excess} :
    countFits width count cause = .ok () ↔ count < BigEndian.capacity width := by
  unfold countFits
  split <;> simp_all

theorem counts_fit {α β : Type} {width size : Nat} {outer inner : Excess}
    {items : List (α × List β)} {bytes : α × List β → Nat} {whole : List Nat → Nat}
    (sized : (do
      countFits width items.length outer
      let sizes ← items.mapM fun item => do
        countFits width item.2.length inner
        pure (bytes item)
      pure (whole sizes) : Except Error Nat) = .ok size) :
    items.length < BigEndian.capacity width ∧
      ∀ item ∈ items, item.2.length < BigEndian.capacity width := by
  obtain ⟨⟨⟩, fits, sized⟩ := bind_eq_ok_iff.1 sized
  obtain ⟨sizes, each, -⟩ := bind_eq_ok_iff.1 sized
  refine ⟨countFits_eq_ok_iff.1 fits, ?_⟩
  intro item member
  obtain ⟨result, fits⟩ := ok_of_mapM each item member
  obtain ⟨⟨⟩, fits, -⟩ := bind_eq_ok_iff.1 fits
  exact countFits_eq_ok_iff.1 fits

theorem groups_fit {groups : List (Int32 × List PartitionState)} {size : Nat}
    (sized : groupsSize groups = .ok size) :
    groups.length < BigEndian.capacity 2 ∧
      ∀ group ∈ groups, group.2.length < BigEndian.capacity 2 :=
  counts_fit sized

theorem participants_fit {participants : List (UInt16 × List UInt16)} {size : Nat}
    (sized : participantsSize participants = .ok size) :
    participants.length < BigEndian.capacity 4 ∧
      ∀ participant ∈ participants, participant.2.length < BigEndian.capacity 4 :=
  counts_fit sized

theorem entries_fit {version : Version} {batch : DataBatch} {size : Nat}
    (sized : batchSize version batch = .ok size) :
    batch.entries.length < BigEndian.capacity 4 := by
  obtain ⟨⟨⟩, fits, -⟩ := bind_eq_ok_iff.1 sized
  exact countFits_eq_ok_iff.1 fits

/-! ### Checkpoints -/

theorem hasSize_partition (state : PartitionState) :
    (writePartition state).HasSize partitionSize :=
  (((hasSize_number 2 _).append (hasSize_number 8 _)).append (hasSize_number 8 _)).append
    (hasSize_uint8 _)

theorem readAs_partition (state : PartitionState) :
    (writePartition state).ReadAs readPartition state := by
  unfold writePartition
  simp only [append_assoc]
  exact (readAs_uint16 _).bind ((readAs_uint64 _).bind ((readAs_uint64 _).bind
    ((readAs_uint8 _).last rfl)))

theorem readAs_group (look : LookAhead) (group : Int32 × List PartitionState)
    (fits : group.2.length < BigEndian.capacity 2) :
    (writeGroup group).ReadAs (readGroup look) group := by
  unfold writeGroup
  simp only [append_assoc]
  have partitions := readAs_counted look partitionSize group.2
    (fun state _ => readAs_partition state)
    (fun state _ fine => Nat.le_of_eq (hasSize_partition state fine).symm)
  exact (readAs_int32 _).bind ((readAs_number fits).bind (partitions.last rfl))

theorem readAs_groups (look : LookAhead) (listed : List (Int32 × List PartitionState))
    (fits : listed.length < BigEndian.capacity 2)
    (each : ∀ group ∈ listed, group.2.length < BigEndian.capacity 2) :
    (writeGroups listed).ReadAs (readGroups look) (KeyMap.ofList listed) := by
  have items := readAs_times listed
    (fun group member => readAs_group look group (each group member))
  exact (readAs_number fits).bind (items.last rfl)

theorem readAs_pointer (version : Version) (pointer : LogPointer) :
    (uint64 pointer.segment ++ (uint32 pointer.offset ++
      match version with
      | .v1 => nil
      | .v2 => uint32 pointer.length)).ReadAs (do
        let segment ← Reader.uint64
        let offset ← Reader.uint32
        let length ← match version with
          | .v1 => pure 0
          | .v2 => Reader.uint32
        pure (some { segment, offset, length })) (some (pointer.kept version)) := by
  cases version with
  | v1 => exact (readAs_uint64 _).bind ((readAs_uint32 _).bind (readAs_nil _))
  | v2 => exact (readAs_uint64 _).bind ((readAs_uint32 _).bind ((readAs_uint32 _).last rfl))

theorem readAs_mark (version : Version) (mark : Option LogPointer) :
    (writeMark version mark).ReadAs (readMark version) (mark.map (LogPointer.kept version)) := by
  cases mark with
  | none => exact (readAs_flag false).last rfl
  | some pointer =>
      simp only [writeMark, append_assoc]
      exact (readAs_flag true).bind (readAs_pointer version pointer)

theorem readAs_checkpoint (look : LookAhead) (version : Version) (checkpoint : Checkpoint)
    {size : Nat} (sized : checkpointSize version checkpoint = .ok size) :
    (writeCheckpoint version checkpoint).ReadAs (readCheckpoint look version)
      (checkpoint.kept version) := by
  obtain ⟨groups, sized, -⟩ := bind_eq_ok_iff.1 sized
  obtain ⟨fits, each⟩ := groups_fit sized
  have block := readAs_groups look checkpoint.groups.entries fits each
  rw [KeyMap.ofList_entries] at block
  unfold writeCheckpoint
  simp only [append_assoc]
  exact (readAs_uint64 _).bind ((readAs_uint64 _).bind ((readAs_mark version _).bind
    (block.bind ((readAs_flag _).last rfl))))

/-! ### Data batches -/

theorem hasSize_cacheVersion (version : CacheVersion) :
    (writeCacheVersion version).HasSize cacheVersionSize :=
  ((hasSize_number 4 _).append (hasSize_number 4 _)).append (hasSize_number 8 _)

theorem readAs_cacheVersion (version : CacheVersion) :
    (writeCacheVersion version).ReadAs readCacheVersion version := by
  unfold writeCacheVersion
  simp only [append_assoc]
  exact (readAs_uint32 _).bind ((readAs_uint32 _).bind ((readAs_uint64 _).last rfl))

theorem hasSize_entry (entry : DataEntry) : (writeEntry entry).HasSize (entrySize entry) := by
  have size := ((((((((hasSize_number 4 entry.cache.toUInt32.toNat).append
    (hasSize_lengthPrefixed (some entry.key))).append
    (hasSize_lengthPrefixed entry.value)).append (hasSize_uint8 entry.operation.id)).append
    (hasSize_cacheVersion entry.nearVersion)).append
    (hasSize_cacheVersion entry.writeVersion)).append
    (hasSize_number 4 entry.partition.toUInt32.toNat)).append
    (hasSize_number 8 entry.partitionCounter.toNat)).append
    (hasSize_number 8 entry.expireTime.toNat)
  intro fine
  have length := size fine
  simp only [lengthPrefixedSize, Option.map_some, Option.getD_some] at length
  rw [entrySize, entryFixedSize]
  exact length.trans (by omega)

theorem readAs_entry (entry : DataEntry) : (writeEntry entry).ReadAs readEntry entry := by
  unfold writeEntry
  simp only [append_assoc]
  refine (readAs_int32 _).bind ((readAs_lengthPrefixed (some entry.key)).bind ?_)
  change ReadAs _ (Reader.lengthPrefixed >>= _) _
  refine (readAs_lengthPrefixed entry.value).bind ((readAs_uint8 _).bind ?_)
  rw [CacheOperation.ofId?_id]
  exact (readAs_cacheVersion _).bind ((readAs_cacheVersion _).bind ((readAs_int32 _).bind
    ((readAs_uint64 _).bind ((readAs_uint64 _).last rfl))))

theorem readAs_batch (look : LookAhead) (version : Version) (batch : DataBatch) {size : Nat}
    (sized : batchSize version batch = .ok size) :
    (writeBatch version batch).ReadAs (readBatch look version) (batch.kept version) := by
  have fits := entries_fit sized
  have entries := readAs_counted look entryFixedSize batch.entries
    (fun entry _ => readAs_entry entry) (fun entry _ fine => by
      rw [hasSize_entry entry fine, entrySize]
      omega)
  unfold writeBatch
  simp only [append_assoc]
  cases version with
  | v1 => exact (readAs_number fits).bind ((readAs_nil 0).bind (entries.last rfl))
  | v2 => exact (readAs_number fits).bind ((readAs_uint64 _).bind (entries.last rfl))

/-! ### Transactions -/

theorem readAs_participant (look : LookAhead) (participant : UInt16 × List UInt16)
    (fits : participant.2.length < BigEndian.capacity 4) :
    (writeParticipant participant).ReadAs (readParticipant look) participant := by
  unfold writeParticipant
  simp only [append_assoc]
  have backups := readAs_counted look 2 participant.2 (fun backup _ => readAs_uint16 backup)
    (fun backup _ fine => Nat.le_of_eq (hasSize_number 2 backup.toNat fine).symm)
  exact (readAs_uint16 _).bind ((readAs_number fits).bind (backups.last rfl))

theorem hasSize_participant (participant : UInt16 × List UInt16) :
    (writeParticipant participant).HasSize (participantFixedSize + 2 * participant.2.length) :=
  ((hasSize_number 2 _).append (hasSize_number 4 _)).append
    (hasSize_concat participant.2 fun backup _ => hasSize_number 2 backup.toNat)

theorem readAs_participants (look : LookAhead) (listed : List (UInt16 × List UInt16))
    (fits : listed.length < BigEndian.capacity 4)
    (each : ∀ participant ∈ listed, participant.2.length < BigEndian.capacity 4) :
    (writeParticipants listed).ReadAs (readParticipants look) (KeyMap.ofList listed) := by
  have items := readAs_counted look participantFixedSize listed
    (fun participant member => readAs_participant look participant (each participant member))
    (fun participant _ fine => by
      rw [hasSize_participant participant fine]
      omega)
  exact (readAs_number fits).bind (items.last rfl)

theorem readAs_transaction (look : LookAhead) (transaction : Transaction) {size : Nat}
    (sized : transactionSize transaction = .ok size) :
    (writeTransaction transaction).ReadAs (readTransaction look) transaction := by
  obtain ⟨participants, sized, -⟩ := bind_eq_ok_iff.1 sized
  obtain ⟨fits, each⟩ := participants_fit sized
  have block := readAs_participants look transaction.participants.entries fits each
  rw [KeyMap.ofList_entries] at block
  unfold writeTransaction
  simp only [append_assoc]
  refine (readAs_uint8 _).bind ?_
  rw [TransactionState.ofId?_id]
  exact (readAs_cacheVersion _).bind ((readAs_cacheVersion _).bind
    (block.bind ((readAs_uint64 _).last rfl)))

/-! ### Payloads -/

theorem readAs_header (number : UInt32) :
    (layout .v1 (.header number)).ReadAs readHeader (.header number) := by
  have fits : headerMagic < BigEndian.capacity 8 := by decide
  refine (readAs_number fits).bind ?_
  rw [if_pos rfl]
  exact (readAs_uint32 number).map Record.header

theorem readAs_metastore (entry : MetastoreEntry) :
    (layout .v2 (.metastore entry)).ReadAs readMetastore entry := by
  -- The bytes of a text are valid, so that the check of the key finds the text itself.
  have text : String.fromUTF8? entry.key.toByteArray.data.toList.toByteArray =
      some entry.key := by
    have bytes : entry.key.toByteArray.data.toList.toByteArray = entry.key.toByteArray := by
      apply ByteArray.ext
      rw [List.data_toByteArray, Array.toArray_toList]
    rw [bytes, String.fromUTF8?, dif_pos entry.key.isValidUTF8]
    rfl
  rw [layout, lengthPrefixedText_eq]
  refine (readAs_lengthPrefixed _).bind ?_
  change ReadAs _ (Reader.require .metastoreKeyText (String.fromUTF8?
    entry.key.toByteArray.data.toList.toByteArray) >>= _) _
  rw [text]
  exact (readAs_lengthPrefixed entry.value).last rfl

theorem readAs_layout (look : LookAhead) (version : Version) (record : Record) {size : Nat}
    (sized : payloadSize version record = .ok size) :
    (layout version record).ReadAs (readPayload look version record.kind)
      (record.kept version) := by
  cases record with
  | transaction transaction => exact (readAs_transaction look transaction sized).map _
  | data batch => exact (readAs_batch look version batch sized).map _
  | checkpoint checkpoint => exact (readAs_checkpoint look version checkpoint sized).map _
  | header number =>
      cases version with
      | v1 => exact readAs_header number
      | v2 =>
          intro fine
          cases fine
  | memoryRecovery timestamp => exact (readAs_uint64 timestamp).map _
  | partitionDestroy group partition =>
      exact (readAs_int32 group).bind ((readAs_int32 partition).last rfl)
  | switchSegment => exact readAs_nil _
  | snapshot snapshot =>
      have reads : (layout version (.snapshot snapshot)).ReadAs readSnapshot snapshot := by
        refine (readAs_uint64 snapshot.id).bind ((readAs_uint8 _).last ?_)
        cases snapshot with
        | mk id full => cases full <;> rfl
      exact reads.map _
  | exchange exchange =>
      simp only [layout, append_assoc]
      refine ReadAs.map ((readAs_int32 _).bind ?_) Record.exchange
      rw [ExchangeKind.ofOrdinal?_ordinal]
      exact (readAs_uint16 _).bind ((readAs_uint64 _).last rfl)
  | rollback rollback =>
      simp only [layout, append_assoc]
      refine ReadAs.map ?_ Record.rollback
      exact (readAs_int32 _).bind ((readAs_int32 _).bind ((readAs_uint64 _).bind
        ((readAs_uint64 _).last rfl)))
  | metastore entry => exact (readAs_metastore entry).map _
  | pageRepair repair =>
      refine ReadAs.map ?_ Record.pageRepair
      exact (readAs_int32 repair.group).bind ((readAs_uint64 repair.page).last rfl)

theorem encode_eq_ok_iff {version : Version} {record : Record} {payload : Bytes} :
    encode version record = .ok payload ↔ version.provides record.kind = true ∧
      (∃ size, payloadSize version record = .ok size) ∧
      (layout version record).failure = none ∧ (layout version record).bytes = payload := by
  unfold encode write size
  by_cases provided : version.provides record.kind = true
  · rw [if_pos provided]
    cases sized : payloadSize version record with
    | error cause => simp [toExcept_eq_ok_iff, fail]
    | ok size => simp [toExcept_eq_ok_iff, provided]
  · rw [if_neg provided]
    simp [toExcept_eq_ok_iff, fail, provided]

theorem reads_encode (look : LookAhead) {version : Version} {record : Record} {payload : Bytes}
    (encoded : encode version record = .ok payload) :
    (readWith look version record.kind).Reads payload (record.kept version) := by
  obtain ⟨provided, ⟨size, sized⟩, fine, rfl⟩ := encode_eq_ok_iff.1 encoded
  rw [readWith, if_pos provided]
  exact readAs_layout look version record sized fine

/-- A record that can be encoded is read back from its payload, in front of any bytes and without
touching them, as what the version keeps of it: all of it in version 2, and in version 1 all but
the length of a checkpoint mark and the time of a data batch. The payload alone decodes to it. -/
theorem read_encode (version : Version) (record : Record) (payload : Bytes)
    (encoded : encode version record = .ok payload) :
    (∀ rest, (read version record.kind).run (payload ++ rest) =
      (.ok (record.kept version), rest)) ∧
      decode version record.kind payload = .ok (record.kept version) ∧
      record.kept .v2 = record := by
  have reads := reads_encode .checked encoded
  refine ⟨reads, ?_, record.kept_v2⟩
  have whole := reads []
  rw [List.append_nil] at whole
  rw [decode, Reader.runAll, read, whole]

def markedCheckpoint : Record :=
  let state : PartitionState := { partition := 9, size := 300, updateCounter := 0, state := 1 }
  .checkpoint {
    id := { high := 0xffffffffffffffff, low := 1 }
    mark := some { segment := 7, offset := 0x1000, length := 40 }
    groups := KeyMap.ofList [(5, []), (-2, [state])]
    isEnd := true }

theorem read_encode_markedCheckpoint :
    let payload : Bytes := [255, 255, 255, 255, 255, 255, 255, 255, 0, 0, 0, 0, 0, 0, 0, 1,
      1, 0, 0, 0, 0, 0, 0, 0, 7, 0, 0, 16, 0,
      0, 2, 255, 255, 255, 254, 0, 1, 0, 9, 0, 0, 0, 0, 0, 0, 1, 44, 0, 0, 0, 0, 0, 0, 0, 0, 1,
      0, 0, 0, 5, 0, 0, 1]
    encode .v1 markedCheckpoint = .ok payload ∧
      (∀ rest, (read .v1 markedCheckpoint.kind).run (payload ++ rest) =
        (.ok (markedCheckpoint.kept .v1), rest)) ∧
      decode .v1 markedCheckpoint.kind payload = .ok (markedCheckpoint.kept .v1) ∧
      markedCheckpoint.kept .v2 = markedCheckpoint := by
  intro payload
  have encoded : encode .v1 markedCheckpoint = .ok payload :=
    (toExcept_eq_ok_iff _ payload).2 (by decide +kernel)
  exact ⟨encoded, read_encode .v1 markedCheckpoint payload encoded⟩

end Codec

end Durability
