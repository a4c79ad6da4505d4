import Durability.Codec.Frame
import Durability.Proofs.Codec.RoundTrip

/-! The size of a record is the number of bytes of its payload. The size is computed from counts
and lengths alone, before anything is written; the layouts are followed here field by field with
the number of bytes that each field takes, and the two agree for every record that can be written.
So room that was set aside by the size is filled to its end, and nothing behind it is touched. -/

namespace Durability

namespace Output

theorem hasSize_nil : nil.HasSize 0 := fun _ => rfl

theorem hasSize_concat_map {α : Type} {write : α → Output} {bytes : α → Nat} (items : List α)
    (each : ∀ item ∈ items, (write item).HasSize (bytes item)) :
    (concat (items.map write)).HasSize ((items.map bytes).foldr (· + ·) 0) := by
  induction items with
  | nil => exact hasSize_nil
  | cons item items ih =>
      rw [List.map_cons, concat_cons, List.map_cons, List.foldr_cons]
      exact (each item List.mem_cons_self).append
        (ih fun other member => each other (List.mem_cons_of_mem item member))

theorem HasSize.congr {output : Output} {size other : Nat} (has : output.HasSize size)
    (same : size = other) : output.HasSize other := same ▸ has

end Output

namespace Codec

open Output

/-! ### Sizes of counted blocks -/

theorem map_of_mapM {α β : Type} {f : α → Except Error β} {g : α → β} {items : List α}
    {results : List β} (gives : ∀ item result, f item = .ok result → result = g item)
    (done : items.mapM f = .ok results) : results = items.map g := by
  induction items generalizing results with
  | nil =>
      cases done
      rfl
  | cons item items ih =>
      rw [List.mapM_cons] at done
      obtain ⟨result, first, done⟩ := bind_eq_ok_iff.1 done
      obtain ⟨others, rest, done⟩ := bind_eq_ok_iff.1 done
      cases done
      rw [List.map_cons, gives item result first, ih rest]

theorem counts_size {α β : Type} {width size : Nat} {outer inner : Excess}
    {items : List (α × List β)} {bytes : α × List β → Nat} {whole : List Nat → Nat}
    (sized : (do
      countFits width items.length outer
      let sizes ← items.mapM fun item => do
        countFits width item.2.length inner
        pure (bytes item)
      pure (whole sizes) : Except Error Nat) = .ok size) :
    size = whole (items.map bytes) := by
  obtain ⟨⟨⟩, -, sized⟩ := bind_eq_ok_iff.1 sized
  obtain ⟨sizes, each, sized⟩ := bind_eq_ok_iff.1 sized
  have items_eq : sizes = items.map bytes := by
    refine map_of_mapM ?_ each
    intro item result given
    obtain ⟨⟨⟩, -, given⟩ := bind_eq_ok_iff.1 given
    cases given
    rfl
  cases sized
  rw [items_eq]

/-! ### Checkpoints -/

theorem hasSize_group (group : Int32 × List PartitionState) :
    (writeGroup group).HasSize (4 + 2 + partitionSize * group.2.length) :=
  ((hasSize_number 4 group.1.toUInt32.toNat).append (hasSize_number 2 group.2.length)).append
    (hasSize_concat group.2 fun state _ => hasSize_partition state)

theorem hasSize_groups {groups : List (Int32 × List PartitionState)} {size : Nat}
    (sized : groupsSize groups = .ok size) : (writeGroups groups).HasSize size := by
  have total := counts_size sized
  rw [total]
  exact (hasSize_number 2 groups.length).append
    (hasSize_concat_map groups fun group _ => hasSize_group group)

theorem hasSize_mark (version : Version) (mark : Option LogPointer) :
    (writeMark version mark).HasSize (1 + if mark.isSome then version.markSize else 0) := by
  cases mark with
  | none => exact hasSize_uint8 0
  | some pointer =>
      have fixed := ((hasSize_uint8 1).append (hasSize_number 8 pointer.segment.toNat)).append
        (hasSize_number 4 pointer.offset.toNat)
      cases version with
      | v1 => exact fixed.append hasSize_nil
      | v2 => exact fixed.append (hasSize_number 4 pointer.length.toNat)

theorem hasSize_checkpoint {version : Version} {checkpoint : Checkpoint} {size : Nat}
    (sized : checkpointSize version checkpoint = .ok size) :
    (writeCheckpoint version checkpoint).HasSize size := by
  obtain ⟨groups, blockSized, done⟩ := bind_eq_ok_iff.1 sized
  cases done
  have written := ((((hasSize_number 8 checkpoint.id.high.toNat).append
    (hasSize_number 8 checkpoint.id.low.toNat)).append
    (hasSize_mark version checkpoint.mark)).append
    (hasSize_groups blockSized)).append (hasSize_uint8 (if checkpoint.isEnd then 1 else 0))
  refine written.congr ?_
  omega

/-! ### Data batches -/

theorem hasSize_batch {version : Version} {batch : DataBatch} {size : Nat}
    (sized : batchSize version batch = .ok size) : (writeBatch version batch).HasSize size := by
  obtain ⟨⟨⟩, -, done⟩ := bind_eq_ok_iff.1 sized
  cases done
  have entries := hasSize_concat_map batch.entries fun entry _ => hasSize_entry entry
  rw [List.foldr_map] at entries
  have count := hasSize_number 4 batch.entries.length
  cases version with
  | v1 =>
      have unstamped := count.append hasSize_nil
      refine (unstamped.append entries).congr ?_
      simp only [Version.timestampSize]
      omega
  | v2 =>
      have stamped := count.append (hasSize_number 8 batch.timestamp.toNat)
      refine (stamped.append entries).congr ?_
      simp only [Version.timestampSize]
      omega

/-! ### Transactions -/

theorem hasSize_participants {participants : List (UInt16 × List UInt16)} {size : Nat}
    (sized : participantsSize participants = .ok size) :
    (writeParticipants participants).HasSize (4 + size) := by
  have total := counts_size sized
  rw [total]
  exact (hasSize_number 4 participants.length).append
    (hasSize_concat_map participants fun participant _ => hasSize_participant participant)

theorem hasSize_transaction {transaction : Transaction} {size : Nat}
    (sized : transactionSize transaction = .ok size) :
    (writeTransaction transaction).HasSize size := by
  obtain ⟨participants, blockSized, done⟩ := bind_eq_ok_iff.1 sized
  cases done
  have written := ((((hasSize_uint8 transaction.state.id).append
    (hasSize_cacheVersion transaction.nearVersion)).append
    (hasSize_cacheVersion transaction.writeVersion)).append
    (hasSize_participants blockSized)).append (hasSize_number 8 transaction.timestamp.toNat)
  refine written.congr ?_
  omega

/-! ### Payloads -/

theorem hasSize_layout {version : Version} {record : Record} {size : Nat}
    (sized : payloadSize version record = .ok size) : (layout version record).HasSize size := by
  cases record with
  | transaction transaction => exact hasSize_transaction sized
  | data batch => exact hasSize_batch sized
  | checkpoint checkpoint => exact hasSize_checkpoint sized
  | header number =>
      cases sized
      cases version with
      | v1 => exact (hasSize_number 8 headerMagic).append (hasSize_number 4 number.toNat)
      | v2 =>
          -- There is a size, but nothing of that size is ever written.
          intro fine
          cases fine
  | memoryRecovery timestamp =>
      cases sized
      exact hasSize_number 8 timestamp.toNat
  | partitionDestroy group partition =>
      cases sized
      exact (hasSize_number 4 group.toUInt32.toNat).append
        (hasSize_number 4 partition.toUInt32.toNat)
  | switchSegment =>
      cases sized
      exact hasSize_nil
  | snapshot snapshot =>
      cases sized
      exact (hasSize_number 8 snapshot.id.toNat).append
        (hasSize_uint8 (if snapshot.full then 1 else 0))
  | exchange exchange =>
      cases sized
      exact ((hasSize_number 4 exchange.kind.ordinal.toUInt32.toNat).append
        (hasSize_number 2 exchange.node.toNat)).append (hasSize_number 8 exchange.timestamp.toNat)
  | rollback rollback =>
      cases sized
      exact (((hasSize_number 4 rollback.group.toUInt32.toNat).append
        (hasSize_number 4 rollback.partition.toUInt32.toNat)).append
        (hasSize_number 8 rollback.start.toNat)).append (hasSize_number 8 rollback.range.toNat)
  | metastore entry =>
      cases sized
      rw [layout, lengthPrefixedText_eq, lengthPrefixedTextSize_eq]
      exact (hasSize_lengthPrefixed _).append (hasSize_lengthPrefixed entry.value)
  | pageRepair repair =>
      cases sized
      exact (hasSize_number 4 repair.group.toUInt32.toNat).append
        (hasSize_number 8 repair.page.toNat)

/-! ### Writing into a destination -/

theorem size_eq_ok_iff {version : Version} {record : Record} {size : Nat} :
    Codec.size version record = .ok size ↔
      version.provides record.kind = true ∧ payloadSize version record = .ok size := by
  unfold Codec.size
  by_cases provided : version.provides record.kind = true <;> simp [provided]

theorem writeInto_of_error {version : Version} {record : Record} {cause : Error}
    (refused : Codec.size version record = .error cause) (destination : Bytes) :
    writeInto version record destination =
      { buffer := destination, room := destination.length, failure := some cause } := by
  have output : writeWithin destination.length version record = .fail cause := by
    simp only [writeWithin, refused]
  simp only [writeInto, output]
  rfl

theorem writeInto_of_lt {version : Version} {record : Record} {size : Nat}
    (sized : Codec.size version record = .ok size) {destination : Bytes}
    (short : destination.length < size) :
    writeInto version record destination =
      { buffer := destination, room := destination.length
        failure := some (.excess .roomTooSmall) } := by
  have output : writeWithin destination.length version record =
      .fail (.excess .roomTooSmall) := by
    simp only [writeWithin, sized, if_pos short]
  simp only [writeInto, output]
  rfl

theorem writeInto_of_le {version : Version} {record : Record} {size : Nat}
    (sized : Codec.size version record = .ok size) {destination : Bytes}
    (enough : size ≤ destination.length) :
    writeInto version record destination =
      { buffer := (layout version record).bytes ++
          destination.drop (layout version record).bytes.length
        room := destination.length - (layout version record).bytes.length
        failure := (layout version record).failure } := by
  have output : writeWithin destination.length version record = layout version record := by
    simp only [writeWithin, sized, if_neg (Nat.not_lt.2 enough)]
  simp only [writeInto, output]

theorem encode_of_error {version : Version} {record : Record} {cause : Error}
    (refused : Codec.size version record = .error cause) :
    encode version record = .error cause := by
  simp only [encode, write, refused]
  rfl

theorem encode_of_size {version : Version} {record : Record} {size : Nat}
    (sized : Codec.size version record = .ok size) :
    encode version record = (layout version record).toExcept := by
  simp only [encode, write, sized]

/-- A record of known size is not written at all into less room than that. Otherwise it is either
refused for the same cause wherever it is written, or it fills exactly its size at the front of any
destination with the same bytes, leaves all that is behind them, and these bytes are what encoding
gives, with the byte of the kind in front if it is framed. -/
theorem write_exactly (version : Version) (record : Record) (size : Nat)
    (sized : Codec.size version record = .ok size) :
    (∀ destination : Bytes, destination.length < size →
      writeInto version record destination =
        { buffer := destination, room := destination.length
          failure := some (.excess .roomTooSmall) }) ∧
    ((∃ payload : Bytes, payload.length = size ∧
      (∀ destination : Bytes, size ≤ destination.length →
        writeInto version record destination =
          { buffer := payload ++ destination.drop size, room := destination.length - size
            failure := none }) ∧
      encode version record = .ok payload ∧
      encodeFramed version record = .ok (record.kind.id :: payload)) ∨
    ∃ cause,
      (∀ destination : Bytes, size ≤ destination.length →
        (writeInto version record destination).failure = some cause) ∧
      encode version record = .error cause ∧ encodeFramed version record = .error cause) := by
  refine ⟨fun destination short => writeInto_of_lt sized short, ?_⟩
  have written := hasSize_layout (size_eq_ok_iff.1 sized).2
  have encoded := encode_of_size sized
  cases outcome : (layout version record).failure with
  | none =>
      have length := written outcome
      have payload : encode version record = .ok (layout version record).bytes := by
        rw [encoded, Output.toExcept, outcome]
      refine Or.inl ⟨(layout version record).bytes, length, ?_, payload, ?_⟩
      · intro destination enough
        rw [writeInto_of_le sized enough, length, outcome]
      · rw [encodeFramed, payload]
        rfl
  | some cause =>
      have refused : encode version record = .error cause := by
        rw [encoded, Output.toExcept, outcome]
      refine Or.inr ⟨cause, ?_, refused, ?_⟩
      · intro destination enough
        rw [writeInto_of_le sized enough, outcome]
      · rw [encodeFramed, refused]
        rfl

def committed : Record :=
  let version : CacheVersion := { topology := 3, nodeOrder := 1, order := 0xffffffffffffffff }
  .transaction {
    state := .committed
    nearVersion := version
    writeVersion := version
    participants := KeyMap.ofList [(9, [2, 65535]), (4, [])]
    timestamp := 1 }

theorem write_exactly_committed :
    Codec.size .v2 committed = .ok 61 ∧
      writeInto .v2 committed (List.replicate 60 170) =
        { buffer := List.replicate 60 170, room := 60
          failure := some (.excess .roomTooSmall) } ∧
      ∃ payload : Bytes, payload.length = 61 ∧
        ∀ destination : Bytes, 61 ≤ destination.length →
          writeInto .v2 committed destination =
            { buffer := payload ++ destination.drop 61, room := destination.length - 61
              failure := none } := by
  have sized : Codec.size .v2 committed = .ok 61 := rfl
  obtain ⟨short, ⟨payload, length, fills, -, -⟩ | ⟨cause, -, refused, -⟩⟩ :=
    write_exactly .v2 committed 61 sized
  · have tight := short (List.replicate 60 170) (by rw [List.length_replicate]; decide)
    rw [List.length_replicate] at tight
    exact ⟨sized, tight, payload, length, fills⟩
  · have written : (layout .v2 committed).failure = none := by decide +kernel
    rw [encode_of_size sized, Output.toExcept, written] at refused
    cases refused

end Codec

end Durability
