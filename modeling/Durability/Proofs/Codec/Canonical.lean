import Durability.Proofs.Codec.Spelling

/-! Canonical payloads, told from their bytes alone. The bytes that are read as truth values stand
at fixed places, and the keys that a payload lists are found by stepping over the items with their
counts. No reader is used for this, so that what the readers forget can be compared with it; here
both are worked out for the spellings of checkpoints and transactions. -/

namespace Durability

namespace Output

def written {α : Type} (write : α → Output) (items : List α) : Bytes :=
  items.flatMap fun item => (write item).bytes

theorem concat_of_fine {α : Type} (write : α → Output) (items : List α)
    (fine : ∀ item ∈ items, (write item).failure = none) :
    concat (items.map write) = ofBytes (written write items) := by
  induction items with
  | nil => rfl
  | cons item items ih =>
      have first := fine item List.mem_cons_self
      have others := ih fun other member => fine other (List.mem_cons_of_mem item member)
      rw [List.map_cons, concat_cons, others, append_of_ok first]
      rfl

end Output

namespace Codec

open Output

/-! ### Canonical payloads -/

/-- The bytes of a keyed item: those of its key, of the count of its parts and of each part. -/
structure ItemWidths where
  key : Nat
  count : Nat
  part : Nat

def itemKeys (widths : ItemWidths) : (items : Nat) → (bytes : Bytes) → List Nat
  | 0, _ => []
  | items + 1, bytes =>
    let parts := BigEndian.read ((bytes.drop widths.key).take widths.count)
    BigEndian.read (bytes.take widths.key) ::
      itemKeys widths items (bytes.drop (widths.key + widths.count + parts * widths.part))

def blockKeys (widths : ItemWidths) (block : Bytes) : List Nat :=
  itemKeys widths (BigEndian.read (block.take widths.count)) (block.drop widths.count)

def groupWidths : ItemWidths := { key := 4, count := 2, part := partitionSize }

def participantWidths : ItemWidths := { key := 2, count := 4, part := 2 }

def groupsStart (version : Version) (payload : Bytes) : Nat :=
  17 + if payload[16]? = some 0 then 0 else version.markSize

/-- The keys that a payload lists, in its order: the cache groups of a checkpoint, which may be
negative, and the primary nodes of a transaction. -/
def listedKeys (version : Version) : RecordKind → Bytes → List Int
  | .checkpoint, payload =>
    (blockKeys groupWidths (payload.drop (groupsStart version payload))).map fun key =>
      (UInt32.ofNat key).toInt32.toInt
  | .transaction, payload => (blockKeys participantWidths (payload.drop 33)).map Int.ofNat
  | _, _ => []

def flagBytes : RecordKind → Bytes → List UInt8
  | .checkpoint, payload => payload[16]?.toList ++ payload.getLast?.toList
  | .snapshot, payload => payload.getLast?.toList
  | _, _ => []

structure Canonical (version : Version) (kind : RecordKind) (payload : Bytes) : Prop where
  flags : ∀ byte ∈ flagBytes kind payload, byte = 0 ∨ byte = 1
  ascending : (listedKeys version kind payload).Pairwise (· < ·)

/-! ### The keys of a written block -/

def ItemWidths.LaysOut (widths : ItemWidths) (key : Nat) (output : Output) : Prop :=
  key < BigEndian.capacity widths.key ∧ ∃ count < BigEndian.capacity widths.count,
    ∃ parts : Bytes, parts.length = count * widths.part ∧
      output = ofBytes (BigEndian.write widths.key key ++ BigEndian.write widths.count count ++
        parts)

variable {α : Type} {widths : ItemWidths} {key : α → Nat} {write : α → Output}

theorem ItemWidths.LaysOut.fine {key : Nat} {output : Output} (laid : widths.LaysOut key output) :
    output.failure = none := by
  obtain ⟨-, count, -, parts, -, rfl⟩ := laid
  rfl

theorem itemKeys_flatMap (items : List α) (rest : Bytes)
    (laid : ∀ item ∈ items, widths.LaysOut (key item) (write item)) :
    itemKeys widths items.length (written write items ++ rest) =
      items.map key := by
  induction items with
  | nil => rfl
  | cons item items ih =>
      obtain ⟨keyFits, count, countFits, parts, whole, same⟩ := laid item List.mem_cons_self
      have others := ih fun other member => laid other (List.mem_cons_of_mem item member)
      -- The item as its three fields in front of all that follows.
      have bytes : written write (item :: items) ++ rest =
          BigEndian.write widths.key (key item) ++ (BigEndian.write widths.count count ++ (parts ++
            (written write items ++ rest))) := by
        simp only [written, List.flatMap_cons, same, ofBytes, List.append_assoc]
      have beyond : widths.key + widths.count + count * widths.part =
          widths.key + (widths.count + parts.length) := by omega
      rw [bytes, List.length_cons, itemKeys, List.map_cons, ← others]
      simp only [List.take_left', List.drop_left', BigEndian.write_length, BigEndian.read_write,
        Nat.mod_eq_of_lt keyFits, Nat.mod_eq_of_lt countFits, beyond, ← List.drop_drop]

theorem blockKeys_written (items : List α) (rest : Bytes)
    (fits : items.length < BigEndian.capacity widths.count)
    (laid : ∀ item ∈ items, widths.LaysOut (key item) (write item)) :
    blockKeys widths (BigEndian.write widths.count items.length ++
      (written write items ++ rest)) = items.map key := by
  rw [blockKeys, List.take_left' (BigEndian.write_length _ _),
    List.drop_left' (BigEndian.write_length _ _), BigEndian.read_write, Nat.mod_eq_of_lt fits,
    itemKeys_flatMap items rest laid]

/-! ### The flags and keys of a spelling -/

theorem laysOut_group (group : Int32 × List PartitionState)
    (fits : group.2.length < BigEndian.capacity 2) :
    groupWidths.LaysOut group.1.toUInt32.toNat (writeGroup group) := by
  have partitions := concat_of_fine writePartition group.2 fun _ _ => rfl
  refine ⟨group.1.toUInt32.toNat_lt, group.2.length, fits,
    written writePartition group.2, ?_, ?_⟩
  · have size := hasSize_concat group.2 fun state _ => hasSize_partition state
    rw [partitions] at size
    rw [Nat.mul_comm]
    exact size rfl
  · rw [writeGroup, partitions]
    rfl

theorem laysOut_participant (participant : UInt16 × List UInt16)
    (fits : participant.2.length < BigEndian.capacity 4) :
    participantWidths.LaysOut participant.1.toNat (writeParticipant participant) := by
  have backups := concat_of_fine Output.uint16 participant.2 fun _ _ => rfl
  refine ⟨participant.1.toNat_lt, participant.2.length, fits,
    written Output.uint16 participant.2, ?_, ?_⟩
  · have size : (concat (participant.2.map Output.uint16)).HasSize (2 * participant.2.length) :=
      hasSize_concat participant.2 fun backup _ => hasSize_number 2 backup.toNat
    rw [backups] at size
    rw [Nat.mul_comm]
    exact size rfl
  · rw [writeParticipant, backups]
    rfl

theorem spellMark_eq (version : Version) (announced : UInt8) (mark : Option LogPointer) :
    ∃ middle : Bytes, middle.length = (if mark.isSome then version.markSize else 0) ∧
      spellMark version announced mark = ofBytes (announced :: middle) := by
  cases mark with
  | none => exact ⟨[], rfl, rfl⟩
  | some pointer =>
      cases version with
      | v1 => exact ⟨(uint64 pointer.segment ++ uint32 pointer.offset).bytes, rfl, rfl⟩
      | v2 =>
          exact ⟨(uint64 pointer.segment ++ uint32 pointer.offset ++ uint32 pointer.length).bytes,
            rfl, rfl⟩

structure CheckpointBytes where
  front : Bytes
  announced : UInt8
  mark : Bytes
  block : Bytes
  ended : UInt8

namespace CheckpointBytes

variable (parts : CheckpointBytes)

def payload : Bytes :=
  parts.front ++ parts.announced :: (parts.mark ++ (parts.block ++ [parts.ended]))

theorem getElem?_payload (front : parts.front.length = 16) :
    parts.payload[16]? = some parts.announced := by
  rw [payload, List.getElem?_append_right (Nat.le_of_eq front), front]
  rfl

theorem flagBytes_payload (front : parts.front.length = 16) :
    flagBytes .checkpoint parts.payload = [parts.announced, parts.ended] := by
  have last : parts.payload.getLast? = some parts.ended := by
    have regrouped : parts.payload =
        (parts.front ++ parts.announced :: (parts.mark ++ parts.block)) ++ [parts.ended] := by
      simp [payload]
    rw [regrouped, List.getLast?_concat]
  rw [flagBytes, getElem?_payload parts front, last]
  rfl

theorem drop_groupsStart (version : Version) (front : parts.front.length = 16)
    (mark : parts.mark.length = if parts.announced = 0 then 0 else version.markSize) :
    parts.payload.drop (groupsStart version parts.payload) = parts.block ++ [parts.ended] := by
  have start : groupsStart version parts.payload =
      parts.front.length + (1 + parts.mark.length) := by
    rw [groupsStart, getElem?_payload parts front, mark, front]
    simp only [Option.some.injEq]
    omega
  rw [start, ← List.drop_drop, payload, List.drop_left, ← List.drop_drop, List.drop_succ_cons,
    List.drop_zero, List.drop_left]

end CheckpointBytes

theorem toInt_of_group (group : Int32) :
    (UInt32.ofNat group.toUInt32.toNat).toInt32.toInt = group.toInt := by
  rw [UInt32.ofNat_toNat]
  rfl

theorem spelled_checkpoint (version : Version) (id : CheckpointId) (announced : UInt8)
    (mark : Option LogPointer) (listed : List (Int32 × List PartitionState)) (ended : UInt8)
    (announces : mark.isSome = (announced != 0))
    (count : listed.length < BigEndian.capacity 2)
    (counts : ∀ group ∈ listed, group.2.length < BigEndian.capacity 2) :
    ∃ payload : Bytes, spellCheckpoint version id announced mark listed ended = ofBytes payload ∧
      payload.length = 20 + (if mark.isSome then version.markSize else 0) +
        (written writeGroup listed).length ∧
      flagBytes .checkpoint payload = [announced, ended] ∧
      listedKeys version .checkpoint payload = listed.map fun group => group.1.toInt := by
  obtain ⟨middle, length, marked⟩ := spellMark_eq version announced mark
  have laid := fun group member => laysOut_group group (counts group member)
  have groups := concat_of_fine writeGroup listed fun group member => (laid group member).fine
  let parts : CheckpointBytes :=
    { front := (uint64 id.high ++ uint64 id.low).bytes
      announced
      mark := middle
      block := BigEndian.write 2 listed.length ++
        written writeGroup listed
      ended }
  refine ⟨parts.payload, ?_, ?_, parts.flagBytes_payload rfl, ?_⟩
  · rw [spellCheckpoint, writeGroups, groups, marked]
    simp only [append_assoc]
    rfl
  · have front : parts.front.length = 16 := rfl
    simp only [CheckpointBytes.payload, List.length_append, List.length_cons,
      BigEndian.write_length, front, List.length_nil, parts]
    omega
  · have markBytes : parts.mark.length = if parts.announced = 0 then 0 else version.markSize := by
      rw [announces] at length
      change middle.length = if announced = 0 then 0 else version.markSize
      rw [length]
      by_cases zero : announced = 0 <;> simp [zero]
    have keys : blockKeys groupWidths (BigEndian.write 2 listed.length ++
        (written writeGroup listed ++ [ended])) = listed.map fun group => group.1.toUInt32.toNat :=
      blockKeys_written listed [ended] count laid
    rw [listedKeys, parts.drop_groupsStart version rfl markBytes, List.append_assoc, keys,
      List.map_map]
    exact List.map_congr_left fun group _ => toInt_of_group group.1

theorem spelled_transaction (version : Version) (state : TransactionState)
    (nearVersion writeVersion : CacheVersion) (listed : List (UInt16 × List UInt16))
    (timestamp : UInt64) (count : listed.length < BigEndian.capacity 4)
    (counts : ∀ participant ∈ listed, participant.2.length < BigEndian.capacity 4) :
    ∃ payload : Bytes,
      spellTransaction state nearVersion writeVersion listed timestamp = ofBytes payload ∧
      payload.length = 45 +
        (written writeParticipant listed).length ∧
      listedKeys version .transaction payload =
        listed.map fun participant => (participant.1.toNat : Int) := by
  have laid := fun participant member => laysOut_participant participant (counts participant member)
  have participants := concat_of_fine writeParticipant listed fun participant member =>
    (laid participant member).fine
  let front :=
    (uint8 state.id ++ writeCacheVersion nearVersion ++ writeCacheVersion writeVersion).bytes
  have before : front.length = 33 := rfl
  refine ⟨front ++ (BigEndian.write 4 listed.length ++
    (written writeParticipant listed ++ (uint64 timestamp).bytes)), ?_, ?_, ?_⟩
  · rw [spellTransaction, writeParticipants, participants, append_assoc]
    rfl
  · have behind : (uint64 timestamp).bytes.length = 8 := rfl
    simp only [List.length_append, BigEndian.write_length, before, behind]
    omega
  · have keys : blockKeys participantWidths (BigEndian.write 4 listed.length ++
        (written writeParticipant listed ++ (uint64 timestamp).bytes)) =
          listed.map fun participant => participant.1.toNat :=
      blockKeys_written listed (uint64 timestamp).bytes count laid
    rw [listedKeys, List.drop_left' before, keys, List.map_map]
    rfl

end Codec

end Durability
