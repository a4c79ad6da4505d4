import Durability.Proofs.Codec.Corruption
import Durability.Proofs.Codec.ExactSize
import Durability.Proofs.Codec.NormalForm

/-! From version 1 to version 2. Version 2 reads whatever is asked of it, and reads what has no
fields of its own there just as version 1 does. What version 1 writes it writes with the length of a
checkpoint mark and the time of a data batch put in their places, segment headers apart, which it
does not write. So a payload of version 1 can be decoded, written anew and decoded again. -/

namespace Durability

namespace Codec

open Output Reader

def addedKinds : List RecordKind := [.transaction, .snapshot, .exchange, .rollback, .pageRepair]

def sharedKinds : List RecordKind :=
  [.header, .memoryRecovery, .partitionDestroy, .metastore, .switchSegment]

theorem provides_v1 (kind : RecordKind) :
    Version.v1.provides kind = false ↔ kind ∈ addedKinds := by
  cases kind <;> decide

/-! ### Reading -/

theorem kind_of_read {kind : RecordKind} {input rest : Bytes} {record : Record}
    (success : (read .v2 kind).run input = (.ok record, rest)) : record.kind = kind := by
  -- Segment headers are read alike in both versions, but spelled in the first alone.
  by_cases header : kind = .header
  · subst header
    obtain ⟨output, ⟨number, rfl, -⟩, -⟩ := takes_header input record rest success rfl
    rfl
  · obtain ⟨output, ⟨same, -⟩, -⟩ := takes_payload .checked .v2 kind
      (fun both => header both.2) input record rest success rfl
    exact same

theorem read_v2 (kind : RecordKind) (input : Bytes) :
    (∃ record rest, (read .v2 kind).run input = (.ok record, rest) ∧ record.kind = kind) ∨
      ∃ why rest, (read .v2 kind).run input = (.error (.corruption why), rest) := by
  cases outcome : (read .v2 kind).run input with
  | mk result rest =>
      cases result with
      | ok record => exact Or.inl ⟨record, rest, rfl, kind_of_read outcome⟩
      | error cause =>
          obtain ⟨why, rfl⟩ := failsCorrupt_readPayload .checked .v2 kind input cause
            (congrArg Prod.fst outcome)
          exact Or.inr ⟨why, rest, rfl⟩

theorem read_shared {kind : RecordKind} (shared : kind ∈ sharedKinds) :
    read .v2 kind = read .v1 kind := by
  cases kind <;> first | rfl | exact absurd shared (by decide)

/-! ### Writing -/

def insertAt (position : Nat) (bytes payload : Bytes) : Bytes :=
  payload.take position ++ bytes ++ payload.drop position

theorem insertAt_append {position : Nat} {front : Bytes} (length : front.length = position)
    (bytes rest : Bytes) : insertAt position bytes (front ++ rest) = front ++ bytes ++ rest := by
  subst length
  rw [insertAt, List.take_left, List.drop_left]

def markEnd : Nat := 16 + 1 + 8 + 4

def countEnd : Nat := 4

/-- What version 2 makes of a record with this payload in version 1. -/
def upgrade (payload : Bytes) : Record → Except Error Bytes
  | .header _ => .error (.unsupported .headerWriting)
  | .checkpoint checkpoint =>
    .ok (match checkpoint.mark with
      | none => payload
      | some pointer => insertAt markEnd (BigEndian.write 4 pointer.length.toNat) payload)
  | .data batch => .ok (insertAt countEnd (BigEndian.write 8 batch.timestamp.toNat) payload)
  | _ => .ok payload

theorem append_inserted {front bytes : Bytes} {rest : Output}
    (fine : (ofBytes front ++ rest).failure = none) :
    (ofBytes front ++ (ofBytes bytes ++ rest)).failure = none ∧
      (ofBytes front ++ (ofBytes bytes ++ rest)).bytes =
        insertAt front.length bytes (ofBytes front ++ rest).bytes := by
  have later := ((append_failure _ _).1 fine).2
  have whole : (ofBytes front ++ (ofBytes bytes ++ rest)).failure = none :=
    (append_failure _ _).2 ⟨rfl, (append_failure _ _).2 ⟨rfl, later⟩⟩
  refine ⟨whole, ?_⟩
  rw [append_bytes whole, append_bytes ((append_failure _ _).1 whole).2, append_bytes fine]
  exact ((insertAt_append rfl bytes rest.bytes).trans (List.append_assoc _ _ _)).symm

theorem layout_batch (batch : DataBatch) (fine : (writeBatch .v1 batch).failure = none) :
    (writeBatch .v2 batch).failure = none ∧
      (writeBatch .v2 batch).bytes = insertAt countEnd
        (BigEndian.write 8 batch.timestamp.toNat) (writeBatch .v1 batch).bytes := by
  simp only [writeBatch, append_nil] at fine ⊢
  rw [append_assoc]
  exact append_inserted fine

def markedFront (id : CheckpointId) (pointer : LogPointer) : Bytes :=
  BigEndian.write 8 id.high.toNat ++ BigEndian.write 8 id.low.toNat ++
    ([1] ++ BigEndian.write 8 pointer.segment.toNat ++ BigEndian.write 4 pointer.offset.toNat)

theorem length_markedFront (id : CheckpointId) (pointer : LogPointer) :
    (markedFront id pointer).length = markEnd := by
  simp only [markedFront, List.length_append, BigEndian.write_length]
  rfl

theorem layout_marked (checkpoint : Checkpoint) {pointer : LogPointer}
    (marked : checkpoint.mark = some pointer)
    (fine : (writeCheckpoint .v1 checkpoint).failure = none) :
    (writeCheckpoint .v2 checkpoint).failure = none ∧
      (writeCheckpoint .v2 checkpoint).bytes = insertAt markEnd
        (BigEndian.write 4 pointer.length.toNat) (writeCheckpoint .v1 checkpoint).bytes := by
  let rest := writeGroups checkpoint.groups.entries ++ flag checkpoint.isEnd
  have front : ofBytes (markedFront checkpoint.id pointer) =
      uint64 checkpoint.id.high ++ uint64 checkpoint.id.low ++
        (flag true ++ uint64 pointer.segment ++ uint32 pointer.offset) := rfl
  have first : writeCheckpoint .v1 checkpoint =
      ofBytes (markedFront checkpoint.id pointer) ++ rest := by
    rw [front, writeCheckpoint, marked]
    simp only [writeMark, rest, append_assoc, nil_append]
  have second : writeCheckpoint .v2 checkpoint =
      ofBytes (markedFront checkpoint.id pointer) ++ (uint32 pointer.length ++ rest) := by
    rw [front, writeCheckpoint, marked]
    simp only [writeMark, rest, append_assoc]
  rw [first] at fine ⊢
  rw [second, ← length_markedFront checkpoint.id pointer]
  exact append_inserted fine

theorem encode_upgrade {record : Record} {payload : Bytes}
    (encoded : encode .v1 record = .ok payload) :
    encode .v2 record = upgrade payload record := by
  obtain ⟨provided, ⟨size, sized⟩, fine, rfl⟩ := encode_eq_ok_iff.1 encoded
  cases record with
  | transaction | snapshot | exchange | rollback | pageRepair => cases provided
  | header number => rfl
  | memoryRecovery | partitionDestroy | switchSegment | metastore =>
      exact encode_eq_ok_iff.2 ⟨rfl, ⟨size, sized⟩, fine, rfl⟩
  | data batch =>
      exact encode_eq_ok_iff.2
        ⟨rfl, batch_sized .v2 batch (entries_fit sized), layout_batch batch fine⟩
  | checkpoint checkpoint =>
      obtain ⟨groups, blockSized, -⟩ := bind_eq_ok_iff.1 sized
      have sized : ∃ size, payloadSize .v2 (.checkpoint checkpoint) = .ok size :=
        ⟨_, bind_eq_ok_iff.2 ⟨groups, blockSized, rfl⟩⟩
      cases marked : checkpoint.mark with
      | none =>
          have same : writeCheckpoint .v2 checkpoint = writeCheckpoint .v1 checkpoint := by
            simp only [writeCheckpoint, marked, writeMark]
          rw [layout, ← same] at fine
          rw [upgrade, marked, layout, ← same]
          exact encode_eq_ok_iff.2 ⟨rfl, sized, fine, rfl⟩
      | some pointer =>
          rw [upgrade, marked]
          exact encode_eq_ok_iff.2 ⟨rfl, sized, layout_marked checkpoint marked fine⟩

/-- A payload of version 1 is decoded, written in version 2 and decoded again. -/
theorem decode_upgraded {kind : RecordKind} {payload : Bytes} {record : Record}
    (decoded : decode .v1 kind payload = .ok record) (writable : kind ≠ .header) :
    ∃ upgraded, encode .v2 record = .ok upgraded ∧ decode .v2 kind upgraded = .ok record := by
  have taken := runAll_eq_ok_iff.1 decoded
  have provided : Version.v1.provides kind = true := by
    cases provided : Version.v1.provides kind with
    | true => rfl
    | false =>
        rw [read, readWith, provided] at taken
        cases taken
  rw [read, readWith, if_pos provided] at taken
  have spellable : ¬ (Version.v1 = .v2 ∧ kind = .header) := fun both => writable both.2
  obtain ⟨output, ⟨rfl, spelled⟩, fine, -⟩ :=
    takes_payload .checked .v1 kind spellable payload record [] taken rfl
  obtain ⟨first, encoded, -⟩ := encode_spelled provided spelled fine
  have again := encode_upgrade encoded
  cases upgraded : upgrade first record with
  | error cause =>
      -- Only a segment header is refused.
      exfalso
      cases record <;> first | exact writable rfl | cases upgraded
  | ok bytes =>
      rw [upgraded] at again
      have reads := reads_encode .checked again []
      rw [List.append_nil, record.kept_v2] at reads
      exact ⟨bytes, again, runAll_eq_ok_iff.2 reads⟩

/-! ### What version 1 does not know -/

structure Refused (kind : RecordKind) (cause : Error) : Prop where
  size : ∀ record : Record, record.kind = kind → Codec.size .v1 record = .error cause
  write : ∀ record : Record, record.kind = kind → ∀ destination : Bytes,
    writeInto .v1 record destination =
      { buffer := destination, room := destination.length, failure := some cause }
  encode : ∀ record : Record, record.kind = kind → Codec.encode .v1 record = .error cause
  read : ∀ input : Bytes, (Codec.read .v1 kind).run input = (.error cause, input)

theorem refused_added {kind : RecordKind} (added : kind ∈ addedKinds) :
    Refused kind (.unsupported (.kindNeedsVersion2 kind)) := by
  have missing : Version.v1.provides kind = false := (provides_v1 kind).2 added
  have sized (record : Record) (is : record.kind = kind) :
      Codec.size .v1 record = .error (.unsupported (.kindNeedsVersion2 kind)) := by
    rw [Codec.size, is, missing]
    rfl
  refine ⟨sized, ?_, ?_, ?_⟩
  · exact fun record is destination => writeInto_of_error (sized record is) destination
  · exact fun record is => encode_of_error (sized record is)
  · intro input
    rw [Codec.read, readWith, missing]
    rfl

/-- Version 2 reads a record of the kind asked for or finds the input corrupt, and reads the shared
kinds just as version 1 does. It writes what version 1 can encode with its own fields put in. The
kinds that it adds are turned away by version 1. And all that version 1 accepts, segment headers
apart, version 2 can write and read back. -/
theorem versions_fit (kind : RecordKind) (input : Bytes) (record : Record) :
    ((∃ record rest, (read .v2 kind).run input = (.ok record, rest) ∧ record.kind = kind) ∨
      ∃ why rest, (read .v2 kind).run input = (.error (.corruption why), rest)) ∧
    (kind ∈ sharedKinds → (read .v2 kind).run input = (read .v1 kind).run input) ∧
    (∀ payload, encode .v1 record = .ok payload →
      encode .v2 record = upgrade payload record) ∧
    (kind ∈ addedKinds → Refused kind (.unsupported (.kindNeedsVersion2 kind))) ∧
    (decode .v1 kind input = .ok record → kind ≠ .header →
      ∃ upgraded, encode .v2 record = .ok upgraded ∧ decode .v2 kind upgraded = .ok record) :=
  ⟨read_v2 kind input, fun shared => congrArg (fun reader => reader.run input) (read_shared shared),
    fun _ encoded => encode_upgrade encoded, refused_added, decode_upgraded⟩

example :
    let entry : DataEntry := {
      cache := 1
      key := [7]
      value := none
      operation := .read
      nearVersion := { topology := 0, nodeOrder := 0, order := 0 }
      writeVersion := { topology := 0, nodeOrder := 0, order := 0 }
      partition := 0
      partitionCounter := 0
      expireTime := 0 }
    ((encode .v2 (.data { timestamp := 9, entries := [entry] })).toOption.map (List.take 21)) =
      some [0, 0, 0, 1, 0, 0, 0, 0, 0, 0, 0, 9, 0, 0, 0, 1, 0, 0, 0, 1, 7] := by
  decide +kernel

end Codec

end Durability
