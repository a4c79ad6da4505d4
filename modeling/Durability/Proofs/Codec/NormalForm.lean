import Durability.Proofs.Codec.Canonical
import Durability.Proofs.Codec.PrefixFree

/-! Decoding a payload and encoding the record gives the normal form of the payload. It always
exists: what was read fits the counts that it is written with, as a map has no more keys than were
listed. It is the payload itself if that is canonical, and otherwise differs from it by the flags,
by the order of the keys and by the items whose keys are listed again further on. -/

namespace Durability

namespace Codec

open Output

/-! ### What was read has a size -/

theorem mapM_of_ok {α β : Type} {f : α → Except Error β} (items : List α)
    (each : ∀ item ∈ items, ∃ result, f item = .ok result) :
    ∃ results, items.mapM f = .ok results := by
  induction items with
  | nil => exact ⟨[], rfl⟩
  | cons item items ih =>
      obtain ⟨result, first⟩ := each item List.mem_cons_self
      obtain ⟨results, others⟩ := ih fun other member =>
        each other (List.mem_cons_of_mem item member)
      refine ⟨result :: results, ?_⟩
      rw [List.mapM_cons]
      exact bind_eq_ok_iff.2 ⟨result, first, bind_eq_ok_iff.2 ⟨results, others, rfl⟩⟩

theorem counts_sized {α β : Type} {width : Nat} {outer inner : Excess}
    {items : List (α × List β)} {bytes : α × List β → Nat} {whole : List Nat → Nat}
    (count : items.length < BigEndian.capacity width)
    (counts : ∀ item ∈ items, item.2.length < BigEndian.capacity width) :
    ∃ size, (do
      countFits width items.length outer
      let sizes ← items.mapM fun item => do
        countFits width item.2.length inner
        pure (bytes item)
      pure (whole sizes) : Except Error Nat) = .ok size := by
  obtain ⟨sizes, sized⟩ := mapM_of_ok (f := fun item : α × List β => (do
      countFits width item.2.length inner
      pure (bytes item) : Except Error Nat)) items fun item member =>
    ⟨bytes item, bind_eq_ok_iff.2 ⟨(), countFits_eq_ok_iff.2 (counts item member), rfl⟩⟩
  exact ⟨whole sizes, bind_eq_ok_iff.2 ⟨(), countFits_eq_ok_iff.2 count,
    bind_eq_ok_iff.2 ⟨sizes, sized, rfl⟩⟩⟩

theorem checkpoint_sized (version : Version) (checkpoint : Checkpoint)
    (count : checkpoint.groups.entries.length < BigEndian.capacity 2)
    (counts : ∀ group ∈ checkpoint.groups.entries, group.2.length < BigEndian.capacity 2) :
    ∃ size, checkpointSize version checkpoint = .ok size := by
  have block : ∃ size, groupsSize checkpoint.groups.entries = .ok size := counts_sized count counts
  obtain ⟨size, sized⟩ := block
  exact ⟨_, bind_eq_ok_iff.2 ⟨size, sized, rfl⟩⟩

theorem transaction_sized (transaction : Transaction)
    (count : transaction.participants.entries.length < BigEndian.capacity 4)
    (counts : ∀ participant ∈ transaction.participants.entries,
      participant.2.length < BigEndian.capacity 4) :
    ∃ size, transactionSize transaction = .ok size := by
  have block : ∃ size, participantsSize transaction.participants.entries = .ok size :=
    counts_sized count counts
  obtain ⟨size, sized⟩ := block
  exact ⟨_, bind_eq_ok_iff.2 ⟨size, sized, rfl⟩⟩

/-! ### What is listed again -/

section Listed

variable {κ ν : Type} [LT κ] [DecidableLT κ] [LE κ] [Std.IsLinearOrder κ] [Std.LawfulOrderLT κ]
  (listed : List (κ × ν)) {rank : κ → Int}

theorem length_written_ofList (write : κ × ν → Output)
    (visible : ∀ item, (write item).bytes ≠ []) :
    (written write (KeyMap.ofList listed).entries).length ≤ (written write listed).length ∧
      ((written write (KeyMap.ofList listed).entries).length = (written write listed).length ↔
        (listed.map Prod.fst).Nodup) := by
  obtain ⟨dropped, perm, keepsAll⟩ := KeyMap.ofList_entries_perm listed
  have total : (written write listed).length =
      (written write (KeyMap.ofList listed).entries).length + (written write dropped).length := by
    rw [written, (perm.flatMap_right _).length_eq, List.flatMap_append, List.length_append]
    rfl
  have nothing : (written write dropped).length = 0 ↔ dropped = [] := by
    rw [List.length_eq_zero_iff, written, List.flatMap_eq_nil_iff, List.eq_nil_iff_forall_not_mem]
    exact forall_congr' fun item =>
      ⟨fun hidden member => visible item (hidden member), fun absent member => absurd member absent⟩
  rw [← keepsAll, ← nothing]
  omega

theorem ascending_ofList (rises : ∀ first second : κ, first < second ↔ rank first < rank second) :
    ((KeyMap.ofList listed).entries.map fun item => rank item.1).Pairwise (· < ·) := by
  rw [List.pairwise_map]
  exact (KeyMap.ofList listed).ascending.imp fun before => (rises _ _).1 before

theorem ofList_of_ascending
    (rises : ∀ first second : κ, first < second ↔ rank first < rank second)
    (ascending : (listed.map fun item => rank item.1).Pairwise (· < ·)) :
    (KeyMap.ofList listed).entries = listed := by
  rw [List.pairwise_map] at ascending
  exact KeyMap.ofList_entries_of_ascending listed (ascending.imp fun before => (rises _ _).2 before)

omit [DecidableLT κ] in
theorem nodup_ranks (rises : ∀ first second : κ, first < second ↔ rank first < rank second) :
    (listed.map fun item => rank item.1).Nodup ↔ (listed.map Prod.fst).Nodup := by
  have same (first second : κ × ν) : rank first.1 ≠ rank second.1 ↔ first.1 ≠ second.1 := by
    constructor
    · exact mt (congrArg rank)
    · intro different
      have apart : first.1 < second.1 ∨ second.1 < first.1 := by grind
      rw [rises, rises second.1] at apart
      omega
  rw [List.Nodup, List.Nodup, List.pairwise_map, List.pairwise_map]
  exact List.Pairwise.iff fun {first second} => same first second

end Listed

/-! ### Encoding again -/

/-- `again` is the normal form of `payload`. -/
structure NormalForm (version : Version) (kind : RecordKind) (again payload : Bytes) : Prop where
  shorter : again.length ≤ payload.length
  same : again = payload ↔ Canonical version kind payload
  sameLength : again.length = payload.length ↔ (listedKeys version kind payload).Nodup

def flagByte (value : Bool) : UInt8 := if value then 1 else 0

theorem flagByte_normal (value : Bool) : flagByte value = 0 ∨ flagByte value = 1 := by
  cases value
  · exact Or.inl rfl
  · exact Or.inr rfl

theorem flagByte_of_normal {byte : UInt8} (normal : byte = 0 ∨ byte = 1) :
    flagByte (byte != 0) = byte := by
  rcases normal with rfl | rfl <;> rfl

theorem writeCheckpoint_eq (version : Version) (checkpoint : Checkpoint) :
    writeCheckpoint version checkpoint =
      spellCheckpoint version checkpoint.id (flagByte checkpoint.mark.isSome) checkpoint.mark
        checkpoint.groups.entries (flagByte checkpoint.isEnd) := by
  have mark : writeMark version checkpoint.mark =
      spellMark version (flagByte checkpoint.mark.isSome) checkpoint.mark := by
    cases checkpoint.mark with
    | none => exact (append_nil _).symm
    | some pointer =>
        simp only [writeMark, spellMark, append_assoc]
        rfl
  rw [writeCheckpoint, spellCheckpoint, mark]
  rfl

theorem normalForm_checkpoint (version : Version) (id : CheckpointId) (announced : UInt8)
    (mark : Option LogPointer) (listed : List (Int32 × List PartitionState)) (ended : UInt8)
    (announces : mark.isSome = (announced != 0))
    (count : listed.length < BigEndian.capacity 2)
    (counts : ∀ group ∈ listed, group.2.length < BigEndian.capacity 2) :
    ∃ again payload : Bytes,
      writeCheckpoint version
        { id, mark, groups := KeyMap.ofList listed, isEnd := ended != 0 } = ofBytes again ∧
      spellCheckpoint version id announced mark listed ended = ofBytes payload ∧
      NormalForm version .checkpoint again payload := by
  obtain ⟨payload, spelled, length, flags, keys⟩ :=
    spelled_checkpoint version id announced mark listed ended announces count counts
  have kept := KeyMap.length_ofList_le listed
  obtain ⟨again, respelled, lengthAgain, flagsAgain, keysAgain⟩ :=
    spelled_checkpoint version id (flagByte mark.isSome) mark (KeyMap.ofList listed).entries
      (flagByte (ended != 0)) (by cases mark <;> rfl) (Nat.lt_of_le_of_lt kept count)
      fun group member => counts group (KeyMap.mem_of_mem_ofList member)
  obtain ⟨shorter, whole⟩ := length_written_ofList listed writeGroup
    fun group => List.cons_ne_nil _ _
  refine ⟨again, payload, (writeCheckpoint_eq version _).trans respelled, spelled, ?_, ?_, ?_⟩
  · omega
  · constructor
    -- What is written is canonical itself, and canonical parts are written as they are.
    · rintro rfl
      refine ⟨?_, ?_⟩
      · rw [flagsAgain]
        simp [flagByte_normal]
      · rw [keysAgain]
        exact ascending_ofList listed fun _ _ => Int32.lt_iff_toInt_lt
    · rintro ⟨normal, ascending⟩
      rw [flags] at normal
      rw [keys] at ascending
      have inOrder := ofList_of_ascending listed (fun _ _ => Int32.lt_iff_toInt_lt) ascending
      have first := flagByte_of_normal (normal announced (by simp))
      have last := flagByte_of_normal (normal ended (by simp))
      rw [announces, first, last, inOrder, spelled] at respelled
      exact (congrArg Output.bytes respelled).symm
  · rw [keys, nodup_ranks listed fun _ _ => Int32.lt_iff_toInt_lt, ← whole]
    omega

theorem normalForm_transaction (version : Version) (state : TransactionState)
    (nearVersion writeVersion : CacheVersion) (listed : List (UInt16 × List UInt16))
    (timestamp : UInt64) (count : listed.length < BigEndian.capacity 4)
    (counts : ∀ participant ∈ listed, participant.2.length < BigEndian.capacity 4) :
    ∃ again payload : Bytes,
      writeTransaction
        { state, nearVersion, writeVersion, participants := KeyMap.ofList listed, timestamp } =
          ofBytes again ∧
      spellTransaction state nearVersion writeVersion listed timestamp = ofBytes payload ∧
      NormalForm version .transaction again payload := by
  have rises (first second : UInt16) :
      first < second ↔ (first.toNat : Int) < (second.toNat : Int) :=
    UInt16.lt_iff_toNat_lt.trans Int.ofNat_lt.symm
  obtain ⟨payload, spelled, length, keys⟩ := spelled_transaction version state nearVersion
    writeVersion listed timestamp count counts
  have kept := KeyMap.length_ofList_le listed
  obtain ⟨again, respelled, lengthAgain, keysAgain⟩ := spelled_transaction version state nearVersion
    writeVersion (KeyMap.ofList listed).entries timestamp (Nat.lt_of_le_of_lt kept count)
    fun participant member => counts participant (KeyMap.mem_of_mem_ofList member)
  obtain ⟨shorter, whole⟩ := length_written_ofList listed writeParticipant
    fun participant => List.cons_ne_nil _ _
  refine ⟨again, payload, respelled, spelled, ?_, ?_, ?_⟩
  · omega
  · constructor
    · rintro rfl
      refine ⟨fun byte member => absurd member List.not_mem_nil, ?_⟩
      rw [keysAgain]
      exact ascending_ofList listed rises
    · rintro ⟨-, ascending⟩
      rw [keys] at ascending
      rw [ofList_of_ascending listed rises ascending, spelled] at respelled
      exact (congrArg Output.bytes respelled).symm
  · rw [keys, nodup_ranks listed rises, ← whole]
    omega

theorem normalForm_refl {version : Version} {kind : RecordKind} {payload : Bytes}
    (canonical : Canonical version kind payload) : NormalForm version kind payload payload where
  shorter := Nat.le_refl _
  same := iff_of_true rfl canonical
  sameLength := iff_of_true rfl (canonical.ascending.imp Int.ne_of_lt)

theorem normalForm_snapshot (version : Version) (id : UInt64) (full : UInt8) :
    NormalForm version .snapshot (spellSnapshot id (flagByte (full == 1))).bytes
      (spellSnapshot id full).bytes := by
  have flags (byte : UInt8) : flagBytes .snapshot (spellSnapshot id byte).bytes = [byte] := by
    have last : (spellSnapshot id byte).bytes.getLast? = some byte := List.getLast?_concat
    rw [flagBytes, last]
    rfl
  have length (byte : UInt8) : (spellSnapshot id byte).bytes.length = 9 := rfl
  refine ⟨Nat.le_refl 9, ?_, iff_of_true rfl List.nodup_nil⟩
  constructor
  · intro same
    rw [← same]
    refine ⟨?_, List.Pairwise.nil⟩
    rw [flags]
    simp [flagByte_normal]
  · rintro ⟨normal, -⟩
    rw [flags] at normal
    rcases normal full (by simp) with rfl | rfl <;> rfl

theorem canonical_single {version : Version} {kind : RecordKind}
    (single : kind ∉ respelled) (payload : Bytes) : Canonical version kind payload := by
  cases kind with
  | transaction => exact absurd (by decide) single
  | checkpoint => exact absurd (by decide) single
  | snapshot => exact absurd (by decide) single
  | _ => exact ⟨fun _ member => absurd member List.not_mem_nil, List.Pairwise.nil⟩

theorem encode_spelled {version : Version} {record : Record} {output : Output}
    (provided : version.provides record.kind = true) (spelled : Spells version record output)
    (fine : output.failure = none) :
    ∃ again, encode version record = .ok again ∧
      NormalForm version record.kind again output.bytes := by
  cases spelled with
  | checkpoint id announced mark listed ended announces count counts =>
      obtain ⟨again, payload, laid, spelled, normal⟩ :=
        normalForm_checkpoint version id announced mark listed ended announces count counts
      have sized := checkpoint_sized version
        { id, mark, groups := KeyMap.ofList listed, isEnd := ended != 0 }
        (Nat.lt_of_le_of_lt (KeyMap.length_ofList_le listed) count)
        fun group member => counts group (KeyMap.mem_of_mem_ofList member)
      rw [spelled]
      exact ⟨again, encode_eq_ok_iff.2 ⟨provided, sized, congrArg Output.failure laid,
        congrArg Output.bytes laid⟩, normal⟩
  | transaction state nearVersion writeVersion listed timestamp count counts =>
      obtain ⟨again, payload, laid, spelled, normal⟩ := normalForm_transaction version state
        nearVersion writeVersion listed timestamp count counts
      have sized := transaction_sized
        { state, nearVersion, writeVersion, participants := KeyMap.ofList listed, timestamp }
        (Nat.lt_of_le_of_lt (KeyMap.length_ofList_le listed) count)
        fun participant member => counts participant (KeyMap.mem_of_mem_ofList member)
      rw [spelled]
      exact ⟨again, encode_eq_ok_iff.2 ⟨provided, sized, congrArg Output.failure laid,
        congrArg Output.bytes laid⟩, normal⟩
  | snapshot id full =>
      exact ⟨_, encode_eq_ok_iff.2 ⟨provided, ⟨9, rfl⟩, rfl, rfl⟩,
        normalForm_snapshot version id full⟩
  | only record size single sized =>
      exact ⟨_, encode_eq_ok_iff.2 ⟨provided, ⟨size, sized⟩, fine, rfl⟩,
        normalForm_refl (canonical_single single _)⟩

/-- Whatever decodes can be encoded again, except that version 2 does not write segment headers. The
bytes are those of the payload exactly if that was canonical, and are never more; they are fewer
exactly if a key was listed again. -/
theorem encode_decode (version : Version) (kind : RecordKind) (payload : Bytes) (record : Record)
    (writable : ¬ (version = .v2 ∧ kind = .header))
    (decoded : decode version kind payload = .ok record) :
    ∃ again, encode version record = .ok again ∧ again.length ≤ payload.length ∧
      (again = payload ↔ Canonical version kind payload) ∧
      (again.length = payload.length ↔ (listedKeys version kind payload).Nodup) := by
  have whole := Reader.runAll_eq_ok_iff.1 decoded
  rw [read, readWith] at whole
  by_cases provided : version.provides kind = true
  · rw [if_pos provided] at whole
    obtain ⟨output, ⟨rfl, spelled⟩, fine, split⟩ :=
      takes_payload .checked version kind writable payload record [] whole rfl
    have bytes : payload = output.bytes := split.trans (List.append_nil _)
    obtain ⟨again, encoded, normal⟩ := encode_spelled provided spelled fine
    rw [bytes]
    exact ⟨again, encoded, normal.shorter, normal.same, normal.sameLength⟩
  · rw [if_neg provided] at whole
    cases whole

def repeatedGroup : Bytes :=
  List.replicate 16 0 ++ [7] ++ List.replicate 12 1 ++
    ([0, 3] ++ [0, 0, 0, 5, 0, 0] ++ ([255, 255, 255, 254, 0, 1] ++ List.replicate 19 2) ++
      [0, 0, 0, 5, 0, 0]) ++ [255]

theorem encode_decode_repeatedGroup :
    listedKeys .v1 .checkpoint repeatedGroup = [5, -2, 5] ∧
      flagBytes .checkpoint repeatedGroup = [7, 255] ∧
      ∃ record again, decode .v1 .checkpoint repeatedGroup = .ok record ∧
        encode .v1 record = .ok again ∧ again.length < repeatedGroup.length := by
  have keys : listedKeys .v1 .checkpoint repeatedGroup = [5, -2, 5] := by decide +kernel
  have accepted : ∃ record, decode .v1 .checkpoint repeatedGroup = .ok record := ⟨_, rfl⟩
  obtain ⟨record, decoded⟩ := accepted
  obtain ⟨again, encoded, shorter, -, sameLength⟩ :=
    encode_decode .v1 .checkpoint repeatedGroup record (by decide) decoded
  have repeated : again.length ≠ repeatedGroup.length := by
    rw [Ne, sameLength, keys]
    decide
  exact ⟨keys, by decide +kernel, record, again, decoded, encoded,
    Nat.lt_of_le_of_ne shorter repeated⟩

end Codec

end Durability
