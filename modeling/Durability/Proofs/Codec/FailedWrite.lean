import Durability.Proofs.Codec.ExactSize

/-! Writes that fail. The size tells beforehand of all that may stop a write but two things: in
version 2 a segment header is not written, and a byte array may be too long for its length. The
first is turned away before anything is written; the second only where the array is met, which is
in most records behind others that were put down. -/

namespace Durability

def Record.arrayLengths : Record → List Nat
  | .data batch => batch.entries.flatMap fun entry =>
    entry.key.length :: (entry.value.map List.length).toList
  | .metastore entry => entry.key.utf8ByteSize :: (entry.value.map List.length).toList
  | _ => []

def TooLong (lengths : List Nat) : Prop := ∃ length ∈ lengths, BigEndian.absentLength ≤ length

def Record.Overlong (record : Record) : Prop := TooLong record.arrayLengths

def Record.Torn (record : Record) : Prop :=
  record.Overlong ∧
    match record with
    | .metastore entry => entry.key.utf8ByteSize < BigEndian.absentLength
    | _ => True

theorem Record.Overlong.holds {record : Record} (long : record.Overlong) :
    (∃ batch, record = .data batch) ∨ ∃ entry, record = .metastore entry := by
  obtain ⟨length, among, -⟩ := long
  cases record with
  | data batch => exact Or.inl ⟨batch, rfl⟩
  | metastore entry => exact Or.inr ⟨entry, rfl⟩
  | _ => cases among

namespace Output

structure StopsIf (output : Output) (long : Prop) : Prop where
  stops : long → output.failure = some (.excess .byteArrayTooLong)
  goes : ¬ long → output.failure = none

variable {first second output : Output} {long longer : Prop}

theorem StopsIf.congr (stops : output.StopsIf long) (same : long ↔ longer) :
    output.StopsIf longer := propext same ▸ stops

theorem stopsIf_fine (fine : output.failure = none) : output.StopsIf False :=
  ⟨False.elim, fun _ => fine⟩

theorem StopsIf.append (one : first.StopsIf long) (other : second.StopsIf longer) :
    (first ++ second).StopsIf (long ∨ longer) := by
  by_cases held : long
  · have stopped := one.stops held
    refine ⟨fun _ => ?_, fun neither => absurd (Or.inl held) neither⟩
    rw [append_of_failed stopped, stopped]
  · have fine := one.goes held
    rw [append_of_ok fine]
    exact ⟨fun either => other.stops (either.resolve_left held),
      fun neither => other.goes fun held => neither (Or.inr held)⟩

theorem StopsIf.after (fine : first.failure = none) (stops : second.StopsIf long) :
    (first ++ second).StopsIf long :=
  ((stopsIf_fine fine).append stops).congr (iff_of_eq (false_or long))

theorem StopsIf.before (stops : first.StopsIf long) (fine : second.failure = none) :
    (first ++ second).StopsIf long :=
  (stops.append (stopsIf_fine fine)).congr (iff_of_eq (or_false long))

theorem tooLong_cons {length : Nat} {lengths : List Nat} :
    TooLong (length :: lengths) ↔ BigEndian.absentLength ≤ length ∨ TooLong lengths := by
  simp [TooLong]

theorem stopsIf_lengthPrefixed (array : Option Bytes) :
    (lengthPrefixed array).StopsIf (TooLong (array.map List.length).toList) := by
  cases array with
  | none => exact (stopsIf_fine rfl).congr (iff_of_false id (by simp [TooLong]))
  | some array =>
      have single : BigEndian.absentLength ≤ array.length ↔
          TooLong ((some array).map List.length).toList := by simp [TooLong]
      refine StopsIf.congr ⟨fun long => ?_, fun short => ?_⟩ single
      · rw [lengthPrefixed, if_neg (Nat.not_lt.2 long)]
        rfl
      · rw [lengthPrefixed_of_short (Nat.not_le.1 short)]
        rfl

theorem stopsIf_concat {α : Type} {write : α → Output} {long : α → Prop} (items : List α)
    (each : ∀ item ∈ items, (write item).StopsIf (long item)) :
    (concat (items.map write)).StopsIf (∃ item ∈ items, long item) := by
  induction items with
  | nil => exact (stopsIf_fine rfl).congr (by simp)
  | cons item items ih =>
      rw [List.map_cons, concat_cons]
      have rest := ih fun other member => each other (List.mem_cons_of_mem item member)
      exact ((each item List.mem_cons_self).append rest).congr (by simp)

theorem concat_fine {α : Type} {write : α → Output} (items : List α)
    (each : ∀ item ∈ items, (write item).failure = none) :
    (concat (items.map write)).failure = none :=
  (stopsIf_concat items fun item member => stopsIf_fine (each item member)).goes (by simp)

theorem bytes_append_ne_nil (fine : first.failure = none) (some : first.bytes ≠ []) :
    (first ++ second).bytes ≠ [] := by
  rw [append_of_ok fine]
  exact List.append_ne_nil_of_left_ne_nil some _

end Output

namespace Codec

open Output

/-! ### Where a layout stops -/

theorem writeGroups_fine (groups : List (Int32 × List PartitionState)) :
    (writeGroups groups).failure = none := by
  have each (group : Int32 × List PartitionState) : (writeGroup group).failure = none :=
    (append_failure _ _).2 ⟨rfl, concat_fine group.2 fun _ _ => rfl⟩
  exact (append_failure _ _).2 ⟨rfl, concat_fine groups fun group _ => each group⟩

theorem writeParticipants_fine (participants : List (UInt16 × List UInt16)) :
    (writeParticipants participants).failure = none := by
  have each (participant : UInt16 × List UInt16) : (writeParticipant participant).failure = none :=
    (append_failure _ _).2 ⟨rfl, concat_fine participant.2 fun _ _ => rfl⟩
  exact (append_failure _ _).2
    ⟨rfl, concat_fine participants fun participant _ => each participant⟩

theorem writeCheckpoint_fine (version : Version) (checkpoint : Checkpoint) :
    (writeCheckpoint version checkpoint).failure = none := by
  have mark : (writeMark version checkpoint.mark).failure = none := by
    cases checkpoint.mark with
    | none => rfl
    | some pointer => cases version <;> rfl
  refine (append_failure _ _).2 ⟨(append_failure _ _).2 ⟨?_, writeGroups_fine _⟩, rfl⟩
  exact (append_failure _ _).2 ⟨rfl, mark⟩

theorem writeTransaction_fine (transaction : Transaction) :
    (writeTransaction transaction).failure = none :=
  (append_failure _ _).2 ⟨(append_failure _ _).2 ⟨rfl, writeParticipants_fine _⟩, rfl⟩

theorem stopsIf_entry (entry : DataEntry) :
    (writeEntry entry).StopsIf
      (TooLong (entry.key.length :: (entry.value.map List.length).toList)) := by
  unfold writeEntry
  simp only [append_assoc]
  have key : (lengthPrefixed (some entry.key)).StopsIf
      (BigEndian.absentLength ≤ entry.key.length) :=
    (stopsIf_lengthPrefixed (some entry.key)).congr (by simp [TooLong])
  refine StopsIf.after rfl ((key.append ?_).congr tooLong_cons.symm)
  exact (stopsIf_lengthPrefixed entry.value).before rfl

theorem stopsIf_batch (version : Version) (batch : DataBatch) :
    (writeBatch version batch).StopsIf (Record.data batch).Overlong := by
  have entries := stopsIf_concat batch.entries fun entry _ => stopsIf_entry entry
  have same : (∃ entry ∈ batch.entries,
      TooLong (entry.key.length :: (entry.value.map List.length).toList)) ↔
        (Record.data batch).Overlong := by
    simp only [Record.Overlong, Record.arrayLengths, TooLong, List.mem_flatMap]
    exact ⟨fun ⟨entry, member, length, among, long⟩ => ⟨length, ⟨entry, member, among⟩, long⟩,
      fun ⟨length, ⟨entry, member, among⟩, long⟩ => ⟨entry, member, length, among, long⟩⟩
  refine StopsIf.after ?_ (entries.congr same)
  cases version <;> rfl

theorem stopsIf_metastore (entry : MetastoreEntry) :
    (lengthPrefixedText entry.key ++ lengthPrefixed entry.value).StopsIf
      (Record.metastore entry).Overlong := by
  have key : (lengthPrefixedText entry.key).StopsIf
      (BigEndian.absentLength ≤ entry.key.utf8ByteSize) := by
    refine ⟨fun long => ?_, fun short => ?_⟩
    · rw [lengthPrefixedText, if_neg (Nat.not_lt.2 long)]
      rfl
    · rw [lengthPrefixedText, if_pos (Nat.not_le.1 short)]
      rfl
  exact (key.append (stopsIf_lengthPrefixed entry.value)).congr tooLong_cons.symm

theorem stopsIf_layout {version : Version} {record : Record}
    (writable : ¬ (version = .v2 ∧ record.kind = .header)) :
    (layout version record).StopsIf record.Overlong := by
  have others {output : Output} {record : Record} (fine : output.failure = none)
      (nothing : record.arrayLengths = []) : output.StopsIf record.Overlong :=
    (stopsIf_fine fine).congr (iff_of_false id (by simp [Record.Overlong, TooLong, nothing]))
  cases record with
  | data batch => exact stopsIf_batch version batch
  | metastore entry => exact stopsIf_metastore entry
  | transaction transaction => exact others (writeTransaction_fine transaction) rfl
  | checkpoint checkpoint => exact others (writeCheckpoint_fine version checkpoint) rfl
  | header number =>
      cases version with
      | v1 => exact others rfl rfl
      | v2 => exact absurd ⟨rfl, rfl⟩ writable
  | _ => exact others rfl rfl

theorem bytes_of_overlong (version : Version) {record : Record} (long : record.Overlong) :
    (layout version record).bytes ≠ [] ↔ record.Torn := by
  obtain ⟨batch, rfl⟩ | ⟨entry, rfl⟩ := long.holds
  · refine iff_of_true ?_ ⟨long, trivial⟩
    simp only [layout, writeBatch, append_assoc]
    exact bytes_append_ne_nil rfl (List.cons_ne_nil _ _)
  · by_cases short : entry.key.utf8ByteSize < BigEndian.absentLength
    · refine iff_of_true ?_ ⟨long, short⟩
      rw [layout, lengthPrefixedText, if_pos short, append_assoc]
      exact bytes_append_ne_nil rfl (List.cons_ne_nil _ _)
    · refine iff_of_false ?_ fun torn => short torn.2
      rw [layout, lengthPrefixedText, if_neg short]
      exact fun some => some rfl

theorem size_pos_of_overlong {version : Version} {record : Record} {size : Nat}
    (sized : payloadSize version record = .ok size) (long : record.Overlong) : 0 < size := by
  obtain ⟨batch, rfl⟩ | ⟨entry, rfl⟩ := long.holds
  · obtain ⟨⟨⟩, -, done⟩ := bind_eq_ok_iff.1 sized
    cases done
    omega
  · cases sized
    simp only [lengthPrefixedTextSize]
    omega

/-! ### What a failed write leaves behind -/

def Fits (version : Version) (record : Record) (room : Nat) : Prop :=
  ∃ size, Codec.size version record = .ok size ∧ size ≤ room

def Unforeseen (version : Version) (record : Record) : Prop :=
  (version = .v2 ∧ record.kind = .header) ∨ record.Overlong

theorem fine_layout_iff {version : Version} {record : Record} :
    (layout version record).failure = none ↔ ¬ Unforeseen version record := by
  by_cases header : version = .v2 ∧ record.kind = .header
  · refine iff_of_false (fun fine => ?_) fun foreseen => foreseen (Or.inl header)
    obtain ⟨rfl, is⟩ := header
    cases record <;> cases is
    cases fine
  · have stops := stopsIf_layout header
    refine ⟨fun fine unforeseen => ?_, fun foreseen => stops.goes fun long =>
      foreseen (Or.inr long)⟩
    have stopped := stops.stops (unforeseen.resolve_left header)
    rw [fine] at stopped
    cases stopped

theorem bytes_of_untorn {version : Version} {record : Record}
    (failed : (layout version record).failure ≠ none) (untorn : ¬ record.Torn) :
    (layout version record).bytes = [] := by
  obtain ⟨rfl, is⟩ | long := Classical.not_not.1 fun foreseen => failed (fine_layout_iff.2 foreseen)
  · cases record <;> cases is
    rfl
  · exact Classical.not_not.1 fun some => untorn ((bytes_of_overlong version long).1 some)

theorem writeInto_of_fits {version : Version} {record : Record} {destination : Bytes}
    (fits : Fits version record destination.length) :
    writeInto version record destination =
      { buffer := (layout version record).bytes ++
          destination.drop (layout version record).bytes.length
        room := destination.length - (layout version record).bytes.length
        failure := (layout version record).failure } := by
  obtain ⟨size, sized, enough⟩ := fits
  exact writeInto_of_le sized enough

theorem writeInto_of_unfit {version : Version} {record : Record} {destination : Bytes}
    (unfit : ¬ Fits version record destination.length) :
    ∃ cause, writeInto version record destination =
      { buffer := destination, room := destination.length, failure := some cause } := by
  cases sized : Codec.size version record with
  | error cause => exact ⟨cause, writeInto_of_error sized destination⟩
  | ok size =>
      have short : destination.length < size :=
        Nat.not_le.1 fun enough => unfit ⟨size, sized, enough⟩
      exact ⟨_, writeInto_of_lt sized short⟩

theorem encode_ok_iff {version : Version} {record : Record} :
    (∃ payload, encode version record = .ok payload) ↔
      (∃ size, Codec.size version record = .ok size) ∧ ¬ Unforeseen version record := by
  constructor
  · rintro ⟨payload, encoded⟩
    obtain ⟨provided, ⟨size, sized⟩, fine, -⟩ := encode_eq_ok_iff.1 encoded
    exact ⟨⟨size, size_eq_ok_iff.2 ⟨provided, sized⟩⟩, fine_layout_iff.1 fine⟩
  · rintro ⟨⟨size, sized⟩, foreseen⟩
    obtain ⟨provided, sized⟩ := size_eq_ok_iff.1 sized
    exact ⟨_, encode_eq_ok_iff.2 ⟨provided, ⟨size, sized⟩, fine_layout_iff.2 foreseen, rfl⟩⟩

theorem torn_of_fits {version : Version} {record : Record} {destination : Bytes}
    (fits : Fits version record destination.length) (torn : record.Torn) :
    (writeInto version record destination).failure = some (.excess .byteArrayTooLong) ∧
      (writeInto version record destination).room < destination.length := by
  obtain ⟨size, sized, enough⟩ := fits
  have room := size_pos_of_overlong (size_eq_ok_iff.1 sized).2 torn.1
  have front := List.length_pos_iff.2 ((bytes_of_overlong version torn.1).2 torn)
  have writable : ¬ (version = .v2 ∧ record.kind = .header) := by
    rintro ⟨-, is⟩
    obtain ⟨batch, rfl⟩ | ⟨entry, rfl⟩ := torn.1.holds <;> cases is
  rw [writeInto_of_le sized enough]
  refine ⟨(stopsIf_layout writable).stops torn.1, ?_⟩
  exact Nat.sub_lt (Nat.lt_of_lt_of_le room enough) front

/-- A record is encoded if it has a size and nothing stands against it that the size does not
tell, and it is written wherever there is room besides. A write that fails leaves the destination as
it was, unless there was room and a byte array is too long that has something in front of it: then
what stands in front has been written. -/
theorem failed_writes (version : Version) (record : Record) :
    ((∃ payload, encode version record = .ok payload) ↔
      (∃ size, Codec.size version record = .ok size) ∧ ¬ Unforeseen version record) ∧
    ∀ destination : Bytes,
      ((writeInto version record destination).failure = none ↔
        Fits version record destination.length ∧ ¬ Unforeseen version record) ∧
      (Fits version record destination.length ∧ record.Torn →
        (writeInto version record destination).failure = some (.excess .byteArrayTooLong) ∧
        (writeInto version record destination).room < destination.length) ∧
      ((writeInto version record destination).failure ≠ none →
        ¬ (Fits version record destination.length ∧ record.Torn) →
        (writeInto version record destination).buffer = destination ∧
        (writeInto version record destination).room = destination.length) := by
  refine ⟨encode_ok_iff, fun destination => ?_⟩
  by_cases fits : Fits version record destination.length
  · refine ⟨?_, fun both => torn_of_fits fits both.2, ?_⟩
    · rw [writeInto_of_fits fits]
      exact fine_layout_iff.trans (and_iff_right fits).symm
    · rw [writeInto_of_fits fits]
      intro failed untorn
      rw [bytes_of_untorn failed fun torn => untorn ⟨fits, torn⟩]
      exact ⟨rfl, rfl⟩
  · obtain ⟨cause, left⟩ := writeInto_of_unfit fits
    rw [left]
    exact ⟨iff_of_false nofun fun both => fits both.1, fun both => absurd both.1 fits,
      fun _ _ => ⟨rfl, rfl⟩⟩

def keyOf (count : Nat) : Record :=
  .metastore { key := String.ofList (List.replicate count 'a'), value := none }

def valueOf (count : Nat) : Record :=
  .metastore { key := "k", value := some (List.replicate count 0) }

theorem utf8ByteSize_replicate (count : Nat) :
    (String.ofList (List.replicate count 'a')).utf8ByteSize = count := by
  have one : 'a'.utf8Size = 1 := rfl
  rw [← String.size_toByteArray]
  simp [String.ofList, List.utf8Encode, one]

theorem size_keyOf (count : Nat) : Codec.size .v1 (keyOf count) = .ok (count + 8) := by
  refine size_eq_ok_iff.2 ⟨rfl, congrArg Except.ok ?_⟩
  rw [lengthPrefixedTextSize, utf8ByteSize_replicate]
  change 4 + count + 4 = count + 8
  omega

theorem size_valueOf (count : Nat) : Codec.size .v1 (valueOf count) = .ok (count + 9) := by
  refine size_eq_ok_iff.2 ⟨rfl, congrArg Except.ok ?_⟩
  rw [lengthPrefixedSize, Option.map_some, List.length_replicate]
  change 5 + (4 + count) = count + 9
  omega

theorem encode_keyOf {count : Nat} (long : BigEndian.absentLength ≤ count) :
    encode .v1 (keyOf count) = .error (.excess .byteArrayTooLong) := by
  have key : lengthPrefixedText (String.ofList (List.replicate count 'a')) =
      fail (.excess .byteArrayTooLong) := by
    rw [lengthPrefixedText, utf8ByteSize_replicate, if_neg (Nat.not_lt.2 long)]
  rw [encode_of_size (size_keyOf count), keyOf, layout, key]
  rfl

theorem layout_valueOf {count : Nat} (long : BigEndian.absentLength ≤ count) :
    layout .v1 (valueOf count) =
      { bytes := [0, 0, 0, 1, 107], failure := some (.excess .byteArrayTooLong) } := by
  have value : lengthPrefixed (some (List.replicate count 0)) =
      fail (.excess .byteArrayTooLong) := by
    rw [lengthPrefixed, List.length_replicate, if_neg (Nat.not_lt.2 long)]
  have key : lengthPrefixedText "k" = ofBytes [0, 0, 0, 1, 107] := by decide +kernel
  rw [valueOf, layout, value, key]
  rfl

/-- The shortest arrays that are too long. Both records have a size. The first cannot be encoded;
the second is not written into a destination with room for it, but five bytes of that are lost. -/
theorem failed_writes_overlong :
    (Codec.size .v1 (keyOf BigEndian.absentLength) = .ok (BigEndian.absentLength + 8) ∧
      encode .v1 (keyOf BigEndian.absentLength) = .error (.excess .byteArrayTooLong)) ∧
    Codec.size .v1 (valueOf BigEndian.absentLength) = .ok (BigEndian.absentLength + 9) ∧
    writeInto .v1 (valueOf BigEndian.absentLength)
        (List.replicate (BigEndian.absentLength + 9) 170) =
      { buffer := [0, 0, 0, 1, 107] ++ List.replicate (BigEndian.absentLength + 4) 170
        room := BigEndian.absentLength + 4
        failure := some (.excess .byteArrayTooLong) } := by
  have sized := size_valueOf BigEndian.absentLength
  have enough : BigEndian.absentLength + 9 ≤
      (List.replicate (BigEndian.absentLength + 9) (170 : UInt8)).length :=
    Nat.le_of_eq List.length_replicate.symm
  refine ⟨⟨size_keyOf _, encode_keyOf (Nat.le_refl _)⟩, sized, ?_⟩
  rw [writeInto_of_le sized enough, layout_valueOf (Nat.le_refl _)]
  simp only [List.length_replicate, List.drop_replicate, List.length_cons, List.length_nil]
  congr 1

end Codec

end Durability
