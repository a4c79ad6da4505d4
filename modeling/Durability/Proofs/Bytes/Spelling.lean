import Durability.Proofs.Bytes.ReadBack

/-! What a reader took. A reader that succeeds has taken bytes from the front of its input, and here
is said which: what some writer puts down for the value it gave. This is the way back from the round
trip, for any input that is accepted and not only for one that was written. The facts are collected
field by field behind what was already taken, so that they are grouped as the layouts are. -/

namespace Durability

namespace BigEndian

theorem readFrom_div_capacity (leading : Nat) (bytes : Bytes) :
    readFrom leading bytes / capacity bytes.length = leading := by
  induction bytes generalizing leading with
  | nil => exact Nat.div_one leading
  | cons byte bytes ih =>
      have small := byte.toNat_lt
      calc readFrom (leading * 256 + byte.toNat) bytes / (capacity bytes.length * 256)
          = readFrom (leading * 256 + byte.toNat) bytes / capacity bytes.length / 256 :=
            (Nat.div_div_eq_div_mul _ _ _).symm
        _ = (leading * 256 + byte.toNat) / 256 := by rw [ih]
        _ = leading := by omega

theorem write_readFrom (leading : Nat) (bytes : Bytes) :
    write bytes.length (readFrom leading bytes) = bytes := by
  induction bytes generalizing leading with
  | nil => rfl
  | cons byte bytes ih =>
      have number : readFrom leading (byte :: bytes) =
          readFrom (leading * 256 + byte.toNat) bytes := rfl
      have first : UInt8.ofNat (leading * 256 + byte.toNat) = byte := by
        apply UInt8.toNat.inj
        have small := byte.toNat_lt
        rw [UInt8.toNat_ofNat']
        omega
      rw [List.length_cons, write, shiftRight_eq_div_capacity, number, readFrom_div_capacity, first,
        ih]

theorem write_read {width : Nat} {bytes : Bytes} (whole : bytes.length = width) :
    write width (read bytes) = bytes :=
  whole ▸ write_readFrom 0 bytes

theorem read_lt {width : Nat} {bytes : Bytes} (whole : bytes.length = width) :
    read bytes < capacity width := by
  have quotient := readFrom_div_capacity 0 bytes
  rw [whole] at quotient
  exact Nat.lt_of_div_eq_zero (capacity_pos width) quotient

end BigEndian

theorem Output.nil_append (output : Output) : Output.nil ++ output = output := rfl

namespace Reader

open Output

variable {α β : Type}

/-- Whenever the reader succeeds, what was put down before and what it took are together a spelling
of the value it gives. -/
def TakesAfter (before : Output) (reader : Reader α) (spells : α → Output → Prop) : Prop :=
  ∀ input value rest, reader.run input = (.ok value, rest) → before.failure = none →
    ∃ output, spells value output ∧ output.failure = none ∧
      before.bytes ++ input = output.bytes ++ rest

def Takes (reader : Reader α) (spells : α → Output → Prop) : Prop :=
  TakesAfter nil reader spells

def TakesBack (reader : Reader α) (write : α → Output) : Prop :=
  reader.Takes fun value output => output = write value

variable {before : Output} {reader first : Reader α} {next : α → Reader β}
  {part : α → Output → Prop} {spells : β → Output → Prop}

theorem Takes.bind (one : first.Takes part)
    (others : ∀ value output, part value output →
      TakesAfter (before ++ output) (next value) spells) :
    TakesAfter before (first >>= next) spells := by
  intro input result rest success fine
  rw [run_bind] at success
  cases taken : first.run input with
  | mk outcome left =>
      rw [taken] at success
      cases outcome with
      | error cause => cases success
      | ok value =>
          obtain ⟨output, spelled, fineOutput, split⟩ := one input value left taken rfl
          have both := (append_failure before output).2 ⟨fine, fineOutput⟩
          have goesOn := others value output spelled left result rest success both
          rw [append_bytes both, List.append_assoc] at goesOn
          have whole : input = output.bytes ++ left := split
          rwa [whole]

theorem TakesBack.bind {write : α → Output} (one : first.TakesBack write)
    (others : ∀ value, TakesAfter (before ++ write value) (next value) spells) :
    TakesAfter before (first >>= next) spells := by
  apply Takes.bind one
  rintro value output rfl
  exact others value

theorem Takes.mono {other : α → Output → Prop} (takes : reader.Takes part)
    (implies : ∀ value output, part value output → other value output) : reader.Takes other := by
  intro input value rest success fine
  obtain ⟨output, spelled, rest⟩ := takes input value rest success fine
  exact ⟨output, implies value output spelled, rest⟩

theorem TakesBack.each {write : α → Output} (takes : reader.TakesBack write) :
    reader.Takes fun value output => True ∧ output = write value :=
  takes.mono fun _ _ same => ⟨trivial, same⟩

theorem TakesAfter.pure {value : α} (spelled : part value before) :
    TakesAfter before (pure value) part := by
  intro input result rest success fine
  cases success
  exact ⟨before, spelled, fine, rfl⟩

theorem takes_pure (value : α) :
    (Pure.pure value : Reader α).Takes fun given output => given = value ∧ output = nil :=
  TakesAfter.pure ⟨rfl, rfl⟩

theorem TakesAfter.fail {cause : Error} : TakesAfter before (fail cause) part := by
  intro input result rest success
  cases success

theorem TakesAfter.require {cause : Corruption} {found : Option α}
    (others : ∀ value, found = some value → TakesAfter before (next value) spells) :
    TakesAfter before (Reader.require cause found >>= next) spells := by
  cases found with
  | none =>
      intro input result rest success
      cases success
  | some value => exact others value rfl

theorem Takes.map (takes : reader.Takes part) (f : α → β)
    (spelled : ∀ value output, part value output → spells (f value) output) :
    (f <$> reader).Takes spells :=
  Takes.bind takes fun value output found => TakesAfter.pure (spelled value output found)

theorem takes_take (count : Nat) :
    (take count).Takes fun bytes output => bytes.length = count ∧ output = ofBytes bytes := by
  intro input bytes rest success _
  by_cases enough : reaches count input = true
  · simp only [take, enough, if_true] at success
    cases success
    have length : (input.take count).length = count :=
      List.length_take_of_le (reaches_iff.1 enough)
    exact ⟨ofBytes (input.take count), ⟨length, rfl⟩, rfl, (List.take_append_drop count input).symm⟩
  · simp only [take, enough, if_false, Bool.false_eq_true] at success
    cases success

theorem takes_number (width : Nat) :
    (number width).Takes fun value output =>
      value < BigEndian.capacity width ∧ output = Output.number width value := by
  apply (takes_take width).map BigEndian.read
  rintro bytes output ⟨whole, rfl⟩
  refine ⟨BigEndian.read_lt whole, ?_⟩
  rw [Output.number, BigEndian.write_read whole]

theorem takes_uint8 : uint8.TakesBack Output.uint8 := by
  apply (takes_number 1).map UInt8.ofNat
  rintro value output ⟨-, rfl⟩
  rfl

theorem takes_uint16 : uint16.TakesBack Output.uint16 := by
  apply (takes_number 2).map UInt16.ofNat
  rintro value output ⟨fits, rfl⟩
  rw [Output.uint16, UInt16.toNat_ofNat_of_lt' fits]

theorem takes_uint32 : uint32.TakesBack Output.uint32 := by
  apply (takes_number 4).map UInt32.ofNat
  rintro value output ⟨fits, rfl⟩
  rw [Output.uint32, UInt32.toNat_ofNat_of_lt' fits]

theorem takes_uint64 : uint64.TakesBack Output.uint64 := by
  apply (takes_number 8).map UInt64.ofNat
  rintro value output ⟨fits, rfl⟩
  rw [Output.uint64, UInt64.toNat_ofNat_of_lt' fits]

theorem takes_int32 : int32.TakesBack Output.int32 := by
  apply takes_uint32.map UInt32.toInt32
  rintro value output rfl
  rfl

theorem takes_flag :
    flag.Takes fun value output => ∃ byte, value = (byte != 0) ∧ output = Output.uint8 byte := by
  apply takes_uint8.map (· != 0)
  rintro byte output rfl
  exact ⟨byte, rfl, rfl⟩

theorem takes_lengthPrefixed : lengthPrefixed.TakesBack Output.lengthPrefixed := by
  apply (takes_number 4).bind
  rintro length output ⟨fits, rfl⟩
  by_cases absent : length = BigEndian.absentLength
  · rw [if_pos absent, absent]
    exact TakesAfter.pure rfl
  · rw [if_neg absent]
    apply Takes.bind (takes_take length)
    rintro array output ⟨rfl, rfl⟩
    have top : BigEndian.capacity 4 = BigEndian.absentLength + 1 := rfl
    have short : array.length < BigEndian.absentLength := by omega
    exact TakesAfter.pure (lengthPrefixed_of_short short).symm

theorem takes_times {item : Reader α} {write : α → Output} {holds : α → Prop}
    (each : item.Takes fun value output => holds value ∧ output = write value) (count : Nat) :
    (times count item).Takes fun values output =>
      values.length = count ∧ (∀ value ∈ values, holds value) ∧
        output = concat (values.map write) := by
  induction count with
  | zero => exact TakesAfter.pure ⟨rfl, fun value member => absurd member List.not_mem_nil, rfl⟩
  | succ count ih =>
      rw [times_succ]
      apply each.bind
      rintro value output ⟨held, rfl⟩
      apply ih.bind
      rintro values output ⟨rfl, all, rfl⟩
      exact TakesAfter.pure ⟨rfl, List.forall_mem_cons.2 ⟨held, all⟩, rfl⟩

theorem takes_counted {item : Reader α} {write : α → Output} {holds : α → Prop}
    (each : item.Takes fun value output => holds value ∧ output = write value)
    (look : LookAhead) (count width : Nat) :
    (counted look count width item).Takes fun values output =>
      values.length = count ∧ (∀ value ∈ values, holds value) ∧
        output = concat (values.map write) := by
  cases look with
  | unchecked => exact takes_times each count
  | checked =>
      intro input values rest success _
      change (ensure (count * width) >>= fun _ => times count item).run input = _ at success
      rw [run_bind, ensure] at success
      by_cases enough : reaches (count * width) input = true
      · simp only [enough, if_true] at success
        exact takes_times each count input values rest success rfl
      · simp only [enough, if_false, Bool.false_eq_true] at success
        cases success

end Reader

end Durability
