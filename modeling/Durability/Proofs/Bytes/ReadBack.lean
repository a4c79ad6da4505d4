import Durability.Bytes.Output
import Durability.Bytes.Reader

/-! Writers and readers side by side. `ReadAs` says that a reader takes back exactly the bytes that
a writer put down, whatever follows them, and `HasSize` how many there are. Both are built up field
by field, the way the layouts are written. -/

namespace Durability

namespace Output

theorem append_failure (first second : Output) :
    (first ++ second).failure = none ↔ first.failure = none ∧ second.failure = none := by
  cases stopped : first.failure with
  | none => simp [append_of_ok stopped]
  | some cause => simp [append_of_failed stopped, stopped]

theorem append_bytes {first second : Output} (fine : (first ++ second).failure = none) :
    (first ++ second).bytes = first.bytes ++ second.bytes := by
  rw [append_of_ok ((append_failure first second).1 fine).1]

theorem append_assoc (first second third : Output) :
    first ++ second ++ third = first ++ (second ++ third) := by
  cases stopped : first.failure with
  | some cause =>
      have whole := append_of_failed stopped second
      rw [append_of_failed stopped (second ++ third), whole, append_of_failed stopped third]
  | none =>
      rw [append_of_ok stopped second, append_of_ok stopped (second ++ third)]
      cases later : second.failure with
      | some cause => rw [append_of_failed later third, append_of_failed rfl third, later]
      | none => rw [append_of_ok later third, append_of_ok rfl third, List.append_assoc]

theorem append_nil (output : Output) : output ++ nil = output := by
  cases stopped : output.failure with
  | some cause => exact append_of_failed stopped nil
  | none =>
      rw [append_of_ok stopped nil]
      cases output
      cases stopped
      simp [nil]

theorem concat_cons (output : Output) (outputs : List Output) :
    concat (output :: outputs) = output ++ concat outputs := rfl

theorem lengthPrefixed_of_short {array : Bytes} (short : array.length < BigEndian.absentLength) :
    lengthPrefixed (some array) = number 4 array.length ++ ofBytes array := if_pos short

theorem lengthPrefixed_failure {array : Bytes}
    (fine : (lengthPrefixed (some array)).failure = none) :
    array.length < BigEndian.absentLength := by
  rcases Nat.lt_or_ge array.length BigEndian.absentLength with short | long
  · exact short
  · rw [lengthPrefixed, if_neg (Nat.not_lt.2 long)] at fine
    cases fine

theorem toExcept_eq_ok_iff (output : Output) (bytes : Bytes) :
    output.toExcept = .ok bytes ↔ output.failure = none ∧ output.bytes = bytes := by
  unfold toExcept
  cases output.failure <;> simp

/-- If nothing stops it, the write puts down `size` bytes. -/
def HasSize (output : Output) (size : Nat) : Prop :=
  output.failure = none → output.bytes.length = size

theorem HasSize.append {first second : Output} {size more : Nat} (one : first.HasSize size)
    (other : second.HasSize more) : (first ++ second).HasSize (size + more) := by
  intro fine
  obtain ⟨fineFirst, fineSecond⟩ := (append_failure first second).1 fine
  rw [append_bytes fine, List.length_append, one fineFirst, other fineSecond]

theorem hasSize_number (width value : Nat) : (number width value).HasSize width :=
  fun _ => BigEndian.write_length width value

theorem hasSize_uint8 (value : UInt8) : (uint8 value).HasSize 1 := fun _ => rfl

theorem hasSize_lengthPrefixed (array : Option Bytes) :
    (lengthPrefixed array).HasSize (lengthPrefixedSize array) := by
  cases array with
  | none => exact hasSize_number 4 _
  | some array =>
      intro fine
      have short := lengthPrefixed_failure fine
      rw [lengthPrefixed_of_short short] at fine ⊢
      have whole : (ofBytes array).HasSize array.length := fun _ => rfl
      exact (hasSize_number 4 array.length).append whole fine

theorem hasSize_concat {α : Type} {write : α → Output} {width : Nat} (items : List α)
    (each : ∀ item ∈ items, (write item).HasSize width) :
    (concat (items.map write)).HasSize (width * items.length) := by
  induction items with
  | nil => exact fun _ => rfl
  | cons item items ih =>
      have size := (each item List.mem_cons_self).append
        (ih fun other member => each other (List.mem_cons_of_mem item member))
      rw [List.map_cons, concat_cons, List.length_cons, Nat.mul_add, Nat.mul_one, Nat.add_comm]
      exact size

end Output

namespace Reader

variable {α β : Type}

theorem ext {first second : Reader α} (same : ∀ input, first.run input = second.run input) :
    first = second := by
  cases first
  cases second
  simp only [mk.injEq]
  exact funext same

theorem times_succ (count : Nat) (item : Reader α) :
    times (count + 1) item = (do
      let value ← item
      let values ← times count item
      pure (value :: values)) :=
  ext (run_times_succ count item)

theorem run_bind_of_error {first : Reader α} {next : α → Reader β} {input : Bytes} {cause : Error}
    (failed : (first.run input).1 = .error cause) :
    ((first >>= next).run input).1 = .error cause := by
  rw [run_bind]
  match first.run input, failed with
  | (.error _, _), rfl => rfl

/-- The reader takes exactly these bytes from the front of any input and gives `value`. -/
def Reads (reader : Reader α) (bytes : Bytes) (value : α) : Prop :=
  ∀ rest, reader.run (bytes ++ rest) = (.ok value, rest)

theorem reads_pure (value : α) : (pure value : Reader α).Reads [] value := fun _ => rfl

theorem Reads.bind {reader : Reader α} {next : α → Reader β} {bytes more : Bytes} {value : α}
    {result : β} (first : reader.Reads bytes value) (second : (next value).Reads more result) :
    (reader >>= next).Reads (bytes ++ more) result := by
  intro rest
  rw [List.append_assoc, run_bind, first]
  exact second rest

theorem Reads.map {reader : Reader α} {bytes : Bytes} {value : α}
    (reads : reader.Reads bytes value) (f : α → β) : (f <$> reader).Reads bytes (f value) := by
  intro rest
  rw [run_map, reads]
  rfl

theorem reads_take (bytes : Bytes) : (take bytes.length).Reads bytes bytes := by
  intro rest
  have enough : reaches bytes.length (bytes ++ rest) = true := by
    rw [reaches_iff, List.length_append]
    exact Nat.le_add_right _ _
  simp only [take, enough, if_true, List.take_left, List.drop_left]

theorem reads_number {width value : Nat} (fits : value < BigEndian.capacity width) :
    (number width).Reads (BigEndian.write width value) value := by
  have taken := reads_take (BigEndian.write width value)
  rw [BigEndian.write_length] at taken
  have back := taken.map BigEndian.read
  rwa [BigEndian.read_write, Nat.mod_eq_of_lt fits] at back

end Reader

namespace Output

variable {α β : Type}

def ReadAs (output : Output) (reader : Reader α) (value : α) : Prop :=
  output.failure = none → reader.Reads output.bytes value

theorem readAs_nil (value : α) : nil.ReadAs (pure value) value := fun _ => Reader.reads_pure value

theorem ReadAs.bind {first second : Output} {reader : Reader α} {next : α → Reader β} {value : α}
    {result : β} (one : first.ReadAs reader value) (other : second.ReadAs (next value) result) :
    (first ++ second).ReadAs (reader >>= next) result := by
  intro fine
  obtain ⟨fineFirst, fineSecond⟩ := (append_failure first second).1 fine
  rw [append_bytes fine]
  exact (one fineFirst).bind (other fineSecond)

theorem ReadAs.last {output : Output} {reader : Reader α} {next : α → Reader β} {value : α}
    {result : β} (reads : output.ReadAs reader value) (ends : next value = pure result) :
    output.ReadAs (reader >>= next) result := by
  have nothing : nil.ReadAs (next value) result := by
    rw [ends]
    exact readAs_nil result
  have whole := reads.bind nothing
  rwa [append_nil] at whole

theorem ReadAs.map {output : Output} {reader : Reader α} {value : α}
    (reads : output.ReadAs reader value) (f : α → β) : output.ReadAs (f <$> reader) (f value) :=
  fun fine => (reads fine).map f

theorem readAs_number {width value : Nat} (fits : value < BigEndian.capacity width) :
    (number width value).ReadAs (Reader.number width) value :=
  fun _ => Reader.reads_number fits

theorem readAs_uint8 (value : UInt8) : (uint8 value).ReadAs Reader.uint8 value := by
  have fits : value.toNat < BigEndian.capacity 1 := value.toNat_lt
  have back := (readAs_number fits).map UInt8.ofNat
  have spelled : number 1 value.toNat = uint8 value := by
    simp [number, uint8, BigEndian.write]
  rwa [UInt8.ofNat_toNat, spelled] at back

theorem readAs_uint16 (value : UInt16) : (uint16 value).ReadAs Reader.uint16 value := by
  have fits : value.toNat < BigEndian.capacity 2 := value.toNat_lt
  have back := (readAs_number fits).map UInt16.ofNat
  rwa [UInt16.ofNat_toNat] at back

theorem readAs_uint32 (value : UInt32) : (uint32 value).ReadAs Reader.uint32 value := by
  have fits : value.toNat < BigEndian.capacity 4 := value.toNat_lt
  have back := (readAs_number fits).map UInt32.ofNat
  rwa [UInt32.ofNat_toNat] at back

theorem readAs_uint64 (value : UInt64) : (uint64 value).ReadAs Reader.uint64 value := by
  have fits : value.toNat < BigEndian.capacity 8 := value.toNat_lt
  have back := (readAs_number fits).map UInt64.ofNat
  rwa [UInt64.ofNat_toNat] at back

theorem readAs_int32 (value : Int32) : (int32 value).ReadAs Reader.int32 value :=
  (readAs_uint32 value.toUInt32).map UInt32.toInt32

theorem readAs_flag (value : Bool) : (flag value).ReadAs Reader.flag value := by
  have back := (readAs_uint8 (if value then 1 else 0)).map (· != 0)
  cases value <;> exact back

theorem readAs_lengthPrefixed (array : Option Bytes) :
    (lengthPrefixed array).ReadAs Reader.lengthPrefixed array := by
  cases array with
  | none =>
      have fits : BigEndian.absentLength < BigEndian.capacity 4 := by decide
      exact (readAs_number fits).last (if_pos rfl)
  | some array =>
      intro fine
      have short := lengthPrefixed_failure fine
      have fits : array.length < BigEndian.capacity 4 := Nat.lt_trans short (by decide)
      rw [lengthPrefixed_of_short short] at fine ⊢
      refine ((readAs_number fits).bind ?_) fine
      rw [if_neg (Nat.ne_of_lt short)]
      exact fun _ => (Reader.reads_take array).map some

theorem readAs_times {item : Reader α} {write : α → Output} (values : List α)
    (each : ∀ value ∈ values, (write value).ReadAs item value) :
    (concat (values.map write)).ReadAs (Reader.times values.length item) values := by
  induction values with
  | nil => exact readAs_nil []
  | cons value values ih =>
      rw [List.map_cons, concat_cons, List.length_cons, Reader.times_succ]
      refine (each value List.mem_cons_self).bind ?_
      exact (ih fun other member => each other (List.mem_cons_of_mem value member)).last
        rfl

theorem length_concat_le {width : Nat} {write : α → Output} (values : List α)
    (wide : ∀ value ∈ values, (write value).failure = none → width ≤ (write value).bytes.length)
    (fine : (concat (values.map write)).failure = none) :
    values.length * width ≤ (concat (values.map write)).bytes.length := by
  induction values with
  | nil => simp
  | cons value values ih =>
      rw [List.map_cons, concat_cons] at fine ⊢
      obtain ⟨fineValue, fineValues⟩ := (append_failure _ _).1 fine
      have first := wide value List.mem_cons_self fineValue
      have others := ih (fun other member => wide other (List.mem_cons_of_mem value member))
        fineValues
      rw [append_bytes fine, List.length_append, List.length_cons, Nat.add_mul, Nat.one_mul]
      omega

theorem readAs_counted {item : Reader α} {write : α → Output} (look : LookAhead) (width : Nat)
    (values : List α) (each : ∀ value ∈ values, (write value).ReadAs item value)
    (wide : ∀ value ∈ values, (write value).failure = none →
      width ≤ (write value).bytes.length) :
    (concat (values.map write)).ReadAs (Reader.counted look values.length width item) values := by
  cases look with
  | unchecked => exact readAs_times values each
  | checked =>
      intro fine rest
      have enough : Reader.reaches (values.length * width)
          ((concat (values.map write)).bytes ++ rest) = true := by
        rw [Reader.reaches_iff, List.length_append]
        exact Nat.le_trans (length_concat_le values wide fine) (Nat.le_add_right _ _)
      change (Reader.ensure (values.length * width) >>= fun _ =>
        Reader.times values.length item).run _ = _
      rw [Reader.run_bind]
      simp only [Reader.ensure, enough, if_true]
      exact readAs_times values each fine rest

end Output

end Durability
