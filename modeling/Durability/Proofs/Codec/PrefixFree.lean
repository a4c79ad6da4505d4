import Durability.Proofs.Codec.Stable

/-! Reading a record does not depend on what follows it. Whatever was made of a byte string, other
than that it was cut short, is made of every longer one with the bytes added left unread. So a byte
string that is a payload as a whole has no other one in front of it, and is in front of no other. -/

namespace Durability

namespace Reader

variable {α : Type} {reader : Reader α}

/-- What the reader makes of `input` it also makes of `input` with `more` behind it, unless it
failed for want of bytes. -/
structure Lasting (reader : Reader α) (input more : Bytes) : Prop where
  success : ∀ value rest, reader.run input = (.ok value, rest) →
    reader.run (input ++ more) = (.ok value, rest ++ more)
  failure : ∀ cause rest, reader.run input = (.error cause, rest) →
    cause ≠ .corruption .truncated → reader.run (input ++ more) = (.error cause, rest ++ more)

theorem Stable.lasting (stable : reader.Stable) (input more : Bytes) :
    reader.Lasting input more := by
  rcases stable input more with cut | stands
  · constructor
    · intro value rest success
      rw [success] at cut
      cases cut
    · intro cause rest failure known
      rw [failure] at cut
      exact absurd (Except.error.inj cut) known
  · constructor
    · intro value rest success
      rw [stands, success]
    · intro cause rest failure _
      rw [stands, failure]

theorem runAll_eq_ok_iff {input : Bytes} {value : α} :
    reader.runAll input = .ok value ↔ reader.run input = (.ok value, []) := by
  unfold runAll
  split <;> simp_all

theorem Stable.reads (stable : reader.Stable) {input : Bytes} {value : α}
    (whole : reader.run input = (.ok value, [])) : reader.Reads input value :=
  fun rest => (stable.lasting input rest).success value [] whole

theorem Stable.runAll_take (stable : reader.Stable) {input : Bytes} {value : α}
    (accepted : reader.runAll input = .ok value) {count : Nat} (short : count < input.length) :
    reader.runAll (input.take count) = .error (.corruption .truncated) := by
  have cut := stable.truncated (stable.reads (runAll_eq_ok_iff.1 accepted)) short
  cases found : reader.run (input.take count) with
  | mk outcome rest =>
      rw [found] at cut
      cases cut
      rw [runAll, found]

theorem Stable.runAll_append (stable : reader.Stable) {input more : Bytes} {value : α}
    (accepted : reader.runAll input = .ok value) (some : more ≠ []) :
    reader.runAll (input ++ more) = .error (.corruption .trailingBytes) := by
  have front := stable.reads (runAll_eq_ok_iff.1 accepted) more
  cases more with
  | nil => exact absurd rfl some
  | cons byte more => rw [runAll, front]

end Reader

namespace Codec

/-- More input does not change what is read, neither of a payload nor of a frame: a record stands,
with the bytes added behind what it left unread, and so does every failure but that of cut-off
input. So of a byte string that decodes to a record no shorter piece of the front decodes, as it is
cut off, and no longer byte string, as bytes are left over. -/
theorem read_lasting (version : Version) (kind : RecordKind) (input more : Bytes) :
    (read version kind).Lasting input more ∧ (readFramed version).Lasting input more ∧
      (∀ record, decode version kind input = .ok record →
        (∀ count < input.length,
          decode version kind (input.take count) = .error (.corruption .truncated)) ∧
        (more ≠ [] →
          decode version kind (input ++ more) = .error (.corruption .trailingBytes))) ∧
      Corruption.truncated.message = "wal record truncated" ∧
      Corruption.trailingBytes.message = "trailing bytes after wal record" := by
  have stable : (read version kind).Stable := stable_readWith .checked version kind
  refine ⟨stable.lasting input more, (stable_readFramed version).lasting input more, ?_, rfl, rfl⟩
  intro record accepted
  exact ⟨fun count short => stable.runAll_take accepted short, stable.runAll_append accepted⟩

def smallTransaction : Bytes :=
  [5] ++ List.replicate 32 0 ++ [0, 0, 0, 1, 0, 9, 0, 0, 0, 1, 0, 2] ++ List.replicate 8 0

theorem read_lasting_smallTransaction :
    (∃ record, decode .v2 .transaction smallTransaction = .ok record) ∧
      decode .v2 .transaction (smallTransaction.take 52) = .error (.corruption .truncated) ∧
      decode .v2 .transaction (smallTransaction ++ [0, 4, 0, 0, 0, 0]) =
        .error (.corruption .trailingBytes) := by
  have accepted : ∃ record, decode .v2 .transaction smallTransaction = .ok record := ⟨_, rfl⟩
  obtain ⟨record, decoded⟩ := accepted
  obtain ⟨-, -, alone, -⟩ :=
    read_lasting .v2 .transaction smallTransaction [0, 4, 0, 0, 0, 0]
  obtain ⟨shorter, longer⟩ := alone record decoded
  exact ⟨⟨record, decoded⟩, shorter 52 (by decide), longer (List.cons_ne_nil _ _)⟩

end Codec

end Durability
