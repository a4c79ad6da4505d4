import Durability.Bytes.BigEndian
import Durability.Error

/-! What a write leaves behind: the bytes that were put down and, if it stopped early, the
cause. A sequence of writes stops at the first failure and keeps what came before it. -/

namespace Durability

structure Output where
  bytes : Bytes
  failure : Option Error
  deriving DecidableEq, Repr

namespace Output

def nil : Output := ⟨[], none⟩

def ofBytes (bytes : Bytes) : Output := ⟨bytes, none⟩

def fail (cause : Error) : Output := ⟨[], some cause⟩

def append (first second : Output) : Output :=
  match first.failure with
  | some _ => first
  | none => ⟨first.bytes ++ second.bytes, second.failure⟩

instance : Append Output := ⟨append⟩

def concat (items : List Output) : Output := items.foldr append nil

def number (width value : Nat) : Output := ofBytes (BigEndian.write width value)

def uint8 (value : UInt8) : Output := ofBytes [value]

def uint16 (value : UInt16) : Output := number 2 value.toNat

def uint32 (value : UInt32) : Output := number 4 value.toNat

def uint64 (value : UInt64) : Output := number 8 value.toNat

def int32 (value : Int32) : Output := uint32 value.toUInt32

def flag (value : Bool) : Output := uint8 (if value then 1 else 0)

/-- A length of four bytes and the array, or the length that stands for an absent array.
An array as long as that length or longer has no written form. -/
def lengthPrefixed : Option Bytes → Output
  | none => number 4 BigEndian.absentLength
  | some array =>
    if array.length < BigEndian.absentLength then number 4 array.length ++ ofBytes array
    else fail (.excess .byteArrayTooLong)

def lengthPrefixedSize (array : Option Bytes) : Nat := 4 + (array.map List.length).getD 0

def lengthPrefixedText (text : String) : Output :=
  if text.utf8ByteSize < BigEndian.absentLength then
    number 4 text.utf8ByteSize ++ ofBytes text.toByteArray.data.toList
  else fail (.excess .byteArrayTooLong)

def lengthPrefixedTextSize (text : String) : Nat := 4 + text.utf8ByteSize

theorem lengthPrefixedText_eq (text : String) :
    lengthPrefixedText text = lengthPrefixed (some text.toByteArray.data.toList) := by
  rw [lengthPrefixed, Array.length_toList]
  rfl

theorem lengthPrefixedTextSize_eq (text : String) :
    lengthPrefixedTextSize text = lengthPrefixedSize (some text.toByteArray.data.toList) := by
  rw [lengthPrefixedSize, Option.map_some, Array.length_toList]
  rfl

def toExcept (output : Output) : Except Error Bytes :=
  match output.failure with
  | some cause => .error cause
  | none => .ok output.bytes

theorem append_of_ok {first : Output} (fine : first.failure = none) (second : Output) :
    first ++ second = ⟨first.bytes ++ second.bytes, second.failure⟩ := by
  change append first second = _
  simp only [append, fine]

theorem append_of_failed {first : Output} {cause : Error} (failed : first.failure = some cause)
    (second : Output) : first ++ second = first := by
  change append first second = _
  simp only [append, failed]

end Output

end Durability
