/-! Numbers as bytes, most significant byte first. Writing `width` bytes keeps the remainder of a
number by how many numbers they can spell, and reading them back gives that remainder. -/

namespace Durability

abbrev Bytes := List UInt8

namespace BigEndian

def capacity : (width : Nat) → Nat
  | 0 => 1
  | width + 1 => capacity width * 256

theorem capacity_pos (width : Nat) : 0 < capacity width := by
  induction width with
  | zero => decide
  | succ width ih => exact Nat.mul_pos ih (by decide)

theorem shiftRight_eq_div_capacity (width value : Nat) :
    value >>> (8 * width) = value / capacity width := by
  induction width with
  | zero => simp [capacity]
  | succ width ih =>
      have split : 8 * (width + 1) = 8 * width + 8 := by omega
      rw [split, Nat.shiftRight_add, ih, capacity, ← Nat.div_div_eq_div_mul,
        Nat.shiftRight_eq_div_pow]

def write : (width : Nat) → (value : Nat) → Bytes
  | 0, _ => []
  | width + 1, value => UInt8.ofNat (value >>> (8 * width)) :: write width value

/-- The length of four bytes that is written in place of a byte array that is absent. -/
def absentLength : Nat := 0xffffffff

def readFrom (leading : Nat) (bytes : Bytes) : Nat :=
  bytes.foldl (fun number byte => number * 256 + byte.toNat) leading

def read (bytes : Bytes) : Nat := readFrom 0 bytes

@[simp] theorem write_length (width value : Nat) : (write width value).length = width := by
  induction width with
  | zero => rfl
  | succ width ih => simp [write, ih]

theorem readFrom_write (width value leading : Nat) :
    readFrom leading (write width value) =
      leading * capacity width + value % capacity width := by
  induction width generalizing leading with
  | zero => simp [write, readFrom, capacity, Nat.mod_one]
  | succ width ih =>
      have step : readFrom leading (write (width + 1) value) =
          readFrom (leading * 256 + value / capacity width % 256) (write width value) := by
        simp [write, readFrom, shiftRight_eq_div_capacity]
      rw [step, ih, capacity, Nat.mod_mul]
      grind

theorem read_write (width value : Nat) : read (write width value) = value % capacity width := by
  simp [read, readFrom_write]

end BigEndian

end Durability
