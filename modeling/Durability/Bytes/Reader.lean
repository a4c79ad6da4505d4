import Durability.Bytes.BigEndian
import Durability.Error

/-! Reading from the front of a byte string. A reader gives a value or a cause of failure and,
either way, the bytes it left unread, which are always a suffix of what it was given. A read
of fixed width that finds too few bytes fails without consuming any. -/

namespace Durability

/-- A step that reads from the front of a byte string. -/
structure Reader (α : Type) where
  run : Bytes → Except Error α × Bytes
  unread_suffix : ∀ input, (run input).2 <:+ input

/-- Whether a count taken from the input is checked against the bytes that remain before
the counted items are read. -/
inductive LookAhead where
  | checked
  | unchecked
  deriving DecidableEq, Repr

namespace Reader

variable {α β : Type}

protected def pure (value : α) : Reader α where
  run input := (.ok value, input)
  unread_suffix input := List.suffix_refl input

protected def bind (first : Reader α) (next : α → Reader β) : Reader β where
  run input :=
    match first.run input with
    | (.ok value, rest) => (next value).run rest
    | (.error cause, rest) => (.error cause, rest)
  unread_suffix input := by
    have kept := first.unread_suffix input
    match first.run input, kept with
    | (.ok value, rest), kept => exact ((next value).unread_suffix rest).trans kept
    | (.error _, _), kept => exact kept

instance : Monad Reader where
  pure := Reader.pure
  bind := Reader.bind

theorem run_bind (first : Reader α) (next : α → Reader β) (input : Bytes) :
    (first >>= next).run input =
      match first.run input with
      | (.ok value, rest) => (next value).run rest
      | (.error cause, rest) => (.error cause, rest) := rfl

@[simp] theorem run_map (f : α → β) (reader : Reader α) (input : Bytes) :
    (f <$> reader).run input =
      ((reader.run input).1.map f, (reader.run input).2) := by
  change (reader >>= fun value => pure (f value)).run input = _
  rw [run_bind]
  match reader.run input with
  | (.ok _, _) => rfl
  | (.error _, _) => rfl

def fail (cause : Error) : Reader α where
  run input := (.error cause, input)
  unread_suffix input := List.suffix_refl input

def require (cause : Corruption) : Option α → Reader α
  | some value => pure value
  | none => fail (.corruption cause)

def reaches : (count : Nat) → (input : Bytes) → Bool
  | 0, _ => true
  | _ + 1, [] => false
  | count + 1, _ :: rest => reaches count rest

theorem reaches_iff {count : Nat} {input : Bytes} :
    reaches count input = true ↔ count ≤ input.length := by
  induction input generalizing count with
  | nil => cases count <;> simp [reaches]
  | cons _ rest ih => cases count <;> simp [reaches, ih]

def ensure (count : Nat) : Reader Unit where
  run input :=
    if reaches count input then (.ok (), input) else (.error (.corruption .truncated), input)
  unread_suffix input := by
    split <;> exact List.suffix_refl input

def take (count : Nat) : Reader Bytes where
  run input :=
    if reaches count input then (.ok (input.take count), input.drop count)
    else (.error (.corruption .truncated), input)
  unread_suffix input := by
    split
    · exact List.drop_suffix count input
    · exact List.suffix_refl input

def number (width : Nat) : Reader Nat := BigEndian.read <$> take width

def uint8 : Reader UInt8 := UInt8.ofNat <$> number 1

def uint16 : Reader UInt16 := UInt16.ofNat <$> number 2

def uint32 : Reader UInt32 := UInt32.ofNat <$> number 4

def uint64 : Reader UInt64 := UInt64.ofNat <$> number 8

def int32 : Reader Int32 := UInt32.toInt32 <$> uint32

def int64 : Reader Int64 := UInt64.toInt64 <$> uint64

def flag : Reader Bool := (· != 0) <$> uint8

def lengthPrefixed : Reader (Option Bytes) := do
  let length ← number 4
  if length = BigEndian.absentLength then pure none else some <$> take length

private def collect (item : Reader α) :
    (count : Nat) → (found : List α) → (input : Bytes) → Except Error (List α) × Bytes
  | 0, found, input => (.ok found.reverse, input)
  | count + 1, found, input =>
    match item.run input with
    | (.ok value, rest) => collect item count (value :: found) rest
    | (.error cause, rest) => (.error cause, rest)

private theorem collect_suffix (item : Reader α) (count : Nat) (found : List α)
    (input : Bytes) : (collect item count found input).2 <:+ input := by
  induction count generalizing found input with
  | zero => exact List.suffix_refl input
  | succ count ih =>
      have kept := item.unread_suffix input
      unfold collect
      match item.run input, kept with
      | (.ok value, rest), kept => exact (ih (value :: found) rest).trans kept
      | (.error _, _), kept => exact kept

private theorem collect_found (item : Reader α) (count : Nat) (found : List α)
    (input : Bytes) :
    collect item count found input =
      ((collect item count [] input).1.map (found.reverse ++ ·),
        (collect item count [] input).2) := by
  induction count generalizing found input with
  | zero => simp [collect, Except.map]
  | succ count ih =>
      unfold collect
      match item.run input with
      | (.ok value, rest) =>
          simp only
          rw [ih (value :: found) rest, ih [value] rest]
          cases (collect item count [] rest).1 <;> simp [Except.map]
      | (.error _, _) => rfl

def times (count : Nat) (item : Reader α) : Reader (List α) where
  run input := collect item count [] input
  unread_suffix input := collect_suffix item count [] input

theorem run_times_succ (count : Nat) (item : Reader α) (input : Bytes) :
    (times (count + 1) item).run input =
      (do let value ← item
          let values ← times count item
          pure (value :: values) : Reader (List α)).run input := by
  change collect item (count + 1) [] input = _
  rw [collect, run_bind]
  match item.run input with
  | (.ok value, rest) =>
      simp only
      have repeated : (times count item).run rest = collect item count [] rest := rfl
      rw [collect_found, run_bind, repeated]
      match collect item count [] rest with
      | (.ok _, _) => rfl
      | (.error _, _) => rfl
  | (.error _, _) => rfl

/-- `count` items in a row, each of at least `width` bytes. With look-ahead a count that the
remaining bytes cannot hold is refused before the first item. -/
def counted (look : LookAhead) (count width : Nat) (item : Reader α) : Reader (List α) := do
  if look = .checked then ensure (count * width)
  times count item

def runAll (reader : Reader α) (input : Bytes) : Except Error α :=
  match reader.run input with
  | (.ok value, []) => .ok value
  | (.ok _, _ :: _) => .error (.corruption .trailingBytes)
  | (.error cause, _) => .error cause

end Reader

end Durability
