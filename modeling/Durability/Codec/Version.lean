import Durability.Error

/-! The two versions of the record format. Version 2 adds five kinds of records, the length of
a checkpoint mark and the time of a data batch, and no longer writes segment headers. -/

namespace Durability

inductive Version where
  | v1
  | v2
  deriving DecidableEq, Repr

namespace Version

def number : Version → UInt8
  | v1 => 1
  | v2 => 2

def ofNumber (number : UInt8) : Except Error Version :=
  if number = 1 then .ok v1
  else if number = 2 then .ok v2
  else .error (.unknownVersion number)

theorem ofNumber_number (version : Version) : ofNumber version.number = .ok version := by
  cases version <;> rfl

def provides : Version → RecordKind → Bool
  | v1, .transaction | v1, .snapshot | v1, .exchange | v1, .rollback | v1, .pageRepair => false
  | _, _ => true

def markSize : Version → Nat
  | v1 => 12
  | v2 => 16

def timestampSize : Version → Nat
  | v1 => 0
  | v2 => 8

end Version

end Durability
