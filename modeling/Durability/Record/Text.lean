import Durability.Record.Basic

/-! The text of identifiers, hexadecimal with all digits of their width, and the names under which
kinds, operations and states are shown. -/

namespace Durability

def hexDigit (value : Nat) : Char :=
  if value < 10 then Char.ofNat (48 + value) else Char.ofNat (87 + value)

def hexDigits : (width : Nat) → (value : Nat) → List Char
  | 0, _ => []
  | width + 1, value => hexDigit (value >>> (4 * width) % 16) :: hexDigits width value

def pageIdText (page : UInt64) : String := "0x" ++ String.ofList (hexDigits 16 page.toNat)

def CheckpointId.text (id : CheckpointId) : String :=
  String.ofList (hexDigits 16 id.high.toNat ++ hexDigits 16 id.low.toNat)

def RecordKind.name : RecordKind → String
  | .transaction => "Tx"
  | .data => "Data"
  | .checkpoint => "Checkpoint"
  | .header => "Header"
  | .memoryRecovery => "MemoryRecovery"
  | .partitionDestroy => "PartitionDestroy"
  | .switchSegment => "SwitchSegment"
  | .snapshot => "Snapshot"
  | .exchange => "Exchange"
  | .rollback => "RollbackTx"
  | .metastore => "MetastoreData"
  | .pageRepair => "TrackingPageRepairDelta"

def CacheOperation.name : CacheOperation → String
  | .create => "Create"
  | .update => "Update"
  | .delete => "Delete"
  | .read => "Read"
  | .transform => "Transform"
  | .noop => "Noop"

def TransactionState.name : TransactionState → String
  | .active => "Active"
  | .preparing => "Preparing"
  | .prepared => "Prepared"
  | .markedRollback => "MarkedRollback"
  | .committing => "Committing"
  | .committed => "Committed"
  | .rollingBack => "RollingBack"
  | .rolledBack => "RolledBack"
  | .unknown => "Unknown"

def ExchangeKind.name : ExchangeKind → String
  | .join => "Join"
  | .left => "Left"

end Durability
