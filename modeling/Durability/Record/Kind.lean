/-! The kinds of log records. A kind is written in front of its record as one byte; the bytes
are the same in both format versions and leave gaps for kinds that are no longer written. -/

namespace Durability

inductive RecordKind where
  | transaction
  | data
  | checkpoint
  | header
  | memoryRecovery
  | partitionDestroy
  | switchSegment
  | snapshot
  | exchange
  | rollback
  | metastore
  | pageRepair
  deriving DecidableEq, Repr, Inhabited

namespace RecordKind

def all : List RecordKind :=
  [transaction, data, checkpoint, header, memoryRecovery, partitionDestroy, switchSegment,
    snapshot, exchange, rollback, metastore, pageRepair]

def id : RecordKind → UInt8
  | transaction => 0
  | data => 2
  | checkpoint => 4
  | header => 5
  | memoryRecovery => 9
  | partitionDestroy => 10
  | switchSegment => 11
  | snapshot => 12
  | exchange => 13
  | rollback => 14
  | metastore => 15
  | pageRepair => 16

def ofId? (byte : UInt8) : Option RecordKind := all.find? fun kind => kind.id == byte

theorem ofId?_id (kind : RecordKind) : ofId? kind.id = some kind := by
  cases kind <;> rfl

end RecordKind

end Durability
