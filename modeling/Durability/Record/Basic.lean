import Durability.KeyMap
import Durability.Bytes.BigEndian
import Durability.Record.Kind

/-! Log records as plain values. How they are laid out in bytes is the business of the codec;
here a record is what it says: a checkpoint with the partition states it covers, a batch of
data changes, a transaction and its participants, and so on. -/

namespace Durability

/-- The position of a record in the log. A length of zero means that it is not known. -/
structure LogPointer where
  segment : UInt64
  offset : UInt32
  length : UInt32
  deriving DecidableEq, Repr

def LogPointer.le (first second : LogPointer) : Bool :=
  if first.segment = second.segment then
    if first.offset = second.offset then first.length ≤ second.length
    else first.offset < second.offset
  else first.segment < second.segment

def LogPointer.sort (pointers : List LogPointer) : List LogPointer :=
  pointers.mergeSort LogPointer.le

structure CheckpointId where
  high : UInt64
  low : UInt64
  deriving DecidableEq, Repr

structure PartitionState where
  partition : UInt16
  size : UInt64
  updateCounter : UInt64
  state : UInt8
  deriving DecidableEq, Repr

/-- A checkpoint marker: where in the log it stands, and for each cache group the states of
its partitions in the order in which they were added. -/
structure Checkpoint where
  id : CheckpointId
  mark : Option LogPointer
  groups : KeyMap Int32 (List PartitionState)
  isEnd : Bool
  deriving DecidableEq

structure CacheVersion where
  topology : UInt32
  nodeOrder : UInt32
  order : UInt64
  deriving DecidableEq, Repr

inductive CacheOperation where
  | read
  | create
  | update
  | delete
  | transform
  | noop
  deriving DecidableEq, Repr

namespace CacheOperation

def all : List CacheOperation := [read, create, update, delete, transform, noop]

def id : CacheOperation → UInt8
  | read => 0
  | create => 1
  | update => 2
  | delete => 3
  | transform => 4
  | noop => 5

def ofId? (byte : UInt8) : Option CacheOperation := all.find? fun operation => operation.id == byte

end CacheOperation

structure DataEntry where
  cache : Int32
  key : Bytes
  value : Option Bytes
  operation : CacheOperation
  nearVersion : CacheVersion
  writeVersion : CacheVersion
  partition : Int32
  partitionCounter : UInt64
  expireTime : UInt64
  deriving DecidableEq, Repr

structure DataBatch where
  timestamp : UInt64
  entries : List DataEntry
  deriving DecidableEq, Repr

structure Snapshot where
  id : UInt64
  full : Bool
  deriving DecidableEq, Repr

inductive ExchangeKind where
  | join
  | left
  deriving DecidableEq, Repr

namespace ExchangeKind

def ordinal : ExchangeKind → Int32
  | join => 0
  | left => 1

def ofOrdinal? (ordinal : Int32) : Option ExchangeKind :=
  [join, left].find? fun kind => kind.ordinal == ordinal

end ExchangeKind

structure Exchange where
  kind : ExchangeKind
  node : UInt16
  timestamp : UInt64
  deriving DecidableEq, Repr

inductive TransactionState where
  | active
  | preparing
  | prepared
  | markedRollback
  | committing
  | committed
  | rollingBack
  | rolledBack
  | unknown
  deriving DecidableEq, Repr

namespace TransactionState

def all : List TransactionState :=
  [active, preparing, prepared, markedRollback, committing, committed, rollingBack, rolledBack,
    unknown]

def id : TransactionState → UInt8
  | active => 0
  | preparing => 1
  | prepared => 2
  | markedRollback => 3
  | committing => 4
  | committed => 5
  | rollingBack => 6
  | rolledBack => 7
  | unknown => 8

def ofId? (byte : UInt8) : Option TransactionState := all.find? fun state => state.id == byte

end TransactionState

structure Transaction where
  state : TransactionState
  nearVersion : CacheVersion
  writeVersion : CacheVersion
  participants : KeyMap UInt16 (List UInt16)
  timestamp : UInt64
  deriving DecidableEq

structure Rollback where
  group : Int32
  partition : Int32
  start : UInt64
  range : UInt64
  deriving DecidableEq, Repr

structure PageRepair where
  group : Int32
  page : UInt64
  deriving DecidableEq, Repr

structure MetastoreEntry where
  key : String
  value : Option Bytes
  deriving DecidableEq, Repr

inductive Record where
  | transaction (transaction : Transaction)
  | data (batch : DataBatch)
  | checkpoint (checkpoint : Checkpoint)
  | header (version : UInt32)
  | memoryRecovery (timestamp : UInt64)
  | partitionDestroy (group partition : Int32)
  | switchSegment
  | snapshot (snapshot : Snapshot)
  | exchange (exchange : Exchange)
  | rollback (rollback : Rollback)
  | metastore (entry : MetastoreEntry)
  | pageRepair (repair : PageRepair)
  deriving DecidableEq

def Record.kind : Record → RecordKind
  | transaction _ => .transaction
  | data _ => .data
  | checkpoint _ => .checkpoint
  | header _ => .header
  | memoryRecovery _ => .memoryRecovery
  | partitionDestroy _ _ => .partitionDestroy
  | switchSegment => .switchSegment
  | snapshot _ => .snapshot
  | exchange _ => .exchange
  | rollback _ => .rollback
  | metastore _ => .metastore
  | pageRepair _ => .pageRepair

theorem CacheOperation.ofId?_id (operation : CacheOperation) :
    ofId? operation.id = some operation := by
  cases operation <;> rfl

theorem ExchangeKind.ofOrdinal?_ordinal (kind : ExchangeKind) :
    ofOrdinal? kind.ordinal = some kind := by
  cases kind <;> rfl

theorem TransactionState.ofId?_id (state : TransactionState) : ofId? state.id = some state := by
  cases state <;> rfl

end Durability
