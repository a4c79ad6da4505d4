import Durability.Codec.Transaction

/-! Records as payloads. `size` is the exact length of a payload, `write` puts it down, and
`read` takes one of a given kind from the front of a byte string. The size is computed on its
own, from counts and lengths alone, so that room can be set aside before anything is written. -/

namespace Durability.Codec

def headerMagic : Nat := 0x57414C44454E5F31

def payloadSize (version : Version) : Record → Except Error Nat
  | .transaction transaction => transactionSize transaction
  | .data batch => batchSize version batch
  | .checkpoint checkpoint => checkpointSize version checkpoint
  | .header _ => pure (8 + 4)
  | .memoryRecovery _ => pure 8
  | .partitionDestroy _ _ => pure (4 + 4)
  | .switchSegment => pure 0
  | .snapshot _ => pure (8 + 1)
  | .exchange _ => pure (4 + 2 + 8)
  | .rollback _ => pure (4 + 4 + 8 + 8)
  | .metastore entry =>
    pure (Output.lengthPrefixedTextSize entry.key + Output.lengthPrefixedSize entry.value)
  | .pageRepair _ => pure (4 + 8)

def size (version : Version) (record : Record) : Except Error Nat :=
  if version.provides record.kind then payloadSize version record
  else .error (.unsupported (.kindNeedsVersion2 record.kind))

/-- The bytes of a record whose size is known. Only an overlong byte array, and in version 2 a
segment header, can stop it. -/
def layout (version : Version) : Record → Output
  | .transaction transaction => writeTransaction transaction
  | .data batch => writeBatch version batch
  | .checkpoint checkpoint => writeCheckpoint version checkpoint
  | .header number =>
    match version with
    | .v1 => .number 8 headerMagic ++ .uint32 number
    | .v2 => .fail (.unsupported .headerWriting)
  | .memoryRecovery timestamp => .uint64 timestamp
  | .partitionDestroy group partition => .int32 group ++ .int32 partition
  | .switchSegment => .nil
  | .snapshot snapshot => .uint64 snapshot.id ++ .flag snapshot.full
  | .exchange exchange =>
    .int32 exchange.kind.ordinal ++ .uint16 exchange.node ++ .uint64 exchange.timestamp
  | .rollback rollback =>
    .int32 rollback.group ++ .int32 rollback.partition ++ .uint64 rollback.start ++
      .uint64 rollback.range
  | .metastore entry => .lengthPrefixedText entry.key ++ .lengthPrefixed entry.value
  | .pageRepair repair => .int32 repair.group ++ .uint64 repair.page

def write (version : Version) (record : Record) : Output :=
  match size version record with
  | .ok _ => layout version record
  | .error cause => .fail cause

def writeWithin (room : Nat) (version : Version) (record : Record) : Output :=
  match size version record with
  | .ok size => if room < size then .fail (.excess .roomTooSmall) else layout version record
  | .error cause => .fail cause

/-- A destination after a write: its bytes, how many of them are still free, and why the write
failed if it did. -/
structure Filled where
  buffer : Bytes
  room : Nat
  failure : Option Error
  deriving DecidableEq, Repr

def writeInto (version : Version) (record : Record) (destination : Bytes) : Filled :=
  let output := writeWithin destination.length version record
  { buffer := output.bytes ++ destination.drop output.bytes.length
    room := destination.length - output.bytes.length
    failure := output.failure }

def readHeader : Reader Record := do
  let magic ← Reader.number 8
  if magic = headerMagic then Record.header <$> Reader.uint32
  else Reader.fail (.corruption .headerMagic)

def readPartitionDestroy : Reader Record := do
  let group ← Reader.int32
  let partition ← Reader.int32
  pure (.partitionDestroy group partition)

def readSnapshot : Reader Snapshot := do
  let id ← Reader.uint64
  let full ← Reader.uint8
  pure { id, full := full == 1 }

def readExchange : Reader Exchange := do
  let ordinal ← Reader.int32
  let kind ← Reader.require .unknownExchange (ExchangeKind.ofOrdinal? ordinal)
  let node ← Reader.uint16
  let timestamp ← Reader.uint64
  pure { kind, node, timestamp }

def readRollback : Reader Rollback := do
  let group ← Reader.int32
  let partition ← Reader.int32
  let start ← Reader.uint64
  let range ← Reader.uint64
  pure { group, partition, start, range }

def readMetastore : Reader MetastoreEntry := do
  let key ← Reader.lengthPrefixed
  let key ← Reader.require .metastoreKeyMissing key
  let key ← Reader.require .metastoreKeyText (String.fromUTF8? key.toByteArray)
  let value ← Reader.lengthPrefixed
  pure { key, value }

def readPageRepair : Reader PageRepair := do
  let group ← Reader.int32
  let page ← Reader.uint64
  pure { group, page }

def readPayload (look : LookAhead) (version : Version) : RecordKind → Reader Record
  | .transaction => .transaction <$> readTransaction look
  | .data => .data <$> readBatch look version
  | .checkpoint => .checkpoint <$> readCheckpoint look version
  | .header => readHeader
  | .memoryRecovery => .memoryRecovery <$> Reader.uint64
  | .partitionDestroy => readPartitionDestroy
  | .switchSegment => pure .switchSegment
  | .snapshot => .snapshot <$> readSnapshot
  | .exchange => .exchange <$> readExchange
  | .rollback => .rollback <$> readRollback
  | .metastore => .metastore <$> readMetastore
  | .pageRepair => .pageRepair <$> readPageRepair

def readWith (look : LookAhead) (version : Version) (kind : RecordKind) : Reader Record :=
  if version.provides kind then readPayload look version kind
  else Reader.fail (.unsupported (.kindNeedsVersion2 kind))

def read (version : Version) (kind : RecordKind) : Reader Record :=
  readWith .checked version kind

def encode (version : Version) (record : Record) : Except Error Bytes :=
  (write version record).toExcept

def decode (version : Version) (kind : RecordKind) (payload : Bytes) : Except Error Record :=
  (read version kind).runAll payload

end Durability.Codec
