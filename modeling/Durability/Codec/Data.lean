import Durability.Codec.Checkpoint

/-! The layout of data batches: a four-byte count, the time of the batch where the version
keeps it, and the entries. An entry has a fixed part of 65 bytes beside its key and value. -/

namespace Durability.Codec

def cacheVersionSize : Nat := 4 + 4 + 8

def entryFixedSize : Nat := 4 + 4 + 4 + 1 + cacheVersionSize * 2 + 4 + 8 + 8

def entrySize (entry : DataEntry) : Nat :=
  entryFixedSize + entry.key.length + (entry.value.map List.length).getD 0

def batchSize (version : Version) (batch : DataBatch) : Except Error Nat := do
  countFits 4 batch.entries.length .tooManyEntries
  pure (4 + batch.entries.foldr (entrySize · + ·) 0 + version.timestampSize)

def writeCacheVersion (version : CacheVersion) : Output :=
  .uint32 version.topology ++ .uint32 version.nodeOrder ++ .uint64 version.order

def writeEntry (entry : DataEntry) : Output :=
  .int32 entry.cache ++ .lengthPrefixed (some entry.key) ++ .lengthPrefixed entry.value ++
    .uint8 entry.operation.id ++ writeCacheVersion entry.nearVersion ++
    writeCacheVersion entry.writeVersion ++ .int32 entry.partition ++
    .uint64 entry.partitionCounter ++ .uint64 entry.expireTime

def writeBatch (version : Version) (batch : DataBatch) : Output :=
  .number 4 batch.entries.length ++
    (match version with
      | .v1 => .nil
      | .v2 => .uint64 batch.timestamp) ++
    .concat (batch.entries.map writeEntry)

def readCacheVersion : Reader CacheVersion := do
  let topology ← Reader.uint32
  let nodeOrder ← Reader.uint32
  let order ← Reader.uint64
  pure { topology, nodeOrder, order }

def readEntry : Reader DataEntry := do
  let cache ← Reader.int32
  let key ← Reader.lengthPrefixed
  let key ← Reader.require .entryKeyMissing key
  let value ← Reader.lengthPrefixed
  let operation ← Reader.uint8
  let operation ← Reader.require .unknownOperation (CacheOperation.ofId? operation)
  let nearVersion ← readCacheVersion
  let writeVersion ← readCacheVersion
  let partition ← Reader.int32
  let partitionCounter ← Reader.uint64
  let expireTime ← Reader.uint64
  pure { cache, key, value, operation, nearVersion, writeVersion, partition, partitionCounter,
         expireTime }

/-- A batch. The time that version 1 does not keep is zero. -/
def readBatch (look : LookAhead) (version : Version) : Reader DataBatch := do
  let count ← Reader.number 4
  let timestamp ← match version with
    | .v1 => pure 0
    | .v2 => Reader.uint64
  let entries ← Reader.counted look count entryFixedSize readEntry
  pure { timestamp, entries }

end Durability.Codec
