import Durability.Bytes.Output
import Durability.Bytes.Reader
import Durability.Codec.Version
import Durability.Record.Basic

/-! The layout of checkpoint records: the identifier, a flag and the mark it announces, the
cache groups behind a two-byte count, and the flag that tells the end record from the first.
Each group has its own two-byte count of partitions of nineteen bytes. -/

namespace Durability.Codec

def partitionSize : Nat := 2 + 8 + 8 + 1

def countFits (width count : Nat) (cause : Excess) : Except Error Unit :=
  if count < BigEndian.capacity width then .ok () else .error (.excess cause)

def groupsSize (groups : List (Int32 × List PartitionState)) : Except Error Nat := do
  countFits 2 groups.length .tooManyGroups
  let sizes ← groups.mapM fun group => do
    countFits 2 group.2.length .tooManyPartitions
    pure (4 + 2 + partitionSize * group.2.length)
  pure (2 + sizes.foldr (· + ·) 0)

def checkpointSize (version : Version) (checkpoint : Checkpoint) : Except Error Nat := do
  let groups ← groupsSize checkpoint.groups.entries
  let mark := if checkpoint.mark.isSome then version.markSize else 0
  pure (18 + groups + mark)

def writePartition (state : PartitionState) : Output :=
  .uint16 state.partition ++ .uint64 state.size ++ .uint64 state.updateCounter ++
    .uint8 state.state

def writeGroup (group : Int32 × List PartitionState) : Output :=
  .int32 group.1 ++ .number 2 group.2.length ++ .concat (group.2.map writePartition)

def writeGroups (groups : List (Int32 × List PartitionState)) : Output :=
  .number 2 groups.length ++ .concat (groups.map writeGroup)

def writeMark (version : Version) : Option LogPointer → Output
  | none => .flag false
  | some pointer =>
    .flag true ++ .uint64 pointer.segment ++ .uint32 pointer.offset ++
      match version with
      | .v1 => .nil
      | .v2 => .uint32 pointer.length

def writeCheckpoint (version : Version) (checkpoint : Checkpoint) : Output :=
  .uint64 checkpoint.id.high ++ .uint64 checkpoint.id.low ++
    writeMark version checkpoint.mark ++ writeGroups checkpoint.groups.entries ++
    .flag checkpoint.isEnd

def readPartition : Reader PartitionState := do
  let partition ← Reader.uint16
  let size ← Reader.uint64
  let updateCounter ← Reader.uint64
  let state ← Reader.uint8
  pure { partition, size, updateCounter, state }

def readGroup (look : LookAhead) : Reader (Int32 × List PartitionState) := do
  let group ← Reader.int32
  let count ← Reader.number 2
  let partitions ← Reader.counted look count partitionSize readPartition
  pure (group, partitions)

/-- A block of cache groups. A group that occurs again replaces the earlier one. -/
def readGroups (look : LookAhead) : Reader (KeyMap Int32 (List PartitionState)) := do
  let count ← Reader.number 2
  let groups ← Reader.times count (readGroup look)
  pure (KeyMap.ofList groups)

/-- The mark behind its flag. What version 1 does not keep of a pointer is zero. -/
def readMark (version : Version) : Reader (Option LogPointer) := do
  if ← Reader.flag then
    let segment ← Reader.uint64
    let offset ← Reader.uint32
    let length ← match version with
      | .v1 => pure 0
      | .v2 => Reader.uint32
    pure (some { segment, offset, length })
  else pure none

def readCheckpoint (look : LookAhead) (version : Version) : Reader Checkpoint := do
  let high ← Reader.uint64
  let low ← Reader.uint64
  let mark ← readMark version
  let groups ← readGroups look
  let isEnd ← Reader.flag
  pure { id := { high, low }, mark, groups, isEnd }

end Durability.Codec
