import Durability.Codec.Data

/-! The layout of transaction records: the state, two cache versions, the participants behind a
four-byte count, and the time. A participant is its primary node and a counted list of backup
nodes of two bytes each. -/

namespace Durability.Codec

def participantFixedSize : Nat := 2 + 4

def participantsSize (participants : List (UInt16 × List UInt16)) : Except Error Nat := do
  countFits 4 participants.length .tooManyParticipants
  let sizes ← participants.mapM fun participant => do
    countFits 4 participant.2.length .tooManyBackups
    pure (participantFixedSize + 2 * participant.2.length)
  pure (sizes.foldr (· + ·) 0)

def transactionSize (transaction : Transaction) : Except Error Nat := do
  let participants ← participantsSize transaction.participants.entries
  pure (1 + cacheVersionSize * 2 + 4 + 8 + participants)

def writeParticipant (participant : UInt16 × List UInt16) : Output :=
  .uint16 participant.1 ++ .number 4 participant.2.length ++
    .concat (participant.2.map .uint16)

def writeParticipants (participants : List (UInt16 × List UInt16)) : Output :=
  .number 4 participants.length ++ .concat (participants.map writeParticipant)

def writeTransaction (transaction : Transaction) : Output :=
  .uint8 transaction.state.id ++ writeCacheVersion transaction.nearVersion ++
    writeCacheVersion transaction.writeVersion ++
    writeParticipants transaction.participants.entries ++ .uint64 transaction.timestamp

def readParticipant (look : LookAhead) : Reader (UInt16 × List UInt16) := do
  let primary ← Reader.uint16
  let count ← Reader.number 4
  let backups ← Reader.counted look count 2 Reader.uint16
  pure (primary, backups)

def readParticipants (look : LookAhead) : Reader (KeyMap UInt16 (List UInt16)) := do
  let count ← Reader.number 4
  let participants ← Reader.counted look count participantFixedSize (readParticipant look)
  pure (KeyMap.ofList participants)

def readTransaction (look : LookAhead) : Reader Transaction := do
  let state ← Reader.uint8
  let state ← Reader.require .unknownTransactionState (TransactionState.ofId? state)
  let nearVersion ← readCacheVersion
  let writeVersion ← readCacheVersion
  let participants ← readParticipants look
  let timestamp ← Reader.uint64
  pure { state, nearVersion, writeVersion, participants, timestamp }

end Durability.Codec
