import Durability.Record.Kind

/-! The causes for which an operation of the durability layer fails, and their messages.
A cause says what went wrong; the wording is given once, by the `message` functions. -/

namespace Durability

inductive Corruption where
  | truncated
  | trailingBytes
  | unknownKind
  | unknownOperation
  | unknownExchange
  | unknownTransactionState
  | headerMagic
  | metastoreKeyMissing
  | metastoreKeyText
  | entryKeyMissing
  deriving DecidableEq, Repr

inductive Excess where
  | roomTooSmall
  | byteArrayTooLong
  | tooManyEntries
  | tooManyGroups
  | tooManyPartitions
  | tooManyParticipants
  | tooManyBackups
  | unboundedArchive
  deriving DecidableEq, Repr

inductive Refusal where
  | kindNeedsVersion2 (kind : RecordKind)
  | headerWriting
  deriving DecidableEq, Repr

inductive Error where
  | io (text : String)
  | corruption (cause : Corruption)
  | excess (cause : Excess)
  | unknownVersion (number : UInt8)
  | rejected (text : String)
  | interrupted (activity : String)
  | unsupported (cause : Refusal)
  deriving DecidableEq, Repr

def Corruption.message : Corruption → String
  | truncated => "wal record truncated"
  | trailingBytes => "trailing bytes after wal record"
  | unknownKind => "unknown wal record type"
  | unknownOperation => "unknown cache operation"
  | unknownExchange => "unknown exchange type"
  | unknownTransactionState => "unknown transaction state"
  | headerMagic => "wal segment header magic mismatch"
  | metastoreKeyMissing => "metastore record without key"
  | metastoreKeyText => "metastore key is not utf-8"
  | entryKeyMissing => "data entry without key"

def Excess.message : Excess → String
  | roomTooSmall => "output buffer smaller than record size"
  | byteArrayTooLong => "byte array too long for length prefix"
  | tooManyEntries => "too many data entries"
  | tooManyGroups => "too many cache groups in checkpoint record"
  | tooManyPartitions => "too many partitions in cache state"
  | tooManyParticipants => "too many tx participants"
  | tooManyBackups => "too many tx backup nodes"
  | unboundedArchive => "archive cleaner requires a bounded wal archive"

def Refusal.message : Refusal → String
  | kindNeedsVersion2 .snapshot => "snapshot records require serializer version 2"
  | kindNeedsVersion2 .exchange => "exchange records require serializer version 2"
  | kindNeedsVersion2 .transaction => "tx records require serializer version 2"
  | kindNeedsVersion2 .rollback => "rollback records require serializer version 2"
  | kindNeedsVersion2 _ => "record type requires serializer version 2"
  | headerWriting => "writing header records is forbidden since serializer version 2"

namespace Error

def message : Error → String
  | io text => "IO: " ++ text
  | corruption cause => "corruption: " ++ cause.message
  | excess cause => "invalid argument: " ++ cause.message
  | unknownVersion number =>
      "invalid argument: unsupported wal serializer version " ++ toString number.toNat
  | rejected text => "invalid argument: " ++ text
  | interrupted activity => "interrupted: " ++ activity
  | unsupported cause => "unsupported operation: " ++ cause.message

def isInterrupted : Error → Bool
  | interrupted _ => true
  | _ => false

def sizeWaitInterrupted : Error :=
  .interrupted "waiting for the wal archive to exceed its maximum size"

end Error

end Durability
