import Durability.Codec.Payload

/-! Framed records: a payload behind the byte of its kind, so that records can stand one behind
another. `scan` reads such a sequence to its end or to the first record that cannot be read. -/

namespace Durability.Codec

def encodeFramed (version : Version) (record : Record) : Except Error Bytes := do
  let payload ← encode version record
  pure (record.kind.id :: payload)

def readKind : Reader RecordKind := do
  let byte ← Reader.uint8
  Reader.require .unknownKind (RecordKind.ofId? byte)

def readFramed (version : Version) : Reader Record := do
  let kind ← readKind
  read version kind

/-- What reading a sequence of records gave: each record with the number of bytes left unread
behind it, and the failure that ended the sequence early with the bytes left unread by it. -/
structure Scan where
  records : List (Record × Nat)
  failure : Option (Error × Nat)
  deriving DecidableEq

def Scan.cons (record : Record) (unread : Nat) (scan : Scan) : Scan :=
  { scan with records := (record, unread) :: scan.records }

theorem readFramed_shorter {version : Version} {input rest : Bytes} {record : Record}
    (success : (readFramed version).run input = (.ok record, rest)) :
    rest.length < input.length := by
  match input with
  | [] =>
      exfalso
      simp [readFramed, readKind, Reader.run_bind, Reader.uint8, Reader.number, Reader.take,
        Reader.reaches, Except.map] at success
  | byte :: tail =>
      have first : (readFramed version).run (byte :: tail) =
          ((Reader.require .unknownKind (RecordKind.ofId? byte) >>= read version).run tail) := by
        have whole : UInt8.ofNat (BigEndian.read [byte]) = byte := by
          simp [BigEndian.read, BigEndian.readFrom]
        simp only [readFramed, readKind, Reader.run_bind, Reader.uint8, Reader.number,
          Reader.run_map, Reader.take, Reader.reaches, if_true, List.take_succ_cons,
          List.take_zero, List.drop_succ_cons, List.drop_zero, Except.map, whole]
      have kept := (Reader.require .unknownKind (RecordKind.ofId? byte) >>=
        read version).unread_suffix tail
      rw [← first, success] at kept
      exact Nat.lt_succ_of_le kept.length_le

def scan (version : Version) (input : Bytes) : Scan :=
  if input.isEmpty then { records := [], failure := none }
  else
    match _success : (readFramed version).run input with
    | (.ok record, rest) => (scan version rest).cons record rest.length
    | (.error cause, rest) => { records := [], failure := some (cause, rest.length) }
termination_by input.length
decreasing_by exact readFramed_shorter _success

def readEach (version : Version) : (kinds : List RecordKind) → (input : Bytes) → Scan
  | [], _ => { records := [], failure := none }
  | kind :: kinds, input =>
    match (read version kind).run input with
    | (.ok record, rest) => (readEach version kinds rest).cons record rest.length
    | (.error cause, rest) => { records := [], failure := some (cause, rest.length) }

end Durability.Codec
