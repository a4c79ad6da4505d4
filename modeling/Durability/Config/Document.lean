import Durability.Config.Value

/-! A configuration document in the TOML format: definitions at the top, and sections that headers
begin. A header in single brackets names the table that its section defines; one in double
brackets adds a table to those that repeat under a name. -/

namespace Durability.Config

open TextReader

structure Header where
  /-- Whether the section adds a table to those that repeat. -/
  repeats : Bool
  path : List String
  key : String
  deriving DecidableEq, Repr

structure Part where
  header : Header
  definitions : List Definition

namespace Entries

/-- The document with a section added. Its table may be there already if only headers of tables
within it came before; it then moves to the end. Tables that repeat stay in their place. -/
def addPart? (document : Entries) (part : Part) : Option Entries :=
  document.alter? .header
    (fun _ entries =>
      let key := part.header.key
      if part.header.repeats then
        match entries.lookup key with
        | none => do
          let added ← defineAll? [] .dotted part.definitions
          entries.insert? key (.tables [added])
        | some (.tables items) => do
          let added ← defineAll? [] .dotted part.definitions
          some (entries.replace key (.tables (items ++ [added])))
        | some _ => none
      else
        match entries.lookup key with
        | none => do
          let defined ← defineAll? [] .dotted part.definitions
          entries.insert? key (.table .header defined)
        | some (.table .implied inner) => do
          let defined ← defineAll? inner .dotted part.definitions
          (entries.erase key).insert? key (.table .header defined)
        | some _ => none)
    part.header.path .header

end Entries

def definitionLine : TextReader Definition := do
  blanks
  let defined ← definition (value nestingRoom)
  lineEnd
  pure defined

def emptyLine : TextReader Unit := do
  blanks
  newline <|> do
    comment
    newline <|> atEnd

def header : TextReader Header := do
  blanks
  let found ←
    (do word ['[', '[']
        let (path, key) ← key
        word [']', ']']
        pure { repeats := true, path, key : Header }) <|>
    (do exactly '['
        let (path, key) ← key
        exactly ']'
        pure { repeats := false, path, key : Header })
  lineEnd
  pure found

def definitions : TextReader (List Definition) := do
  let lines ← many ((some <$> definitionLine) <|> do
    emptyLine
    pure none)
  pure (lines.filterMap id)

def part : TextReader Part := do
  let header ← header
  let definitions ← definitions
  pure { header, definitions }

def byteOrderMark : Char := '\ufeff'

def parts : TextReader (List Definition × List Part) := do
  skip (exactly byteOrderMark)
  let top ← definitions
  let parts ← many part
  blanks
  atEnd
  pure (top, parts)

def Entries.ofText? (text : String) : Option Entries := do
  let ((top, parts), _) ← parts text.toList
  let document ← Entries.defineAll? [] .dotted top
  parts.foldlM Entries.addPart? document

end Durability.Config
