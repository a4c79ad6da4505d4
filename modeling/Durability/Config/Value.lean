import Durability.Config.Node
import Durability.Config.Number

/-! Keys and values. Arrays and braces lie at most so deep in one another that the room for
nesting lasts. -/

namespace Durability.Config

open TextReader

structure Definition where
  path : List String
  key : String
  node : Node

def Entries.defineAll? (entries : Entries) (route : Route) (definitions : List Definition) :
    Option Entries :=
  definitions.foldlM
    (fun entries definition =>
      entries.define? route definition.path definition.key definition.node)
    entries

def isKeyCharacter (character : Char) : Bool :=
  isDigit character ∨ 'a' ≤ character ∧ character ≤ 'z' ∨ 'A' ≤ character ∧ character ≤ 'Z' ∨
    character = '_' ∨ character = '-'

def keyPart : TextReader String := do
  blanks
  let part ← lineText <|> do
    let characters ← someRun isKeyCharacter
    pure (String.ofList characters)
  blanks
  pure part

def keyLimit : Nat := 80

def key : TextReader (List String × String) := do
  let parts ← separated (exactly '.') keyPart
  guard (parts.length < keyLimit)
  let last ← found parts.getLast?
  pure (parts.dropLast, last)

def definition (item : TextReader Node) : TextReader Definition := do
  let (path, key) ← key
  exactly '='
  blanks
  let node ← item
  pure { path, key, node }

def boolean : TextReader Bool :=
  (do word ['t', 'r', 'u', 'e']; pure true) <|>
  (do word ['f', 'a', 'l', 's', 'e']; pure false)

def scalar : TextReader Node :=
  (.text <$> quotedText) <|>
  (.boolean <$> boolean) <|>
  (do moment; pure .moment) <|>
  (.float <$> float) <|>
  (.integer <$> integer)

def array (item : TextReader Node) : TextReader Node := do
  exactly '['
  let items ← ifAny do
    let items ← separated (exactly ',') do
      filler
      let item ← item
      filler
      pure item
    skip (exactly ',')
    pure items
  filler
  exactly ']'
  pure (.array items)

def braces (item : TextReader Node) : TextReader Node := do
  exactly '\x7b'
  let definitions ← ifAny do
    separated (exactly ',') do
      let defined ← definition item
      blanks
      pure defined
  blanks
  exactly '\x7d'
  let entries ← found (Entries.defineAll? [] .bracesDotted definitions)
  pure (.table .braces entries)

def value : (room : Nat) → TextReader Node
  | 0 => scalar
  | room + 1 => scalar <|> array (value room) <|> braces (value room)

def nestingRoom : Nat := 79

end Durability.Config
