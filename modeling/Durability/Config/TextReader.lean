/-! Reading a text from its front. A reader gives a value and the rest of the text, or fails; the
choice between two of them gives the second the text that the first was given. -/

namespace Durability.Config

abbrev TextReader := StateT (List Char) Option

namespace TextReader

variable {α : Type}

def one (accepts : Char → Bool) : TextReader Char
  | [] => none
  | first :: rest => if accepts first then some (first, rest) else none

def exactly (expected : Char) : TextReader Unit := do
  let _ ← one (· = expected)

def word : List Char → TextReader Unit
  | [] => pure ()
  | first :: others => do
    exactly first
    word others

def run (accepts : Char → Bool) : TextReader (List Char) := fun input =>
  some (input.takeWhile accepts, input.dropWhile accepts)

def someRun (accepts : Char → Bool) : TextReader (List Char) := do
  let found ← run accepts
  guard !found.isEmpty
  pure found

def atEnd : TextReader Unit
  | [] => some ((), [])
  | _ :: _ => none

def found : Option α → TextReader α
  | some value => pure value
  | none => failure

def times (item : TextReader α) : (count : Nat) → TextReader (List α)
  | 0 => pure []
  | count + 1 => do
    let first ← item
    let others ← times item count
    pure (first :: others)

private def gather (item : TextReader α) :
    (bound : List Char) → (found : List α) → TextReader (List α)
  | [], found, input => some (found.reverse, input)
  | _ :: bound, found, input =>
    match item input with
    | some (value, rest) => gather item bound (value :: found) rest
    | none => some (found.reverse, input)

/-- Items until one fails. There are no more than there are characters if each of them takes one
at least. -/
def many (item : TextReader α) : TextReader (List α) := fun input => gather item input [] input

def separated (separator : TextReader Unit) (item : TextReader α) : TextReader (List α) := do
  let first ← item
  let others ← many (do
    separator
    item)
  pure (first :: others)

def ifAny (item : TextReader (List α)) : TextReader (List α) := item <|> pure []

def skip (item : TextReader α) : TextReader Unit := (do let _ ← item) <|> pure ()

end TextReader

/-! Blanks, comments and the ends of lines. -/

open TextReader

def isVisible (character : Char) : Bool :=
  character = '\t' ∨ ' ' ≤ character ∧ character ≠ '\x7f'

def isBlank (character : Char) : Bool := character = ' ' ∨ character = '\t'

def blanks : TextReader Unit := do
  let _ ← run isBlank

def newline : TextReader Unit := exactly '\n' <|> word ['\r', '\n']

def comment : TextReader Unit := do
  exactly '#'
  let _ ← run isVisible

def lineEnd : TextReader Unit := do
  blanks
  skip comment
  newline <|> atEnd

def filler : TextReader Unit := do
  let _ ← many ((do let _ ← one isBlank) <|> newline <|> do
    comment
    newline)

end Durability.Config
