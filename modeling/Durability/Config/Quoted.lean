import Durability.Config.TextReader

/-! Quoted texts. Between quotation marks a backslash begins an escape; between apostrophes every
character stands for itself. A text in three marks may span lines. -/

namespace Durability.Config

open TextReader

def quotationMark : Char := '\x22'

def apostrophe : Char := '\x27'

def backslash : Char := '\x5c'

def digitValue (digit : Char) : Nat :=
  if digit ≤ '9' then digit.toNat - 48
  else if digit ≤ 'F' then digit.toNat - 55
  else digit.toNat - 87

def digitsValue (base : Nat) (digits : List Char) : Nat :=
  digits.foldl (fun value digit => base * value + digitValue digit) 0

def isDigit (character : Char) : Bool := '0' ≤ character ∧ character ≤ '9'

def isHexDigit (character : Char) : Bool :=
  isDigit character ∨ 'a' ≤ character ∧ character ≤ 'f' ∨ 'A' ≤ character ∧ character ≤ 'F'

def numbered (width : Nat) : TextReader Char := do
  let digits ← times (one isHexDigit) width
  let number := digitsValue 16 digits
  guard number.isValidChar
  pure (Char.ofNat number)

def escape : TextReader Char := do
  exactly backslash
  let kind ← one fun _ => true
  match kind with
  | 'b' => pure '\x08'
  | 't' => pure '\t'
  | 'n' => pure '\n'
  | 'f' => pure '\x0c'
  | 'r' => pure '\r'
  | 'u' => numbered 4
  | 'U' => numbered 8
  | other => if other = quotationMark ∨ other = backslash then pure other else failure

def isPlain (character : Char) : Bool :=
  isVisible character ∧ character ≠ quotationMark ∧ character ≠ backslash

def isLiteral (character : Char) : Bool := isVisible character ∧ character ≠ apostrophe

def basicText : TextReader String := do
  exactly quotationMark
  let characters ← many (one isPlain <|> escape)
  exactly quotationMark
  pure (String.ofList characters)

def literalText : TextReader String := do
  exactly apostrophe
  let characters ← run isLiteral
  exactly apostrophe
  pure (String.ofList characters)

/-- A backslash at the end of a line, which joins the line with the next one that is not blank. -/
def joinedLines : TextReader (List Char) := do
  exactly backslash
  blanks
  newline
  let _ ← many ((do let _ ← one isBlank) <|> newline)
  pure []

def innerNewline : TextReader (List Char) := do
  newline
  pure ['\n']

def innerMarks (mark : Char) : TextReader (List Char) := do
  let marks ← someRun (· = mark)
  guard (marks.length < 3)
  pure marks

def closingMarks (mark : Char) : TextReader (List Char) := do
  let marks ← run (· = mark)
  guard (3 ≤ marks.length ∧ marks.length ≤ 5)
  pure (marks.drop 3)

/-- A text of pieces between three marks on either side. An end of line right behind the opening
marks is left out. -/
def spanningText (mark : Char) (piece : TextReader (List Char)) : TextReader String := do
  word [mark, mark, mark]
  skip newline
  let pieces ← many (piece <|> innerNewline <|> innerMarks mark)
  let last ← closingMarks mark
  pure (String.ofList (pieces.flatten ++ last))

def lineText : TextReader String := basicText <|> literalText

def quotedText : TextReader String :=
  spanningText quotationMark (someRun isPlain <|> joinedLines <|> do
    let character ← escape
    pure [character]) <|>
  spanningText apostrophe (someRun isLiteral) <|>
  lineText

end Durability.Config
