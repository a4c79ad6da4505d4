import Durability.Config.Quoted
import Durability.Number.Nearest

/-! Numbers, dates and times of day in a configuration document. -/

namespace Durability.Config

open TextReader

def digits (isDigit : Char → Bool) : TextReader (List Char) := do
  let first ← one isDigit
  let others ← many (one isDigit <|> do
    exactly '_'
    one isDigit)
  pure (first :: others)

def wholeDigits : TextReader (List Char)
  | '0' :: rest => some (['0'], rest)
  | input => digits isDigit input

def sign : TextReader Bool :=
  (do exactly '-'; pure true) <|> (do exactly '+'; pure false) <|> pure false

def fitsInteger (value : Int) : Bool :=
  -0x8000000000000000 ≤ value ∧ value ≤ 0x7fffffffffffffff

def basedInteger (letter : Char) (base : Nat) (isDigit : Char → Bool) : TextReader Int := do
  word ['0', letter]
  let found ← digits isDigit
  pure (digitsValue base found)

def decimalInteger : TextReader Int := do
  let negative ← sign
  let found ← wholeDigits
  let magnitude : Int := digitsValue 10 found
  pure (if negative then -magnitude else magnitude)

def integer : TextReader Int := do
  let value ← basedInteger 'x' 16 isHexDigit <|>
    basedInteger 'o' 8 (fun character => '0' ≤ character ∧ character ≤ '7') <|>
    basedInteger 'b' 2 (fun character => character = '0' ∨ character = '1') <|>
    decimalInteger
  guard (fitsInteger value)
  pure value

def fraction : TextReader (List Char) := do
  exactly '.'
  digits isDigit

def exponent : TextReader Int := do
  exactly 'e' <|> exactly 'E'
  let negative ← sign
  let found ← digits isDigit
  let magnitude : Int := digitsValue 10 found
  pure (if negative then -magnitude else magnitude)

def decimal : TextReader Decimal := do
  let negative ← sign
  let whole ← wholeDigits
  let (places, power) ←
    (do let power ← exponent
        pure ([], power)) <|>
    (do let places ← fraction
        let power ← exponent <|> pure 0
        pure (places, power))
  pure
    { negative
      coefficient := digitsValue 10 (whole ++ places)
      exponent := power - places.length }

def namedFloat : TextReader Float := do
  let negative ← sign
  (do word ['i', 'n', 'f']
      pure (if negative then -1.0 / 0.0 else 1.0 / 0.0)) <|>
  (do word ['n', 'a', 'n']
      pure (0.0 / 0.0))

/-- A floating number. One beyond the largest number is refused, but not one below the least. -/
def float : TextReader Float :=
  (do let value ← decimal
      guard (value.negative ∨ !value.overflows)
      pure value.toFloat) <|>
  namedFloat

def field (width least most : Nat) : TextReader Nat := do
  let found ← times (one isDigit) width
  let value := digitsValue 10 found
  guard (least ≤ value ∧ value ≤ most)
  pure value

def daysIn (year month : Nat) : Nat :=
  if month = 2 then
    if year % 4 = 0 ∧ (year % 100 ≠ 0 ∨ year % 400 = 0) then 29 else 28
  else if month = 4 ∨ month = 6 ∨ month = 9 ∨ month = 11 then 30
  else 31

def date : TextReader Unit := do
  let year ← field 4 0 9999
  exactly '-'
  let month ← field 2 1 12
  exactly '-'
  let _ ← field 2 1 (daysIn year month)

def clock : TextReader Unit := do
  let _ ← field 2 0 23
  exactly ':'
  let _ ← field 2 0 59

def timeOfDay : TextReader Unit := do
  clock
  exactly ':'
  let _ ← field 2 0 60
  skip (do
    exactly '.'
    someRun isDigit)

def offset : TextReader Unit := do
  exactly 'Z' <|> exactly 'z' <|> do
    exactly '+' <|> exactly '-'
    clock

def moment : TextReader Unit :=
  (do date
      skip (do
        exactly 'T' <|> exactly 't' <|> exactly ' '
        timeOfDay
        skip offset)) <|>
  timeOfDay

end Durability.Config
