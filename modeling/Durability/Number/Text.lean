import Durability.Number.Shortest

/-! Floating numbers in text, by their shortest decimals. A format says when the positional form
gives way to one with an exponent and whether a whole number keeps a point. -/

namespace Durability

structure FloatFormat where
  /-- Whether a whole number is written with a point and a zero. -/
  keepsPoint : Bool
  /-- The least power of ten written with an exponent; none for always positional. -/
  largeFrom : Option Int
  /-- The power of ten below which numbers are written with an exponent. -/
  smallBelow : Option Int
  deriving DecidableEq, Repr

namespace FloatFormat

def plain : FloatFormat := { keepsPoint := false, largeFrom := none, smallBelow := none }

/-- Numbers in diagnostics: with a point, and positional from a ten-thousandth up to below ten to
the sixteenth. -/
def diagnostic : FloatFormat :=
  { keepsPoint := true, largeFrom := some 16, smallBelow := some (-4) }

def usesExponent (format : FloatFormat) (leading : Int) : Bool :=
  format.largeFrom.any (· ≤ leading) || format.smallBelow.any (leading < ·)

end FloatFormat

namespace Decimal

def digits (decimal : Decimal) : List Char := Nat.toDigits 10 decimal.coefficient

def leading (decimal : Decimal) : Int := decimal.digits.length - 1 + decimal.exponent

def positional (decimal : Decimal) (keepsPoint : Bool) : List Char :=
  let digits := decimal.digits
  if 0 ≤ decimal.exponent then
    digits ++ List.replicate decimal.exponent.toNat '0' ++
      if keepsPoint then ['.', '0'] else []
  else
    let places := (-decimal.exponent).toNat
    if places < digits.length then
      digits.take (digits.length - places) ++ '.' :: digits.drop (digits.length - places)
    else '0' :: '.' :: List.replicate (places - digits.length) '0' ++ digits

def scientific (decimal : Decimal) : List Char :=
  let mantissa := match decimal.digits with
    | [] => []
    | [digit] => [digit]
    | digit :: rest => digit :: '.' :: rest
  mantissa ++ 'e' :: (toString decimal.leading).toList

def text (decimal : Decimal) (format : FloatFormat) : List Char :=
  let number :=
    if decimal.coefficient ≠ 0 ∧ format.usesExponent decimal.leading then decimal.scientific
    else decimal.positional format.keepsPoint
  if decimal.negative then '-' :: number else number

end Decimal

def FloatFormat.render (format : FloatFormat) (number : Float) : String :=
  match FloatParts.ofBits number.toBits.toNat with
  | .nan => "NaN"
  | .infinite negative => if negative then "-inf" else "inf"
  | .finite negative significand exponent =>
    String.ofList ((Decimal.shortest negative significand exponent).text format)

end Durability
