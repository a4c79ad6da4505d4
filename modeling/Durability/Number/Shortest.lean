/-! The shortest decimal of a floating number: the fewest digits that read back as the number and,
among those, the digits nearest to it. Everything is computed in exact natural arithmetic from
the bits of the number. -/

namespace Durability

structure Decimal where
  negative : Bool
  coefficient : Nat
  exponent : Int
  deriving DecidableEq, Repr

inductive FloatParts where
  | finite (negative : Bool) (significand : Nat) (exponent : Int)
  | infinite (negative : Bool)
  | nan
  deriving DecidableEq, Repr

def leadingDigit : Nat := 1 <<< 52

namespace FloatParts

def ofBits (bits : Nat) : FloatParts :=
  let negative : Bool := (bits >>> 63) % 2 = 1
  let exponent : Nat := (bits >>> 52) % 2048
  let fraction : Nat := bits % leadingDigit
  if exponent = 2047 then if fraction = 0 then infinite negative else nan
  else if exponent = 0 then finite negative fraction (-1074)
  else finite negative (leadingDigit + fraction) ((exponent : Int) - 1075)

end FloatParts

namespace Decimal

def digitCount (number : Nat) : Nat := (Nat.toDigits 10 number).length

def leadingExponent (numerator denominator : Nat) : Int :=
  if denominator ≤ numerator then (digitCount (numerator / denominator) : Int) - 1
  else -(digitCount ((denominator - 1) / numerator) : Int)

def scaled (number base : Nat) (exponent : Int) : Nat × Nat :=
  (number * base.pow exponent.toNat, base.pow (-exponent).toNat)

/-- The interval of numbers that round to `significand · 2 ^ exponent`, in quarters of its last
place: the lower end, the number and the upper end. Below a power of two the numbers lie twice
as close. The ends belong to it if the significand is even. -/
structure Rounding where
  low : Nat
  value : Nat
  high : Nat
  closed : Bool
  deriving DecidableEq, Repr

def roundingOf (significand : Nat) (exponent : Int) : Rounding :=
  { low := if significand = leadingDigit ∧ exponent ≠ -1074 then 4 * significand - 1
      else 4 * significand - 2
    value := 4 * significand
    high := 4 * significand + 2
    closed := significand % 2 = 0 }

def Rounding.holds (rounding : Rounding) (numerator denominator : Nat) : Bool :=
  if rounding.closed then
    rounding.low * denominator ≤ numerator ∧ numerator ≤ rounding.high * denominator
  else rounding.low * denominator < numerator ∧ numerator < rounding.high * denominator

/-- The decimal of `digits` digits that is nearest to `significand · 2 ^ exponent`, if one of that
many digits reads back as it. Of two at the same distance it is the larger. -/
def withDigits? (significand : Nat) (exponent : Int) (digits : Nat) : Option (Nat × Int) :=
  let rounding := roundingOf significand exponent
  let (binary, binaryUnit) := scaled 1 2 (exponent - 2)
  let place := leadingExponent (rounding.value * binary) binaryUnit - digits + 1
  let (decimal, decimalUnit) := scaled 1 10 place
  let below := rounding.value * binary * decimalUnit / (binaryUnit * decimal)
  let numerator (candidate : Nat) : Nat := candidate * decimal * binaryUnit
  let denominator := binary * decimalUnit
  let holds (candidate : Nat) : Bool := rounding.holds (numerator candidate) denominator
  let value := rounding.value * denominator
  if holds below ∧ holds (below + 1) then
    if numerator (below + 1) - value ≤ value - numerator below then some (below + 1, place)
    else some (below, place)
  else if holds below then some (below, place)
  else if holds (below + 1) then some (below + 1, place)
  else none

def trim (coefficient : Nat) (exponent : Int) : Nat × Int :=
  if coefficient = 0 ∨ coefficient % 10 ≠ 0 then (coefficient, exponent)
  else trim (coefficient / 10) (exponent + 1)
termination_by coefficient
decreasing_by omega

def shortest (negative : Bool) (significand : Nat) (exponent : Int) : Decimal :=
  if significand = 0 then { negative, coefficient := 0, exponent := 0 }
  else
    let found := (List.range 17).findSome? fun digits =>
      withDigits? significand exponent (digits + 1)
    let (coefficient, place) := found.getD (0, 0)
    let (coefficient, place) := trim coefficient place
    { negative, coefficient, exponent := place }

end Decimal

end Durability
