import Durability.Number.Shortest

/-! The floating number nearest to a decimal. The quotient that a decimal stands for is scaled so
that its whole part has the 53 binary digits of a significand and is then rounded once, in exact
natural arithmetic. -/

namespace Durability

def halfEven (numerator denominator : Nat) : Nat :=
  let below := numerator / denominator
  let rest := numerator % denominator
  if denominator < 2 * rest ∨ 2 * rest = denominator ∧ below % 2 = 1 then below + 1 else below

theorem halfEven_mul_le (numerator : Nat) {denominator : Nat} (positive : 0 < denominator) :
    2 * (halfEven numerator denominator * denominator) ≤ 2 * numerator + denominator := by
  have parts := Nat.div_add_mod' numerator denominator
  have rest_lt := Nat.mod_lt numerator positive
  dsimp only [halfEven]
  split
  · rw [Nat.add_mul]
    omega
  · omega

theorem le_halfEven_mul (numerator : Nat) {denominator : Nat} (positive : 0 < denominator) :
    2 * numerator ≤ 2 * (halfEven numerator denominator * denominator) + denominator := by
  have parts := Nat.div_add_mod' numerator denominator
  have rest_lt := Nat.mod_lt numerator positive
  dsimp only [halfEven]
  split
  · rw [Nat.add_mul]
    omega
  · omega

def leadingPower (numerator denominator : Nat) : Int :=
  let power : Int := (numerator.log2 : Int) - denominator.log2
  if denominator <<< power.toNat ≤ numerator <<< (-power).toNat then power else power - 1

def infinityBits : Nat := 2047 * leadingDigit

/-- The bits of the floating number nearest to the positive number `numerator / denominator`. The
exponent and the fraction are added, so that a significand rounded up to the next power of two
carries into the exponent, and a number too small for 53 digits has the exponent zero. -/
def quotientBits (numerator denominator : Nat) : Nat :=
  let exponent := max (leadingPower numerator denominator - 52) (-1074)
  let significand :=
    halfEven (numerator <<< (-exponent).toNat) (denominator <<< exponent.toNat)
  min ((exponent + 1074).toNat * leadingDigit + significand) infinityBits

namespace Decimal

/-- The bits of the number nearest to a decimal without its sign. What lies below every power of
ten that rounds to more than zero is zero, and what lies above the largest number infinite. -/
def magnitudeBits (decimal : Decimal) : Nat :=
  let reach := (digitCount decimal.coefficient : Int) + decimal.exponent
  if decimal.coefficient = 0 ∨ reach ≤ -324 then 0
  else if 310 ≤ reach then infinityBits
  else
    let (power, unit) := scaled 1 10 decimal.exponent
    quotientBits (decimal.coefficient * power) unit

def toFloat (decimal : Decimal) : Float :=
  let sign := if decimal.negative then 1 <<< 63 else 0
  Float.ofBits (UInt64.ofNat (sign + decimal.magnitudeBits))

def overflows (decimal : Decimal) : Bool := decimal.magnitudeBits = infinityBits

end Decimal

end Durability
