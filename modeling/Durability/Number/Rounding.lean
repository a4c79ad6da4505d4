/-! Passing between natural numbers of 64 bits and floating-point numbers: the nearest floating
number of a natural one, the whole part of a floating number held within 64 bits, and powers by
repeated squaring, whose rounding follows the order of its products. -/

namespace Durability

def largest64 : Nat := 0xffffffffffffffff

def saturate (number : Nat) : Nat := min number largest64

theorem saturate_le (number : Nat) : saturate number ≤ largest64 := Nat.min_le_right _ _

def wrap64 (number : Nat) : Nat := number % 0x10000000000000000

theorem wrap64_of_le {number : Nat} (fits : number ≤ largest64) : wrap64 number = number :=
  Nat.mod_eq_of_lt (Nat.lt_succ_of_le fits)

/-- The floating number nearest to `number`, of two equally near ones the even one. A number of
more than 64 bits is cut to its first 64, the last of which is set if anything was cut off. -/
def nearest (number : Nat) : Float :=
  if number ≤ largest64 then (UInt64.ofNat number).toFloat
  else
    let shift := number.log2 - 63
    let kept := number >>> shift
    let marked := if kept <<< shift = number then kept else kept ||| 1
    (UInt64.ofNat marked).toFloat.scaleB shift

/-- The whole part of a floating number: at most the largest number of 64 bits, and zero for
what is negative or not a number. -/
def truncate (number : Float) : Nat := number.toUInt64.toNat

def powerFrom (accumulated base : Float) (exponent : Nat) : Float :=
  let accumulated := if exponent % 2 = 1 then accumulated * base else accumulated
  if exponent / 2 = 0 then accumulated
  else powerFrom accumulated (base * base) (exponent / 2)
termination_by exponent

def power (base : Float) (exponent : Nat) : Float := powerFrom 1.0 base exponent

end Durability
