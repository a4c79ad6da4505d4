/-! Arithmetic that leaves the range of its type. How the program was built decides whether such
an operation fails or its result is taken modulo the number of values of the type. -/

namespace Durability

/-- What becomes of a result that is out of range. -/
inductive Overflow where
  | fails
  | wraps
  deriving DecidableEq, Repr

def IsWord (value : Int) : Prop := -0x8000000000000000 ≤ value ∧ value < 0x8000000000000000

instance (value : Int) : Decidable (IsWord value) := by
  unfold IsWord
  infer_instance

namespace Overflow

def next? (onOverflow : Overflow) (number : UInt32) : Option UInt32 :=
  if onOverflow = fails ∧ number + 1 = 0 then none else some (number + 1)

def word? (onOverflow : Overflow) (value : Int) : Option Int :=
  if IsWord value then some value
  else match onOverflow with
    | fails => none
    | wraps => some (value.bmod 0x10000000000000000)

theorem word?_of_isWord {onOverflow : Overflow} {value : Int} (fits : IsWord value) :
    onOverflow.word? value = some value := if_pos fits

end Overflow

end Durability
