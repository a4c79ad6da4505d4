import Durability.Proofs.Bytes.ReadBack

/-! Reading from input that was cut short. A reader takes a decision by the bytes it has seen, so
bytes that follow cannot change it; only the failure for want of bytes is open to them. Together
with a round trip this tells what a reader makes of every torn piece of what was written. -/

namespace Durability.Reader

variable {α β : Type}

/-- Every outcome but the failure of cut-off input stands when more bytes follow, and leaves these
unread. -/
def Stable (reader : Reader α) : Prop :=
  ∀ input more, (reader.run input).1 = .error (.corruption .truncated) ∨
    reader.run (input ++ more) = ((reader.run input).1, (reader.run input).2 ++ more)

theorem stable_pure (value : α) : (pure value : Reader α).Stable := fun _ _ => Or.inr rfl

theorem stable_fail (cause : Error) : (fail cause : Reader α).Stable := fun _ _ => Or.inr rfl

theorem Stable.bind {first : Reader α} {next : α → Reader β} (one : first.Stable)
    (others : ∀ value, (next value).Stable) : (first >>= next).Stable := by
  intro input more
  rcases one input more with cut | stands
  · exact Or.inl (run_bind_of_error cut)
  · rw [run_bind, run_bind, stands]
    match first.run input with
    | (.ok value, rest) => exact others value rest more
    | (.error _, _) => exact Or.inr rfl

theorem Stable.map {reader : Reader α} (stable : reader.Stable) (f : α → β) :
    (f <$> reader).Stable :=
  stable.bind fun value => stable_pure (f value)

theorem Stable.ite {condition : Prop} [Decidable condition] {first second : Reader α}
    (one : first.Stable) (other : second.Stable) :
    (if condition then first else second).Stable := by
  split
  · exact one
  · exact other

theorem stable_require (cause : Corruption) (found : Option α) :
    (require cause found).Stable := by
  cases found with
  | none => exact stable_fail _
  | some value => exact stable_pure value

theorem reaches_append {count : Nat} {input : Bytes} (enough : reaches count input = true)
    (more : Bytes) : reaches count (input ++ more) = true := by
  rw [reaches_iff] at enough ⊢
  rw [List.length_append]
  exact Nat.le_trans enough (Nat.le_add_right _ _)

theorem stable_ensure (count : Nat) : (ensure count).Stable := by
  intro input more
  by_cases enough : reaches count input = true
  · refine Or.inr ?_
    simp only [ensure, enough, reaches_append enough, if_true]
  · refine Or.inl ?_
    simp only [ensure, enough, Bool.false_eq_true, if_false]

theorem stable_take (count : Nat) : (take count).Stable := by
  intro input more
  by_cases enough : reaches count input = true
  · have fits : count ≤ input.length := reaches_iff.1 enough
    refine Or.inr ?_
    simp only [take, enough, reaches_append enough, if_true,
      List.take_append_of_le_length fits, List.drop_append_of_le_length fits]
  · refine Or.inl ?_
    simp only [take, enough, Bool.false_eq_true, if_false]

theorem stable_number (width : Nat) : (number width).Stable := (stable_take width).map _

theorem stable_uint8 : uint8.Stable := (stable_number 1).map _

theorem stable_uint16 : uint16.Stable := (stable_number 2).map _

theorem stable_uint32 : uint32.Stable := (stable_number 4).map _

theorem stable_uint64 : uint64.Stable := (stable_number 8).map _

theorem stable_int32 : int32.Stable := stable_uint32.map _

theorem stable_flag : flag.Stable := stable_uint8.map _

theorem stable_lengthPrefixed : lengthPrefixed.Stable :=
  (stable_number 4).bind fun length => (stable_pure none).ite ((stable_take length).map some)

theorem Stable.times {item : Reader α} (stable : item.Stable) (count : Nat) :
    (Reader.times count item).Stable := by
  induction count with
  | zero => exact stable_pure []
  | succ count ih =>
      rw [times_succ]
      exact stable.bind fun value => ih.bind fun values => stable_pure (value :: values)

theorem Stable.counted {item : Reader α} (stable : item.Stable) (look : LookAhead)
    (count width : Nat) : (Reader.counted look count width item).Stable := by
  cases look with
  | unchecked => exact stable.times count
  | checked => exact (stable_ensure (count * width)).bind fun _ => stable.times count

theorem Stable.truncated {reader : Reader α} (stable : reader.Stable) {bytes : Bytes} {value : α}
    (reads : reader.Reads bytes value) {count : Nat} (short : count < bytes.length) :
    (reader.run (bytes.take count)).1 = .error (.corruption .truncated) := by
  rcases stable (bytes.take count) (bytes.drop count) with cut | stands
  · exact cut
  · have whole : reader.run bytes = (.ok value, []) := by
      rw [← List.append_nil bytes]
      exact reads []
    -- The whole leaves nothing unread, not even the bytes that the piece lacks.
    rw [List.take_append_drop, whole] at stands
    have missing : [] = (reader.run (bytes.take count)).2 ++ bytes.drop count :=
      congrArg Prod.snd stands
    have none : bytes.drop count = [] := (List.append_eq_nil_iff.1 missing.symm).2
    have reached : bytes.length ≤ count := List.drop_eq_nil_iff.1 none
    omega

end Durability.Reader
