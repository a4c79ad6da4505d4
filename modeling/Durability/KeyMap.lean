/-! Finite maps kept as lists in strictly ascending key order. Two maps with the same
entries are equal, a listing of a map is its entries, and a map built from a list of pairs
keeps for each key the value written last. -/

namespace Durability

/-- A finite map: its entries, each key strictly below the next. -/
structure KeyMap (κ : Type) (ν : Type) [LT κ] where
  entries : List (κ × ν)
  ascending : entries.Pairwise fun first second => first.1 < second.1

namespace KeyMap

variable {κ ν : Type} [LT κ]

@[ext] theorem ext {first second : KeyMap κ ν} (same : first.entries = second.entries) :
    first = second := by
  cases first
  cases second
  cases same
  rfl

instance [DecidableEq κ] [DecidableEq ν] : DecidableEq (KeyMap κ ν) := fun first second =>
  if same : first.entries = second.entries then isTrue (ext same)
  else isFalse fun equal => same (equal ▸ rfl)

def empty : KeyMap κ ν := ⟨[], .nil⟩

instance : EmptyCollection (KeyMap κ ν) := ⟨empty⟩

instance : Inhabited (KeyMap κ ν) := ⟨empty⟩

def size (map : KeyMap κ ν) : Nat := map.entries.length

def keys (map : KeyMap κ ν) : List κ := map.entries.map (·.1)

def values (map : KeyMap κ ν) : List ν := map.entries.map (·.2)

def least? (map : KeyMap κ ν) : Option (κ × ν) := map.entries.head?

variable [DecidableLT κ]

def below (map : KeyMap κ ν) (key : κ) : List (κ × ν) :=
  map.entries.takeWhile fun entry => entry.1 < key

def above (map : KeyMap κ ν) (key : κ) : List (κ × ν) :=
  map.entries.dropWhile fun entry => ¬ key < entry.1

def find? (map : KeyMap κ ν) (key : κ) : Option ν :=
  match map.entries.dropWhile fun entry => entry.1 < key with
  | [] => none
  | entry :: _ => if key < entry.1 then none else some entry.2

def contains (map : KeyMap κ ν) (key : κ) : Bool := (map.find? key).isSome

theorem below_lt (map : KeyMap κ ν) (key : κ) :
    ∀ entry ∈ map.below key, entry.1 < key := by
  intro entry member
  have holds := List.all_takeWhile (p := fun entry : κ × ν => decide (entry.1 < key))
    (l := map.entries)
  rw [List.all_eq_true] at holds
  exact of_decide_eq_true (holds entry member)

theorem below_ascending (map : KeyMap κ ν) (key : κ) :
    (map.below key).Pairwise fun first second => first.1 < second.1 :=
  map.ascending.sublist (List.takeWhile_sublist _)

theorem above_ascending (map : KeyMap κ ν) (key : κ) :
    (map.above key).Pairwise fun first second => first.1 < second.1 :=
  map.ascending.sublist (List.dropWhile_sublist _)

variable [LE κ] [Std.IsLinearOrder κ] [Std.LawfulOrderLT κ]

private theorem dropWhile_gt (key : κ) (entries : List (κ × ν))
    (ascending : entries.Pairwise fun first second => first.1 < second.1) :
    ∀ entry ∈ entries.dropWhile (fun entry => ¬ key < entry.1), key < entry.1 := by
  induction entries with
  | nil => simp
  | cons head tail ih =>
      by_cases later : key < head.1
      · intro entry member
        simp only [List.dropWhile_cons, later, not_true_eq_false, decide_false,
          Bool.false_eq_true, if_false, List.mem_cons] at member
        rcases member with rfl | member
        · exact later
        · have after := (List.pairwise_cons.1 ascending).1 entry member
          grind
      · simp only [List.dropWhile_cons, later, not_false_eq_true, decide_true, if_true]
        exact ih (List.pairwise_cons.1 ascending).2

theorem above_gt (map : KeyMap κ ν) (key : κ) :
    ∀ entry ∈ map.above key, key < entry.1 :=
  dropWhile_gt key map.entries map.ascending

def insert (map : KeyMap κ ν) (key : κ) (value : ν) : KeyMap κ ν where
  entries := map.below key ++ (key, value) :: map.above key
  ascending := by
    have low := map.below_lt key
    have high := map.above_gt key
    rw [List.pairwise_append, List.pairwise_cons]
    refine ⟨map.below_ascending key, ⟨high, map.above_ascending key⟩, ?_⟩
    intro first firstMember second secondMember
    have before := low first firstMember
    rcases List.mem_cons.1 secondMember with rfl | later
    · exact before
    · have after := high second later
      grind

def erase (map : KeyMap κ ν) (key : κ) : KeyMap κ ν where
  entries := map.below key ++ map.above key
  ascending := by
    have low := map.below_lt key
    have high := map.above_gt key
    rw [List.pairwise_append]
    refine ⟨map.below_ascending key, map.above_ascending key, ?_⟩
    intro first firstMember second secondMember
    have before := low first firstMember
    have after := high second secondMember
    grind

def dropThrough (map : KeyMap κ ν) (key : κ) : KeyMap κ ν :=
  ⟨map.above key, map.above_ascending key⟩

def ofList (pairs : List (κ × ν)) : KeyMap κ ν :=
  pairs.foldr (fun pair map =>
    if map.contains pair.1 then map else map.insert pair.1 pair.2) empty

end KeyMap

end Durability
