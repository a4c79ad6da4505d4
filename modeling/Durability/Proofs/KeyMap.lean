import Durability.KeyMap

/-! The entries of a map after each operation. A map is its entries: looking a key up finds the
one entry with that key, and every operation is described by the entries it keeps and adds. -/

namespace Durability.KeyMap

variable {κ ν : Type} [LT κ] [DecidableLT κ] [LE κ] [Std.IsLinearOrder κ] [Std.LawfulOrderLT κ]

private theorem takeWhile_lt (key : κ) (entries : List (κ × ν))
    (ascending : entries.Pairwise fun first second => first.1 < second.1) :
    entries.takeWhile (fun entry => entry.1 < key) =
      entries.filter fun entry => entry.1 < key := by
  induction entries with
  | nil => rfl
  | cons head tail ih =>
      obtain ⟨later, rest⟩ := List.pairwise_cons.1 ascending
      by_cases before : head.1 < key
      · simp only [List.takeWhile_cons, List.filter_cons, before, decide_true, if_true, ih rest]
      · have none : tail.filter (fun entry => entry.1 < key) = [] := by
          rw [List.filter_eq_nil_iff]
          intro entry member
          have after := later entry member
          simp only [decide_eq_true_eq]
          grind
        simp only [List.takeWhile_cons, List.filter_cons, before, decide_false,
          Bool.false_eq_true, if_false, none]

private theorem dropWhile_not_lt (key : κ) (entries : List (κ × ν))
    (ascending : entries.Pairwise fun first second => first.1 < second.1) :
    entries.dropWhile (fun entry => ¬ key < entry.1) =
      entries.filter fun entry => key < entry.1 := by
  induction entries with
  | nil => rfl
  | cons head tail ih =>
      obtain ⟨later, rest⟩ := List.pairwise_cons.1 ascending
      by_cases after : key < head.1
      · have all : tail.filter (fun entry => key < entry.1) = tail := by
          rw [List.filter_eq_self]
          intro entry member
          have beyond := later entry member
          simp only [decide_eq_true_eq]
          grind
        simp only [List.dropWhile_cons, List.filter_cons, after, not_true_eq_false,
          decide_false, decide_true, Bool.false_eq_true, if_false, if_true, all]
      · simp only [List.dropWhile_cons, List.filter_cons, after, not_false_eq_true, decide_true,
          decide_false, Bool.false_eq_true, if_false, if_true, ih rest]

theorem below_eq_filter (map : KeyMap κ ν) (key : κ) :
    map.below key = map.entries.filter fun entry => entry.1 < key :=
  takeWhile_lt key map.entries map.ascending

theorem above_eq_filter (map : KeyMap κ ν) (key : κ) :
    map.above key = map.entries.filter fun entry => key < entry.1 :=
  dropWhile_not_lt key map.entries map.ascending

theorem mem_entries_insert (map : KeyMap κ ν) (key : κ) (value : ν) (entry : κ × ν) :
    entry ∈ (map.insert key value).entries ↔
      entry = (key, value) ∨ entry ∈ map.entries ∧ entry.1 ≠ key := by
  change entry ∈ map.below key ++ (key, value) :: map.above key ↔ _
  rw [below_eq_filter, above_eq_filter, List.mem_append, List.mem_cons, List.mem_filter,
    List.mem_filter, decide_eq_true_eq, decide_eq_true_eq]
  grind

theorem mem_entries_erase (map : KeyMap κ ν) (key : κ) (entry : κ × ν) :
    entry ∈ (map.erase key).entries ↔ entry ∈ map.entries ∧ entry.1 ≠ key := by
  change entry ∈ map.below key ++ map.above key ↔ _
  rw [below_eq_filter, above_eq_filter, List.mem_append, List.mem_filter, List.mem_filter,
    decide_eq_true_eq, decide_eq_true_eq]
  grind

theorem mem_entries_dropThrough (map : KeyMap κ ν) (key : κ) (entry : κ × ν) :
    entry ∈ (map.dropThrough key).entries ↔ entry ∈ map.entries ∧ key < entry.1 := by
  change entry ∈ map.above key ↔ _
  rw [above_eq_filter, List.mem_filter, decide_eq_true_eq]

private theorem find_mem (key : κ) (value : ν) (entries : List (κ × ν))
    (ascending : entries.Pairwise fun first second => first.1 < second.1) :
    (match entries.dropWhile fun entry => entry.1 < key with
      | [] => none
      | entry :: _ => if key < entry.1 then none else some entry.2) = some value ↔
      (key, value) ∈ entries := by
  induction entries with
  | nil => simp
  | cons head tail ih =>
      obtain ⟨later, rest⟩ := List.pairwise_cons.1 ascending
      by_cases before : head.1 < key
      · have different : (key, value) ≠ head := by
          rintro rfl
          grind
        simp only [List.dropWhile_cons, before, decide_true, if_true, List.mem_cons, different,
          false_or, ih rest]
      · have absent : (key, value) ∉ tail ∨ head.1 < key := by
          by_cases member : (key, value) ∈ tail
          · exact Or.inr (later _ member)
          · exact Or.inl member
        simp only [before, or_false] at absent
        simp only [List.dropWhile_cons, before, decide_false, Bool.false_eq_true, if_false,
          List.mem_cons, absent, or_false]
        grind

theorem find?_eq_some_iff (map : KeyMap κ ν) (key : κ) (value : ν) :
    map.find? key = some value ↔ (key, value) ∈ map.entries :=
  find_mem key value map.entries map.ascending

theorem find?_eq_none_iff (map : KeyMap κ ν) (key : κ) :
    map.find? key = none ↔ ∀ entry ∈ map.entries, entry.1 ≠ key := by
  rw [Option.eq_none_iff_forall_ne_some]
  constructor
  · rintro absent ⟨other, value⟩ member rfl
    exact absent value ((find?_eq_some_iff map other value).2 member)
  · intro absent value found
    exact absent _ ((find?_eq_some_iff map key value).1 found) rfl

section LookUp

variable [DecidableEq κ]

theorem find?_insert (map : KeyMap κ ν) (key : κ) (value : ν) (other : κ) :
    (map.insert key value).find? other = if other = key then some value else map.find? other := by
  apply Option.ext
  intro found
  rw [find?_eq_some_iff, mem_entries_insert]
  by_cases same : other = key
  · simp [same, eq_comm]
  · simp [same, find?_eq_some_iff]

theorem find?_erase (map : KeyMap κ ν) (key other : κ) :
    (map.erase key).find? other = if other = key then none else map.find? other := by
  apply Option.ext
  intro found
  rw [find?_eq_some_iff, mem_entries_erase]
  by_cases same : other = key
  · simp [same]
  · simp [same, find?_eq_some_iff]

end LookUp

theorem find?_dropThrough (map : KeyMap κ ν) (key other : κ) :
    (map.dropThrough key).find? other = if key < other then map.find? other else none := by
  apply Option.ext
  intro found
  rw [find?_eq_some_iff, mem_entries_dropThrough]
  by_cases after : key < other
  · simp [after, find?_eq_some_iff]
  · simp [after]

theorem entries_split (map : KeyMap κ ν) (key : κ) :
    map.entries =
      map.below key ++ ((map.find? key).map fun value => (key, value)).toList ++ map.above key := by
  have whole : map.below key ++ map.entries.dropWhile (fun entry => entry.1 < key) =
      map.entries := List.takeWhile_append_dropWhile
  have beyond : map.above key =
      (map.entries.dropWhile fun entry => entry.1 < key).filter fun entry => key < entry.1 := by
    have nothing : (map.below key).filter (fun entry => key < entry.1) = [] := by
      rw [List.filter_eq_nil_iff]
      intro entry member
      have before := map.below_lt key entry member
      simp only [decide_eq_true_eq]
      grind
    rw [above_eq_filter, ← List.nil_append (List.filter _ (List.dropWhile _ _)), ← nothing,
      ← List.filter_append, whole]
  have first := List.head?_dropWhile_not (fun entry : κ × ν => decide (entry.1 < key)) map.entries
  have ordered := map.ascending
  rw [← whole, List.pairwise_append] at ordered
  cases rest : map.entries.dropWhile fun entry => entry.1 < key with
  | nil =>
      have absent : map.find? key = none := by simp only [find?, rest]
      rw [rest] at whole beyond
      rw [absent, beyond, ← whole]
      simp
  | cons head tail =>
      rw [rest] at whole beyond first ordered
      obtain ⟨later, -⟩ := List.pairwise_cons.1 ordered.2.1
      have notBefore : ¬ head.1 < key := of_decide_eq_false first
      have others : tail.filter (fun entry => key < entry.1) = tail := by
        rw [List.filter_eq_self]
        intro entry member
        have after := later entry member
        simp only [decide_eq_true_eq]
        grind
      by_cases after : key < head.1
      · have absent : map.find? key = none := by simp only [find?, rest, if_pos after]
        rw [absent, beyond, List.filter_cons, if_pos (decide_eq_true after), others, ← whole]
        simp
      · have same : head.1 = key := by grind
        have found : map.find? key = some head.2 := by simp only [find?, rest, if_neg after]
        rw [found, beyond, List.filter_cons, if_neg (by simpa using after), others, ← whole]
        simp [← same]

theorem erase_entries_of_head (map : KeyMap κ ν) {entry : κ × ν} {rest : List (κ × ν)}
    (listed : map.entries = entry :: rest) : (map.erase entry.1).entries = rest := by
  have ascending := map.ascending
  rw [listed] at ascending
  have later := (List.pairwise_cons.1 ascending).1
  have before : map.below entry.1 = [] := by
    rw [below_eq_filter, listed, List.filter_eq_nil_iff]
    intro other member
    simp only [decide_eq_true_eq]
    rcases List.mem_cons.1 member with rfl | behind
    · grind
    · have after := later other behind
      grind
  have after : map.above entry.1 = rest := by
    have all : rest.filter (fun other => entry.1 < other.1) = rest := by
      rw [List.filter_eq_self]
      intro other member
      exact decide_eq_true (later other member)
    have own : ¬ entry.1 < entry.1 := by grind
    rw [above_eq_filter, listed, List.filter_cons, if_neg (by simpa using own), all]
  change map.below entry.1 ++ map.above entry.1 = rest
  rw [before, after, List.nil_append]

theorem insert_entries_of_below (map : KeyMap κ ν) (key : κ) (value : ν)
    (least : ∀ entry ∈ map.entries, key < entry.1) :
    (map.insert key value).entries = (key, value) :: map.entries := by
  have before : map.below key = [] := by
    rw [below_eq_filter, List.filter_eq_nil_iff]
    intro entry member
    have after := least entry member
    simp only [decide_eq_true_eq]
    grind
  have after : map.above key = map.entries := by
    rw [above_eq_filter, List.filter_eq_self]
    intro entry member
    exact decide_eq_true (least entry member)
  change map.below key ++ (key, value) :: map.above key = _
  rw [before, after, List.nil_append]

theorem ofList_cons_of_listed {pair : κ × ν} {pairs : List (κ × ν)}
    (listed : (ofList pairs).contains pair.1 = true) : ofList (pair :: pairs) = ofList pairs :=
  if_pos listed

theorem ofList_cons_of_fresh {pair : κ × ν} {pairs : List (κ × ν)}
    (fresh : (ofList pairs).find? pair.1 = none) :
    ofList (pair :: pairs) = (ofList pairs).insert pair.1 pair.2 := by
  have absent : ¬ (ofList pairs).contains pair.1 = true := by
    rw [contains, fresh]
    exact Bool.false_ne_true
  exact if_neg absent

theorem ofList_entries_of_ascending (pairs : List (κ × ν))
    (ascending : pairs.Pairwise fun first second => first.1 < second.1) :
    (ofList pairs).entries = pairs := by
  induction pairs with
  | nil => rfl
  | cons head tail ih =>
      obtain ⟨later, rest⟩ := List.pairwise_cons.1 ascending
      have kept := ih rest
      have least : ∀ entry ∈ (ofList tail).entries, head.1 < entry.1 := by
        rw [kept]
        exact later
      have fresh : (ofList tail).find? head.1 = none := by
        rw [find?_eq_none_iff]
        intro entry member same
        have after := least entry member
        grind
      rw [ofList_cons_of_fresh fresh, insert_entries_of_below _ _ _ least, kept]

theorem ofList_entries (map : KeyMap κ ν) : ofList map.entries = map :=
  ext (ofList_entries_of_ascending map.entries map.ascending)

theorem insert_entries_perm (map : KeyMap κ ν) (key : κ) (value : ν)
    (fresh : map.find? key = none) :
    (map.insert key value).entries.Perm ((key, value) :: map.entries) := by
  have split := map.entries_split key
  rw [fresh, Option.map_none, Option.toList_none, List.append_nil] at split
  rw [split]
  exact List.perm_middle

omit [DecidableLT κ] [Std.IsLinearOrder κ] in
theorem keys_nodup (map : KeyMap κ ν) : (map.entries.map Prod.fst).Nodup := by
  rw [List.Nodup, List.pairwise_map]
  apply map.ascending.imp
  intro first second before same
  rw [same] at before
  obtain ⟨notAfter, after⟩ := (Std.LawfulOrderLT.lt_iff _ _).1 before
  exact after notAfter

theorem erase_entries_perm {map : KeyMap κ ν} {key : κ} {value : ν} {rest : List (κ × ν)}
    (listed : map.entries.Perm ((key, value) :: rest)) : (map.erase key).entries.Perm rest := by
  have distinct {entries : List (κ × ν)} (keys : (entries.map Prod.fst).Nodup) : entries.Nodup :=
    (List.pairwise_map.1 keys).imp fun differ same => differ (congrArg Prod.fst same)
  have keys : (((key, value) :: rest).map Prod.fst).Nodup :=
    (listed.map Prod.fst).nodup_iff.1 map.keys_nodup
  obtain ⟨absent, others⟩ := List.nodup_cons.1 keys
  refine (List.perm_ext_iff_of_nodup (distinct (keys_nodup _)) (distinct others)).2
    fun entry => ?_
  rw [mem_entries_erase, listed.mem_iff, List.mem_cons]
  constructor
  · rintro ⟨rfl | other, differs⟩
    · exact absurd rfl differs
    · exact other
  · intro member
    exact ⟨.inr member, fun same => absent (List.mem_map.2 ⟨entry, member, same⟩)⟩

/-- A map keeps some of the pairs it is built from, and drops the others. It drops none exactly if
no key occurs twice. -/
theorem ofList_entries_perm (pairs : List (κ × ν)) :
    ∃ dropped, pairs.Perm ((ofList pairs).entries ++ dropped) ∧
      (dropped = [] ↔ (pairs.map Prod.fst).Nodup) := by
  suffices parts : ∃ dropped, pairs.Perm ((ofList pairs).entries ++ dropped) ∧
      ((pairs.map Prod.fst).Nodup → dropped = []) by
    obtain ⟨dropped, perm, kept⟩ := parts
    refine ⟨dropped, perm, ?_, kept⟩
    rintro rfl
    rw [List.append_nil] at perm
    exact (perm.map Prod.fst).nodup_iff.2 (keys_nodup _)
  induction pairs with
  | nil => exact ⟨[], List.Perm.nil, fun _ => rfl⟩
  | cons head tail ih =>
      obtain ⟨dropped, perm, kept⟩ := ih
      cases present : (ofList tail).contains head.1 with
      | true =>
          refine ⟨head :: dropped, ?_, ?_⟩
          · rw [ofList_cons_of_listed present]
            exact (perm.cons head).trans List.perm_middle.symm
          · intro distinct
            rw [List.map_cons, List.nodup_cons] at distinct
            obtain ⟨value, found⟩ := Option.isSome_iff_exists.1 present
            have member := (find?_eq_some_iff _ _ _).1 found
            have again : (head.1, value) ∈ tail := perm.mem_iff.2 (List.mem_append_left _ member)
            exact absurd (List.mem_map.2 ⟨_, again, rfl⟩) distinct.1
      | false =>
          have fresh : (ofList tail).find? head.1 = none := by
            rwa [contains, Option.isSome_eq_false_iff, Option.isNone_iff_eq_none] at present
          refine ⟨dropped, ?_, ?_⟩
          · rw [ofList_cons_of_fresh fresh]
            exact (perm.cons head).trans ((insert_entries_perm _ _ _ fresh).symm.append_right _)
          · intro distinct
            rw [List.map_cons, List.nodup_cons] at distinct
            exact kept distinct.2

theorem ofList_eq_of_perm {pairs others : List (κ × ν)} (perm : pairs.Perm others)
    (distinct : (pairs.map Prod.fst).Nodup) : ofList pairs = ofList others := by
  have whole (listed : List (κ × ν)) (once : (listed.map Prod.fst).Nodup) :
      listed.Perm (ofList listed).entries := by
    obtain ⟨dropped, parts, none⟩ := ofList_entries_perm listed
    rwa [none.2 once, List.append_nil] at parts
  have same : (ofList pairs).entries.Perm (ofList others).entries :=
    ((whole pairs distinct).symm.trans perm).trans
      (whole others ((perm.map Prod.fst).nodup distinct))
  apply ext
  apply same.eq_of_pairwise _ (ofList pairs).ascending (ofList others).ascending
  intro first second _ _ before after
  grind

theorem length_ofList_le (pairs : List (κ × ν)) : (ofList pairs).entries.length ≤ pairs.length := by
  obtain ⟨dropped, perm, -⟩ := ofList_entries_perm pairs
  rw [perm.length_eq, List.length_append]
  exact Nat.le_add_right _ _

theorem mem_of_mem_ofList {pairs : List (κ × ν)} {pair : κ × ν}
    (member : pair ∈ (ofList pairs).entries) : pair ∈ pairs := by
  obtain ⟨dropped, perm, -⟩ := ofList_entries_perm pairs
  exact perm.mem_iff.2 (List.mem_append_left dropped member)

/-! ### What is listed last -/

/-- The map holds the keys that are listed, each with the value that it is listed with last. -/
def KeepsLast (map : KeyMap κ ν) (listed : List (κ × ν)) : Prop :=
  ∀ key value, map.find? key = some value ↔
    ∃ before after, listed = before ++ (key, value) :: after ∧ ∀ pair ∈ after, pair.1 ≠ key

section Listed

variable [DecidableEq κ]

theorem find?_ofList_cons (pair : κ × ν) (pairs : List (κ × ν)) (key : κ) :
    (ofList (pair :: pairs)).find? key =
      ((ofList pairs).find? key).or (if key = pair.1 then some pair.2 else none) := by
  cases present : (ofList pairs).find? pair.1 with
  | some value =>
      rw [ofList_cons_of_listed (Option.isSome_iff_exists.2 ⟨value, present⟩)]
      by_cases same : key = pair.1
      · rw [same, present, Option.some_or]
      · rw [if_neg same, Option.or_none]
  | none =>
      rw [ofList_cons_of_fresh present, find?_insert]
      by_cases same : key = pair.1
      · rw [if_pos same, if_pos same, same, present, Option.none_or]
      · rw [if_neg same, if_neg same, Option.or_none]

theorem find?_ofList_eq_none_iff (pairs : List (κ × ν)) (key : κ) :
    (ofList pairs).find? key = none ↔ ∀ pair ∈ pairs, pair.1 ≠ key := by
  induction pairs with
  | nil => exact iff_of_true rfl fun _ member => absurd member List.not_mem_nil
  | cons pair pairs ih =>
      rw [find?_ofList_cons, Option.or_eq_none_iff, ih, List.forall_mem_cons, and_comm]
      simp [eq_comm]

theorem keepsLast_ofList (pairs : List (κ × ν)) : (ofList pairs).KeepsLast pairs := by
  intro key value
  induction pairs with
  | nil =>
      constructor
      · intro found
        cases found
      · rintro ⟨before, after, split, -⟩
        exact absurd split.symm (List.append_ne_nil_of_right_ne_nil _ (List.cons_ne_nil _ _))
  | cons pair pairs ih =>
      rw [find?_ofList_cons, Option.or_eq_some_iff, ih, find?_ofList_eq_none_iff]
      constructor
      · rintro (⟨before, after, rfl, last⟩ | ⟨last, own⟩)
        · exact ⟨pair :: before, after, rfl, last⟩
        · rw [Option.ite_none_right_eq_some] at own
          obtain ⟨rfl, value⟩ := own
          cases value
          exact ⟨[], pairs, rfl, last⟩
      · rintro ⟨_ | ⟨first, before⟩, after, split, last⟩
        · cases split
          exact Or.inr ⟨last, if_pos rfl⟩
        · cases split
          exact Or.inl ⟨before, after, rfl, last⟩

end Listed

end Durability.KeyMap
