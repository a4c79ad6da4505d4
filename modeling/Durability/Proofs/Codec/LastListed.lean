import Durability.Proofs.Codec.Canonical

/-! Payloads that list a key again, or their keys in any order. The writer does neither, and the
readers take both: of the lists under one key the last counts, and the order of different keys does
not. The items of one list are kept as they are written, with their repeats. -/

namespace Durability

open Output

/-- Pairs of a key and a list, whose numbers fit their fields, are read as a map that keeps for each
key the list that stands last, and in any other order as the same map if no key is repeated. -/
def Reader.ReadsLastListed {κ β γ : Type} [LT κ] [DecidableLT κ] (reader : Reader γ) (width : Nat)
    (spell : List (κ × List β) → Output) (result : KeyMap κ (List β) → γ) : Prop :=
  ∀ listed, listed.length < BigEndian.capacity width →
    (∀ pair ∈ listed, pair.2.length < BigEndian.capacity width) →
      ∃ map : KeyMap κ (List β), map.KeepsLast listed ∧
        reader.Reads (spell listed).bytes (result map) ∧
        ∀ others, listed.Perm others → (listed.map Prod.fst).Nodup →
          reader.Reads (spell others).bytes (result map)

theorem Reader.readsLastListed_of_ofList {κ β γ : Type} [LT κ] [DecidableLT κ] [LE κ]
    [Std.IsLinearOrder κ] [Std.LawfulOrderLT κ] [DecidableEq κ] {reader : Reader γ} {width : Nat}
    {spell : List (κ × List β) → Output} {result : KeyMap κ (List β) → γ}
    (reads : ∀ listed, listed.length < BigEndian.capacity width →
      (∀ pair ∈ listed, pair.2.length < BigEndian.capacity width) →
        reader.Reads (spell listed).bytes (result (KeyMap.ofList listed))) :
    reader.ReadsLastListed width spell result := by
  intro listed count counts
  refine ⟨KeyMap.ofList listed, KeyMap.keepsLast_ofList listed, reads listed count counts, ?_⟩
  intro others perm distinct
  rw [KeyMap.ofList_eq_of_perm perm distinct]
  apply reads others
  · rwa [← perm.length_eq]
  · exact fun pair member => counts pair (perm.mem_iff.2 member)

namespace Codec

theorem readAs_spellMark (version : Version) (announced : UInt8) (mark : Option LogPointer)
    (announces : mark.isSome = (announced != 0)) :
    (spellMark version announced mark).ReadAs (readMark version)
      (mark.map (LogPointer.kept version)) := by
  have flag := (readAs_uint8 announced).map (· != 0)
  rw [← announces] at flag
  refine flag.bind ?_
  cases mark with
  | none => exact readAs_nil none
  | some pointer =>
      simp only [append_assoc]
      exact readAs_pointer version pointer

theorem readAs_spellCheckpoint (look : LookAhead) (version : Version) (id : CheckpointId)
    (announced : UInt8) (mark : Option LogPointer) (listed : List (Int32 × List PartitionState))
    (ended : UInt8) (announces : mark.isSome = (announced != 0))
    (count : listed.length < BigEndian.capacity 2)
    (counts : ∀ group ∈ listed, group.2.length < BigEndian.capacity 2) :
    (spellCheckpoint version id announced mark listed ended).ReadAs (readCheckpoint look version)
      { id, mark := mark.map (LogPointer.kept version), groups := KeyMap.ofList listed,
        isEnd := ended != 0 } := by
  unfold spellCheckpoint
  simp only [append_assoc]
  exact (readAs_uint64 _).bind ((readAs_uint64 _).bind
    ((readAs_spellMark version announced mark announces).bind
      ((readAs_groups look listed count counts).bind
        (((readAs_uint8 ended).map (· != 0)).last rfl))))

theorem readAs_spellTransaction (look : LookAhead) (state : TransactionState)
    (nearVersion writeVersion : CacheVersion) (listed : List (UInt16 × List UInt16))
    (timestamp : UInt64) (count : listed.length < BigEndian.capacity 4)
    (counts : ∀ participant ∈ listed, participant.2.length < BigEndian.capacity 4) :
    (spellTransaction state nearVersion writeVersion listed timestamp).ReadAs (readTransaction look)
      { state, nearVersion, writeVersion, participants := KeyMap.ofList listed, timestamp } := by
  unfold spellTransaction
  simp only [append_assoc]
  refine (readAs_uint8 _).bind ?_
  rw [TransactionState.ofId?_id]
  exact (readAs_cacheVersion _).bind ((readAs_cacheVersion _).bind
    ((readAs_participants look listed count counts).bind ((readAs_uint64 _).last rfl)))

/-- In both versions a checkpoint keeps, of the cache groups in its payload, the partitions of each
as they are listed last, and a transaction the backups of each primary node. -/
theorem read_lastListed (version : Version) :
    (∀ (id : CheckpointId) (announced : UInt8) (mark : Option LogPointer) (ended : UInt8),
      mark.isSome = (announced != 0) →
        (read version .checkpoint).ReadsLastListed 2
          (fun listed => spellCheckpoint version id announced mark listed ended)
          fun groups => .checkpoint
            { id, mark := mark.map (LogPointer.kept version), groups, isEnd := ended != 0 }) ∧
      (version.provides .transaction = true →
        ∀ (state : TransactionState) (nearVersion writeVersion : CacheVersion) (timestamp : UInt64),
          (read version .transaction).ReadsLastListed 4
            (fun listed => spellTransaction state nearVersion writeVersion listed timestamp)
            fun participants => .transaction
              { state, nearVersion, writeVersion, participants, timestamp }) := by
  constructor
  · intro id announced mark ended announces
    apply Reader.readsLastListed_of_ofList
    intro listed count counts
    obtain ⟨payload, spelled, -⟩ :=
      spelled_checkpoint version id announced mark listed ended announces count counts
    have reads := readAs_spellCheckpoint .checked version id announced mark listed ended announces
      count counts (congrArg Output.failure spelled)
    rw [read, readWith, if_pos (by cases version <;> rfl)]
    exact reads.map Record.checkpoint
  · intro provided state nearVersion writeVersion timestamp
    apply Reader.readsLastListed_of_ofList
    intro listed count counts
    obtain ⟨payload, spelled, -⟩ := spelled_transaction version state nearVersion writeVersion
      listed timestamp count counts
    have reads := readAs_spellTransaction .checked state nearVersion writeVersion listed timestamp
      count counts (congrArg Output.failure spelled)
    rw [read, readWith, if_pos provided]
    exact reads.map Record.transaction

def smallPartition : PartitionState :=
  { partition := 9, size := 300, updateCounter := 0, state := 1 }

def repeatedGroups : List (Int32 × List PartitionState) :=
  [(5, [smallPartition]), (-2, [smallPartition, smallPartition]), (5, [])]

theorem read_lastListed_repeatedGroups :
    (∃ groups : KeyMap Int32 (List PartitionState),
      groups.find? 5 = some [] ∧ groups.find? (-2) = some [smallPartition, smallPartition] ∧
        groups.find? 9 = none ∧
        (read .v1 .checkpoint).Reads
          ([0, 0, 0, 0, 0, 0, 0, 3, 0, 0, 0, 0, 0, 0, 0, 4, 0, 0, 3] ++
            repeatedGroups.flatMap (fun group => (writeGroup group).bytes) ++ [7])
          (.checkpoint { id := { high := 3, low := 4 }, mark := none, groups, isEnd := true })) ∧
      ∃ record, ∀ listed ∈ [[(7, [8, 8]), (3, [])], [(3, []), (7, [8, 8])]],
        (read .v2 .transaction).Reads
          (spellTransaction .prepared ⟨1, 2, 3⟩ ⟨4, 5, 6⟩ listed 99).bytes record := by
  constructor
  · obtain ⟨groups, keeps, reads, -⟩ := (read_lastListed .v1).1 { high := 3, low := 4 } 0 none 7 rfl
      repeatedGroups (by decide) (by decide)
    have last (key : Int32) (before after : List (Int32 × List PartitionState))
        (value : List PartitionState) (split : repeatedGroups = before ++ (key, value) :: after)
        (behind : ∀ pair ∈ after, pair.1 ≠ key) : groups.find? key = some value :=
      (keeps key value).2 ⟨before, after, split, behind⟩
    refine ⟨groups, last 5 (repeatedGroups.take 2) [] [] rfl (by decide),
      last (-2) (repeatedGroups.take 1) [(5, [])] _ rfl (by decide), ?_, reads⟩
    · rw [Option.eq_none_iff_forall_ne_some]
      intro value found
      obtain ⟨before, after, split, -⟩ := (keeps 9 value).1 found
      have member : (9, value) ∈ repeatedGroups := by
        rw [split]
        exact List.mem_append_right before List.mem_cons_self
      simp [repeatedGroups] at member
  · obtain ⟨participants, -, reads, swapped⟩ := (read_lastListed .v2).2 rfl .prepared ⟨1, 2, 3⟩
      ⟨4, 5, 6⟩ 99 [(7, [8, 8]), (3, [])] (by decide) (by decide)
    refine ⟨.transaction ⟨.prepared, ⟨1, 2, 3⟩, ⟨4, 5, 6⟩, participants, 99⟩, ?_⟩
    rw [List.forall_mem_cons, List.forall_mem_singleton]
    exact ⟨reads, swapped _ (List.Perm.swap _ _ []) (by decide)⟩

end Codec

end Durability
