import Durability.Config.Node
import Durability.Number.Rounding
import Durability.Options.Basic

/-! Settings from the content of a configuration document. A group of settings is written as a
table of them or as an array of their values in a fixed order; what is left out keeps its
default. -/

namespace Durability

open Config

inductive Mismatch where
  /-- A value of another kind or beyond its bounds, or an unknown setting. -/
  | unfit
  | archiveLimit (word : String)
  | version (number : UInt8)
  deriving DecidableEq, Repr

def Mismatch.message? : Mismatch → Option String
  | unfit => none
  | archiveLimit word =>
      some ("invalid wal archive size '" ++ word ++ "', expected bytes or \"unlimited\"")
  | version number => some (Error.unknownVersion number).message

structure Field (group : Type) where
  name : String
  set : Node → Except Mismatch (group → group)

namespace Field

variable {group : Type}

def apply (field : Field group) (current : group) (node : Node) : Except Mismatch group := do
  let change ← field.set node
  pure (change current)

def readInOrder (fields : List (Field group)) (start : group) (nodes : List Node) :
    Except Mismatch group :=
  (fields.zip nodes).foldlM (fun current (field, node) => field.apply current node) start

def readByName (fields : List (Field group)) (start : group) (entries : Entries) :
    Except Mismatch group :=
  entries.foldlM
    (fun current (name, node) =>
      match fields.find? (·.name = name) with
      | some field => field.apply current node
      | none => .error .unfit)
    start

/-- A group of settings in either way of writing it. Tables that repeat are an array of them. -/
def readGroup (fields : List (Field group)) (start : group) : Node → Except Mismatch group
  | .table _ entries => readByName fields start entries
  | .array items => readInOrder fields start items
  | .tables items => readInOrder fields start (items.map (.table .header))
  | _ => .error .unfit

end Field

namespace Config.Node

def natural : Node → Except Mismatch Nat
  | .integer (.ofNat value) => .ok value
  | _ => .error .unfit

def number : Node → Except Mismatch Float
  | .float value => .ok value
  | .integer (.ofNat value) => .ok (nearest value)
  | .integer (.negSucc value) => .ok (-nearest (value + 1))
  | _ => .error .unfit

def isEmptyCollection : Node → Bool
  | .array [] | .table _ [] | .tables [] => true
  | _ => false

end Config.Node

def lowerCase (character : Char) : Char :=
  if 'A' ≤ character ∧ character ≤ 'Z' then Char.ofNat (character.toNat + 32) else character

def archiveLimit : Node → Except Mismatch (Option Nat)
  | .integer (.ofNat value) => .ok (some value)
  | .integer (.negSucc _) => .ok none
  | .text word =>
    if word.toList.map lowerCase = "unlimited".toList then .ok none
    else .error (.archiveLimit word)
  | _ => .error .unfit

def Version.ofNode (node : Node) : Except Mismatch Version := do
  let value ← node.natural
  if value < 256 then
    match Version.ofNumber (UInt8.ofNat value) with
    | .ok version => .ok version
    | .error _ => .error (.version (UInt8.ofNat value))
  else .error .unfit

namespace ThrottlingPolicy

def name : ThrottlingPolicy → String
  | disabled => "disabled"
  | targetRatio => "target_ratio"
  | checkpointBufferOnly => "checkpoint_buffer_only"
  | speedBased => "speed_based"

def all : List ThrottlingPolicy := [disabled, targetRatio, checkpointBufferOnly, speedBased]

def named (name : String) : Except Mismatch ThrottlingPolicy :=
  match all.find? (·.name = name) with
  | some policy => .ok policy
  | none => .error .unfit

theorem named_name (policy : ThrottlingPolicy) : named policy.name = .ok policy := by
  cases policy <;> rfl

/-- A policy by its name, or as the only key of a table, which then holds nothing. -/
def ofNode : Node → Except Mismatch ThrottlingPolicy
  | .text name => named name
  | .table _ [(name, content)] =>
    if content.isEmptyCollection then named name else .error .unfit
  | _ => .error .unfit

end ThrottlingPolicy

def WalOptions.fields : List (Field WalOptions) :=
  [{ name := "min_wal_archive_size"
     set node := do
       let value ← node.natural
       pure fun options => { options with minArchiveSize := some value } },
   { name := "max_wal_archive_size"
     set node := do
       let value ← archiveLimit node
       pure fun options => { options with maxArchiveSize := value } },
   { name := "serializer_version"
     set node := do
       let value ← Version.ofNode node
       pure fun options => { options with version := value } }]

def ThrottleOptions.fields : List (Field ThrottleOptions) :=
  [{ name := "policy"
     set node := do
       let value ← ThrottlingPolicy.ofNode node
       pure fun options => { options with policy := value } },
   { name := "cp_buffer_fill_threshold"
     set node := do
       let value ← node.number
       pure fun options => { options with bufferFillThreshold := value } },
   { name := "warn_threshold"
     set node := do
       let value ← node.number
       pure fun options => { options with warnThreshold := value } },
   { name := "warn_min_delay_ms"
     set node := do
       let value ← node.natural
       pure fun options => { options with warnMinDelayMillis := value } },
   { name := "starting_park_nanos"
     set node := do
       let value ← node.natural
       pure fun options => { options with startingParkNanos := value } },
   { name := "backoff_ratio"
     set node := do
       let value ← node.number
       pure fun options => { options with backoffRatio := value } }]

def DurabilityOptions.fields : List (Field DurabilityOptions) :=
  [{ name := "wal"
     set node := do
       let wal ← Field.readGroup WalOptions.fields .default node
       pure fun options => { options with wal } },
   { name := "throttle"
     set node := do
       let throttle ← Field.readGroup ThrottleOptions.fields .default node
       pure fun options => { options with throttle } }]

end Durability
