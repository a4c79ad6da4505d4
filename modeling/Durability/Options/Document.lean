import Durability.Config.Document
import Durability.Options.Consistency
import Durability.Options.Fields

/-! The settings that a configuration document gives, or why it gives none: it cannot be read, it
is no document, a value does not fit its setting, or the settings do not go together. The causes
are looked for in this order. -/

namespace Durability

open Config

inductive ConfigError where
  | missing
  | notText
  | notADocument
  | mismatch (cause : Mismatch)
  | inconsistent (cause : Inconsistency)

def ConfigError.message? : ConfigError → Option String
  | mismatch cause => cause.message?
  | inconsistent cause => some ("invalid durability config: " ++ cause.message)
  | _ => none

namespace DurabilityOptions

def checked (options : DurabilityOptions) : Except ConfigError DurabilityOptions :=
  match options.inconsistency? with
  | some cause => .error (.inconsistent cause)
  | none => .ok options

theorem inconsistency?_of_checked {options result : DurabilityOptions}
    (accepted : options.checked = .ok result) :
    result = options ∧ options.inconsistency? = none := by
  unfold checked at accepted
  split at accepted
  · cases accepted
  · next consistent => exact ⟨(Except.ok.inj accepted).symm, consistent⟩

def ofText (text : String) : Except ConfigError DurabilityOptions :=
  match Entries.ofText? text with
  | none => .error .notADocument
  | some entries =>
    match Field.readByName fields default entries with
    | .error cause => .error (.mismatch cause)
    | .ok options => options.checked

def ofFile : Option (List UInt8) → Except ConfigError DurabilityOptions
  | none => .error .missing
  | some bytes =>
    match String.fromUTF8? bytes.toByteArray with
    | none => .error .notText
    | some text => ofText text

end DurabilityOptions

end Durability
