import Durability.KeyMap
import Durability.Number.Overflow
import Durability.Options.Basic

/-! The sizes of archived log segments. A bounded archive keeps the size of every segment and,
when it grows to its maximum, gives up the shortest run of oldest segments without which it
would be below its minimum. An unlimited archive keeps only its total. -/

namespace Durability

structure SizeWindow where
  min : Int
  max : Int
  deriving DecidableEq, Repr

/-- The archive: the bytes in all, those of each tracked segment, whether waiting for its size
is called off, and how often the callers that wait for its size have been signalled. -/
structure Archive where
  window : Option SizeWindow
  total : Int
  sizes : KeyMap Nat Int
  interrupted : Bool
  signals : Nat
  /-- What becomes of a difference of sizes that is out of range. -/
  onOverflow : Overflow
  deriving DecidableEq

structure GivenUp where
  count : Nat
  last : Nat
  deriving DecidableEq, Repr

namespace Archive

def clampSize (size : Nat) : Int := min (size : Int) 0x7fffffffffffffff

def ofOptions (options : WalOptions) (onOverflow : Overflow) : Archive :=
  { window := options.maxArchiveSize.map fun max =>
      { min := clampSize options.effectiveMin, max := clampSize max }
    total := 0
    sizes := .empty
    interrupted := false
    signals := 0
    onOverflow }

def isUnlimited (archive : Archive) : Bool := archive.window.isNone

def segmentSize? (archive : Archive) (segment : Nat) : Option Int :=
  archive.sizes.find? segment

def segments (archive : Archive) : List (Nat × Int) := archive.sizes.entries

/-- The run of oldest segments to give up so that less than `low` of `total` remains; all of
them if that is not enough, and none if there are none. -/
def giveUp (low : Int) : (total : Int) → (segments : List (Nat × Int)) → Option GivenUp
  | _, [] => none
  | total, (segment, size) :: rest =>
    if total - size < low then some { count := 1, last := segment }
    else match giveUp low (total - size) rest with
      | none => some { count := 1, last := segment }
      | some more => some { more with count := more.count + 1 }

def adjust (sizes : KeyMap Nat Int) (segment : Nat) (change : Int) : KeyMap Nat Int :=
  let size := (sizes.find? segment).getD 0 + change
  if size = 0 then sizes.erase segment else sizes.insert segment size

/-- Records `change` bytes of `segment`. Growth signals the callers that wait for the size. -/
def addSize (archive : Archive) (segment : Nat) (change : Int) : Archive :=
  { archive with
    total := archive.total + change
    sizes := if archive.isUnlimited then archive.sizes
      else adjust archive.sizes segment change
    signals := if 0 < change then archive.signals + 1 else archive.signals }

def overflow (archive : Archive) : Option GivenUp :=
  match archive.window with
  | none => none
  | some window =>
    if archive.total < window.max then none
    else giveUp window.min archive.total archive.segments

/-- How much the archive lacks of `size`, counted in signed 64-bit numbers. -/
def lack? (archive : Archive) (size : Int) : Option Int :=
  archive.onOverflow.word? (size - archive.total)

inductive Look where
  | lacking
  | reached
  | calledOff
  /-- What it lacks could not be computed. -/
  | broken
  deriving DecidableEq, Repr

def look (archive : Archive) (size : Int) : Look :=
  match archive.lack? size with
  | none => .broken
  | some lack =>
    if archive.interrupted then .calledOff else if 0 < lack then .lacking else .reached

def resetSizes (archive : Archive) : Archive :=
  { archive with total := 0, sizes := .empty }

def interrupt (archive : Archive) : Archive :=
  { archive with interrupted := true, signals := archive.signals + 1 }

def resume (archive : Archive) : Archive := { archive with interrupted := false }

end Archive

end Durability
