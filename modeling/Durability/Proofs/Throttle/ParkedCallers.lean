import Durability.Proofs.KeyMap
import Durability.Throttle.Parking
import Durability.Throttle.Sleepers
import Mathlib.Algebra.Group.Nat.Defs
import Mathlib.Data.List.Basic

/-! Parked callers as sleepers. All that counts about a signal is whether it was given, so a blocked
caller is one that sleeps until its time or until it is woken. As long as nobody draws an id that a
parked caller has, the registry holds the signals of just those who are parked, no two of them share
one, and whatever is asked of a host is done to its sleepers: waking all wakes those that park, and
nothing else wakes them. -/

namespace Durability

namespace Signals

theorem isGiven_make (signals : Signals) (signal : Nat) :
    signals.make.2.isGiven signal = signals.isGiven signal := by
  change ((signals.given ++ [false])[signal]?).getD false = (signals.given[signal]?).getD false
  grind

theorem isGiven_made (signals : Signals) : signals.isGiven signals.make.1 = false :=
  congrArg (·.getD false) (List.getElem?_eq_none (Nat.le_refl signals.given.length))

theorem isGiven_give {signals : Signals} {signal : Nat} (made : signal < signals.given.length)
    (other : Nat) :
    (signals.give other).isGiven signal = (signals.isGiven signal || signal == other) := by
  change ((signals.given.set other true)[signal]?).getD false =
    ((signals.given[signal]?).getD false || _)
  grind

theorem length_giveAll (signals : Signals) (all : List Nat) :
    (all.foldl give signals).given.length = signals.given.length := by
  induction all generalizing signals with
  | nil => rfl
  | cons first all ih => exact (ih _).trans List.length_set

theorem isGiven_giveAll {signals : Signals} {signal : Nat} (made : signal < signals.given.length)
    (all : List Nat) :
    (all.foldl give signals).isGiven signal = (signals.isGiven signal || all.contains signal) := by
  induction all generalizing signals with
  | nil => exact (Bool.or_false _).symm
  | cons first all ih =>
      rw [List.foldl_cons, ih, isGiven_give made, List.contains_cons, Bool.or_assoc]
      exact Nat.lt_of_lt_of_eq made List.length_set.symm

end Signals

def Waiter.sleeper (signals : Signals) (waiter : Waiter) : Sleeper ParkingTask :=
  { number := waiter.number
    deadline := waiter.deadline
    woken := signals.isGiven waiter.signal
    task := if waiter.id.isSome then .park else .wait }

def Waiter.listed? (waiter : Waiter) : Option (UInt64 × Nat) := waiter.id.map (·, waiter.signal)

namespace ParkingHost

def sleepers (host : ParkingHost) : List (Sleeper ParkingTask) :=
  host.waiters.map (·.sleeper host.signals)

def entries (host : ParkingHost) : List (UInt64 × Nat) := host.waiters.filterMap (·.listed?)

def awaited (host : ParkingHost) : List Nat := host.token :: host.entries.map (·.2)

def DrawsNew (host : ParkingHost) : Prop :=
  host.registry.parked.find? host.registry.nextId = none

/-- The registry holds one entry for each caller that parks, with a signal that nobody else waits
for. Those who do not park wait for the signal beside the registry. -/
structure Listed (host : ParkingHost) : Prop where
  registry : host.registry.parked.entries.Perm host.entries
  distinct : host.awaited.Nodup
  made : ∀ signal ∈ host.awaited, signal < host.signals.given.length
  beside : ∀ waiter ∈ host.waiters, waiter.id = none → waiter.signal = host.token

theorem listed_new : new.Listed :=
  ⟨.rfl, by decide, by decide, fun _ member => absurd member List.not_mem_nil⟩

variable {host : ParkingHost}

theorem Listed.mem_signals_iff (listed : host.Listed) {waiter : Waiter}
    (member : waiter ∈ host.waiters) :
    waiter.signal ∈ host.entries.map (·.2) ↔ waiter.id.isSome := by
  cases own : waiter.id with
  | none =>
      have token := (List.nodup_cons.1 listed.distinct).1
      rw [← listed.beside waiter member own] at token
      exact iff_of_false token Bool.false_ne_true
  | some id =>
      have entry : (id, waiter.signal) ∈ host.entries :=
        List.mem_filterMap.2 ⟨waiter, member, congrArg (Option.map (·, waiter.signal)) own⟩
      exact iff_of_true (List.mem_map.2 ⟨_, entry, rfl⟩) rfl

theorem Listed.signal_made (listed : host.Listed) {waiter : Waiter}
    (member : waiter ∈ host.waiters) : waiter.signal < host.signals.given.length := by
  refine listed.made _ ?_
  cases own : waiter.id with
  | none =>
      rw [listed.beside waiter member own]
      exact List.mem_cons_self
  | some id =>
      exact List.mem_cons_of_mem _ ((listed.mem_signals_iff member).2 (by rw [own]; rfl))

theorem Listed.parked (listed : host.Listed) :
    host.parked = host.sleepers.countP (·.task == .park) := by
  change host.registry.parked.entries.length = _
  rw [listed.registry.length_eq, entries, List.length_filterMap_eq_countP, sleepers,
    List.countP_map]
  refine List.countP_congr fun waiter _ => ?_
  cases own : waiter.id <;> simp [Waiter.listed?, Waiter.sleeper, own]

/-! ### Waking -/

theorem Listed.give (listed : host.Listed) (all : List Nat) :
    { host with signals := all.foldl .give host.signals }.Listed :=
  ⟨listed.registry, listed.distinct,
    fun signal member => Nat.lt_of_lt_of_eq (listed.made signal member)
      (Signals.length_giveAll _ _).symm,
    listed.beside⟩

theorem Listed.sleepers_give (listed : host.Listed) (all : List Nat) (meant : ParkingTask → Bool)
    (found : ∀ waiter ∈ host.waiters,
      all.contains waiter.signal = meant (waiter.sleeper host.signals).task) :
    { host with signals := all.foldl .give host.signals }.sleepers =
      host.sleepers.map (·.wakeIf meant) := by
  rw [sleepers, sleepers, List.map_map]
  refine List.map_congr_left fun waiter member => ?_
  have given := Signals.isGiven_giveAll (listed.signal_made member) all
  rw [found waiter member] at given
  rw [Waiter.sleeper, given]
  rfl

theorem Listed.sleepers_unparkAll (listed : host.Listed) :
    host.unparkAll.2.sleepers = host.sleepers.map (·.wakeIf (· == .park)) := by
  refine listed.sleepers_give _ _ fun waiter member => ?_
  have values : host.registry.parked.values.Perm (host.entries.map (·.2)) :=
    listed.registry.map _
  rw [Bool.eq_iff_iff, List.contains_iff_mem, values.mem_iff, listed.mem_signals_iff member]
  cases own : waiter.id <;> simp [Waiter.sleeper, own]

theorem Listed.sleepers_cancel (listed : host.Listed) :
    host.cancel.sleepers = host.sleepers.map (·.wakeIf (· == .wait)) := by
  refine listed.sleepers_give [host.token] _ fun waiter member => ?_
  rw [Bool.eq_iff_iff, List.contains_iff_mem, List.mem_singleton]
  cases own : waiter.id with
  | none => simp [Waiter.sleeper, own, listed.beside waiter member own]
  | some id =>
      have park := (listed.mem_signals_iff member).2 (by rw [own]; rfl)
      have other : waiter.signal ≠ host.token := fun same =>
        (List.nodup_cons.1 listed.distinct).1 (same ▸ park)
      simp [Waiter.sleeper, own, other]

/-! ### Blocking -/

theorem sleepers_block (host : ParkingHost) (signal : Nat) (id : Option UInt64)
    (nanos : Option Nat) :
    (host.block signal id nanos).sleepers = host.sleepers ++
      [{ number := host.started
         deadline := nanos.map (host.clock + ·)
         woken := host.signals.isGiven signal
         task := if id.isSome then .park else .wait }] :=
  List.map_append

theorem sleepers_enter (host : ParkingHost) : host.enter.2.sleepers = host.sleepers :=
  List.map_congr_left fun waiter _ => by
    rw [Waiter.sleeper, Waiter.sleeper]
    congr 1
    exact host.signals.isGiven_make waiter.signal

theorem enter_unwoken (host : ParkingHost) :
    host.enter.2.signals.isGiven host.enter.1.2 = false :=
  (host.signals.isGiven_make _).trans host.signals.isGiven_made

theorem sleepers_start (host : ParkingHost) (task : ParkingTask) (nanos : Option Nat) :
    (host.start task nanos).sleepers = host.sleepers ++
      [{ number := host.started
         deadline := nanos.map (host.clock + ·)
         woken := task == .wait && host.cancelled
         task }] := by
  cases task with
  | wait => exact host.sleepers_block host.token none nanos
  | park =>
      have blocked := host.enter.2.sleepers_block host.enter.1.2 (some host.enter.1.1) nanos
      rwa [enter_unwoken, sleepers_enter] at blocked

theorem entries_block (host : ParkingHost) (signal : Nat) (id : Option UInt64)
    (nanos : Option Nat) :
    (host.block signal id nanos).entries = host.entries ++ (id.map (·, signal)).toList := by
  cases id <;> exact List.filterMap_append

theorem Listed.startWait (listed : host.Listed) (nanos : Option Nat) :
    (host.start .wait nanos).Listed := by
  have entries : (host.start .wait nanos).entries = host.entries :=
    (host.entries_block host.token none nanos).trans (List.append_nil _)
  refine ⟨?_, ?_, ?_, ?_⟩
  · rw [entries]
    exact listed.registry
  · rw [awaited, entries]
    exact listed.distinct
  · rw [awaited, entries]
    exact listed.made
  · exact List.forall_mem_append.2
      ⟨listed.beside, List.forall_mem_singleton.2 fun _ => rfl⟩

theorem Listed.startPark (listed : host.Listed) (drawsNew : host.DrawsNew) (nanos : Option Nat) :
    (host.start .park nanos).Listed := by
  have entries : (host.start .park nanos).entries = host.entries ++ [host.enter.1] :=
    host.enter.2.entries_block host.enter.1.2 (some host.enter.1.1) nanos
  have awaited : (host.start .park nanos).awaited =
      host.awaited ++ [host.signals.given.length] := by
    rw [awaited, entries, List.map_append]
    rfl
  refine ⟨?_, ?_, ?_, ?_⟩
  · rw [entries]
    exact (KeyMap.insert_entries_perm _ _ _ drawsNew).trans
      ((listed.registry.cons _).trans (List.perm_append_singleton _ _).symm)
  · rw [awaited]
    refine List.nodup_append.2 ⟨listed.distinct, List.pairwise_singleton _ _, ?_⟩
    intro signal member other same
    rw [List.mem_singleton.1 same]
    exact Nat.ne_of_lt (listed.made signal member)
  · have length : (host.start .park nanos).signals.given.length =
        host.signals.given.length + 1 := List.length_append
    rw [awaited, length]
    exact List.forall_mem_append.2
      ⟨fun signal member => Nat.lt_succ_of_lt (listed.made signal member),
        List.forall_mem_singleton.2 (Nat.lt_succ_self _)⟩
  · exact List.forall_mem_append.2
      ⟨listed.beside, List.forall_mem_singleton.2 fun absent => nomatch absent⟩

theorem park_eq (host : ParkingHost) (nanos : Nat) :
    host.park nanos = (false, (host.enter.2.advance nanos).leave host.enter.1.1) := by
  have waits : host.enter.2.waitFor host.enter.1.2 nanos =
      (false, host.enter.2.advance nanos) := by
    have unwoken := host.enter_unwoken
    simp only [waitFor, unwoken, Bool.false_eq_true, if_false]
    exact Prod.ext unwoken rfl
  exact congrArg (fun waited => (waited.1, waited.2.leave host.enter.1.1)) waits

theorem sleepers_park (host : ParkingHost) (nanos : Nat) :
    (host.park nanos).2.sleepers = host.sleepers := by
  rw [park_eq]
  exact host.sleepers_enter

theorem Listed.park (listed : host.Listed) (drawsNew : host.DrawsNew) (nanos : Nat) :
    (host.park nanos).2.Listed := by
  rw [park_eq]
  have entered : host.enter.2.registry.parked.entries.Perm (host.enter.1 :: host.entries) :=
    (KeyMap.insert_entries_perm _ _ _ drawsNew).trans (listed.registry.cons _)
  refine ⟨KeyMap.erase_entries_perm entered, listed.distinct, ?_, listed.beside⟩
  have length : host.enter.2.signals.given.length = host.signals.given.length + 1 :=
    List.length_append
  intro signal member
  exact Nat.lt_of_lt_of_eq (Nat.lt_succ_of_lt (listed.made signal member)) length.symm

/-! ### Going on -/

theorem releases_eq (host : ParkingHost) (gone : List Waiter) :
    ∃ registry, gone.foldl release host = { host with registry } := by
  induction gone generalizing host with
  | nil => exact ⟨host.registry, rfl⟩
  | cons waiter gone ih =>
      obtain ⟨registry, eq⟩ := ih (host.release waiter)
      refine ⟨registry, eq.trans ?_⟩
      rw [release]
      cases waiter.id <;> rfl

theorem entries_releases (gone : List Waiter) {rest : List (UInt64 × Nat)}
    (listed : host.registry.parked.entries.Perm (gone.filterMap (·.listed?) ++ rest)) :
    (gone.foldl release host).registry.parked.entries.Perm rest := by
  induction gone generalizing host with
  | nil => exact listed
  | cons waiter gone ih =>
      cases own : waiter.id with
      | none =>
          have released : release host waiter = host := by rw [release, own]
          have none : waiter.listed? = none := congrArg (Option.map (·, waiter.signal)) own
          rw [List.filterMap_cons, none] at listed
          rw [List.foldl_cons, released]
          exact ih listed
      | some id =>
          have released : release host waiter = host.leave id := by rw [release, own]
          have entry : waiter.listed? = some (id, waiter.signal) :=
            congrArg (Option.map (·, waiter.signal)) own
          rw [List.filterMap_cons, entry] at listed
          rw [List.foldl_cons, released]
          exact @ih (host.leave id) (KeyMap.erase_entries_perm listed)

theorem settle_eq (host : ParkingHost) :
    ∃ registry, host.settle.1 =
      { host with waiters := host.waiters.filter (!host.canRun ·), registry } :=
  releases_eq _ _

theorem settle_clock (host : ParkingHost) : host.settle.1.clock = host.clock := by
  obtain ⟨registry, eq⟩ := host.settle_eq
  rw [eq]

theorem settle_started (host : ParkingHost) : host.settle.1.started = host.started := by
  obtain ⟨registry, eq⟩ := host.settle_eq
  rw [eq]

theorem sleepers_settle (host : ParkingHost) :
    host.settle.1.sleepers = host.sleepers.filter (!·.canRun host.clock) ∧
      host.settle.2 = (host.sleepers.filter (·.canRun host.clock)).map
        fun sleeper => (sleeper.number, sleeper.woken) := by
  obtain ⟨registry, eq⟩ := host.settle_eq
  constructor
  · rw [eq, sleepers, sleepers, List.filter_map]
    rfl
  · rw [sleepers, List.filter_map, List.map_map]
    rfl

theorem Listed.settle (listed : host.Listed) : host.settle.1.Listed := by
  let left : ParkingHost := { host with waiters := host.waiters.filter (!host.canRun ·) }
  have fewer : left.waiters.Sublist host.waiters := List.filter_sublist
  have awaited : left.awaited.Sublist host.awaited := ((fewer.filterMap _).map _).cons_cons _
  have parts : left.registry.parked.entries.Perm
      ((host.waiters.filter host.canRun).filterMap (·.listed?) ++ left.entries) := by
    have all := (List.filter_append_perm host.canRun host.waiters).symm.filterMap (·.listed?)
    rw [List.filterMap_append] at all
    exact listed.registry.trans all
  have rest : host.settle.1.registry.parked.entries.Perm left.entries := entries_releases _ parts
  obtain ⟨registry, eq⟩ := host.settle_eq
  rw [eq] at rest ⊢
  exact ⟨rest, listed.distinct.sublist awaited,
    fun signal member => listed.made signal (awaited.subset member),
    fun waiter member => listed.beside waiter (fewer.subset member)⟩

/-! ### All operations -/

inductive Operation where
  | start (task : ParkingTask) (nanos : Option Nat)
  | park (nanos : Nat)
  | wait (nanos : Nat)
  | unparkAll
  | cancel
  | advance (nanos : Nat)
  | settle

def Operation.parks : Operation → Bool
  | start task _ => task == .park
  | park _ => true
  | wait _ | unparkAll | cancel | advance _ | settle => false

def after (host : ParkingHost) : Operation → ParkingHost
  | .start task nanos => host.start task nanos
  | .park nanos => (host.park nanos).2
  | .wait nanos => (host.wait nanos).2
  | .unparkAll => host.unparkAll.2
  | .cancel => host.cancel
  | .advance nanos => host.advance nanos
  | .settle => host.settle.1

/-- What an operation does to the sleepers. -/
def sleepersAfter (host : ParkingHost) : Operation → List (Sleeper ParkingTask)
  | .start task nanos =>
    host.sleepers ++
      [{ number := host.started
         deadline := nanos.map (host.clock + ·)
         woken := task == .wait && host.cancelled
         task }]
  | .park _ | .wait _ | .advance _ => host.sleepers
  | .unparkAll => host.sleepers.map (·.wakeIf (· == .park))
  | .cancel => host.sleepers.map (·.wakeIf (· == .wait))
  | .settle => host.sleepers.filter (!·.canRun host.clock)

/-- A host does to its registry and its signals what it is to do to its sleepers. -/
theorem Listed.after (listed : host.Listed) {operation : Operation}
    (drawsNew : operation.parks = true → host.DrawsNew) :
    (host.after operation).Listed ∧
      (host.after operation).sleepers = host.sleepersAfter operation := by
  have elsewhen (clock : Nat) : { host with clock }.Listed :=
    ⟨listed.registry, listed.distinct, listed.made, listed.beside⟩
  cases operation with
  | start task nanos =>
      refine ⟨?_, host.sleepers_start task nanos⟩
      cases task with
      | park => exact listed.startPark (drawsNew rfl) nanos
      | wait => exact listed.startWait nanos
  | park nanos => exact ⟨listed.park (drawsNew rfl) nanos, host.sleepers_park nanos⟩
  | wait nanos =>
      have waited : (host.wait nanos).2 = if host.cancelled then host else host.advance nanos := rfl
      rw [ParkingHost.after, waited, sleepersAfter]
      split
      · exact ⟨listed, rfl⟩
      · exact ⟨elsewhen _, rfl⟩
  | unparkAll => exact ⟨listed.give _, listed.sleepers_unparkAll⟩
  | cancel => exact ⟨listed.give [host.token], listed.sleepers_cancel⟩
  | advance nanos => exact ⟨elsewhen _, rfl⟩
  | settle => exact ⟨listed.settle, host.sleepers_settle.1⟩

end ParkingHost

/-! ### Ids -/

structure Registry.Drawn (registry : Registry) (count : Nat) : Prop where
  next : registry.nextId = UInt64.ofNat count
  earlier : ∀ entry ∈ registry.parked.entries, entry.1.toNat < count

namespace Registry.Drawn

variable {registry : Registry} {count : Nat}

theorem enter (drawn : registry.Drawn count) (signal : Nat) :
    (registry.enter signal).2.Drawn (count + 1) := by
  constructor
  · change registry.nextId + 1 = _
    rw [drawn.next, UInt64.ofNat_add]
    rfl
  · intro entry member
    rcases (KeyMap.mem_entries_insert _ _ _ entry).1 member with rfl | ⟨before, -⟩
    · change registry.nextId.toNat < count + 1
      rw [drawn.next, UInt64.toNat_ofNat']
      exact Nat.lt_succ_of_le (Nat.mod_le _ _)
    · exact Nat.lt_succ_of_lt (drawn.earlier entry before)

theorem leave (drawn : registry.Drawn count) (id : UInt64) : (registry.leave id).Drawn count :=
  ⟨drawn.next, fun entry member =>
    drawn.earlier entry ((KeyMap.mem_entries_erase _ _ entry).1 member).1⟩

theorem drawsNew {host : ParkingHost} (drawn : host.registry.Drawn count) (few : count < 2 ^ 64) :
    host.DrawsNew := by
  refine (KeyMap.find?_eq_none_iff _ _).2 fun entry member same => ?_
  have before := drawn.earlier entry member
  rw [same, drawn.next, UInt64.toNat_ofNat', Nat.mod_eq_of_lt few] at before
  exact Nat.lt_irrefl _ before

theorem release {host : ParkingHost} (drawn : host.registry.Drawn count) (waiter : Waiter) :
    (host.release waiter).registry.Drawn count := by
  rw [ParkingHost.release]
  cases waiter.id with
  | none => exact drawn
  | some id => exact drawn.leave id

theorem settle {host : ParkingHost} (drawn : host.registry.Drawn count) :
    host.settle.1.registry.Drawn count := by
  let left : ParkingHost := { host with waiters := host.waiters.filter (!host.canRun ·) }
  have start : left.registry.Drawn count := drawn
  exact List.foldlRecOn (motive := fun host => host.registry.Drawn count)
    (host.waiters.filter host.canRun) ParkingHost.release start
    fun _ before waiter _ => before.release waiter

end Registry.Drawn

end Durability
