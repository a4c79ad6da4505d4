import Durability.Proofs.Throttle.RecentPast
import Mathlib.Data.List.Induction

/-! The intervals of a meter, whatever it is asked and at whatever times. A call may close the
current interval, and then it counts in the one that is current, or sets its running total, or
restarts it. None of this leaves a closed interval that ends before it starts, nor makes a running
total fall within an interval, as long as none of them is full. Where clocks go back, intervals may
overlap; where they do not, the intervals follow one another, but for the first, which starts when
the meter is built. -/

namespace Durability

namespace Meter

def Call.total? : Call → Option Nat
  | setCounter total | restart total => some total
  | _ => none

def totals (calls : List TimedCall) : List Nat := calls.filterMap (·.call.total?)

theorem totals_append (calls others : List TimedCall) :
    totals (calls ++ others) = totals calls ++ totals others :=
  List.filterMap_append

/-! ### One call -/

inductive Takes (made : TimedCall) (interval : Interval) : Interval → Prop
  | keeps {sum samples : Nat} : Takes made interval { interval with sum, samples }
  | counts (increment : made.call = .increment) : Takes made interval interval.count
  | sets {total : Nat} (set : made.call.total? = some total) (le : interval.counter ≤ total) :
      Takes made interval { interval with counter := total }
  | restarts {total : Nat} (set : made.call.total? = some total) :
      Takes made interval (.starting made.now total)

theorem takes_after (meter : Meter) (made : TimedCall) :
    ∃ entered current, (entered = meter ∨ entered = meter.finish made.now) ∧
      Takes made entered.current current ∧ meter.after made = { entered with current } := by
  have rotated : meter.rotate made.now = meter ∨ meter.rotate made.now = meter.finish made.now := by
    unfold rotate
    split
    · exact .inr rfl
    · exact .inl rfl
  obtain ⟨call, now⟩ := made
  cases call with
  | increment => exact ⟨meter.rotate now, _, rotated, .counts rfl, rfl⟩
  | addSample | readSpeed => exact ⟨meter.rotate now, _, rotated, .keeps, rfl⟩
  | average => exact ⟨meter, _, .inl rfl, .keeps, rfl⟩
  | finish => exact ⟨meter.finish now, _, .inr rfl, .keeps, rfl⟩
  | restart total => exact ⟨meter, _, .inl rfl, .restarts rfl, rfl⟩
  | setCounter total =>
      by_cases falls : total < (meter.rotate now).current.counter
      · exact ⟨meter.rotate now, _, rotated, .restarts rfl, if_pos falls⟩
      · exact ⟨meter.rotate now, _, rotated, .sets rfl (Nat.not_lt.mp falls), if_neg falls⟩

section Each

variable {kept other : Interval → Prop} {meter : Meter}

theorem forall_intervals_finish (before : ∀ interval ∈ meter.intervals, kept interval)
    (close : ∀ interval now, kept interval → kept (interval.close now))
    (next : ∀ interval now, kept interval → kept (.starting now interval.counter)) (now : Nat) :
    ∀ interval ∈ (meter.finish now).intervals, kept interval := by
  obtain ⟨closed, current⟩ := List.forall_mem_append.mp before
  have running : kept meter.current := current _ (List.mem_singleton_self _)
  refine List.forall_mem_append.mpr ⟨fun interval member => ?_, ?_⟩
  · rcases List.mem_append.mp (List.mem_of_mem_drop member) with old | last
    · exact closed interval old
    · exact List.mem_singleton.mp last ▸ close _ now running
  · exact List.forall_mem_singleton.mpr (next _ now running)

theorem forall_intervals_after {made : TimedCall}
    (before : ∀ interval ∈ meter.intervals, kept interval)
    (close : ∀ interval now, kept interval → kept (interval.close now))
    (next : ∀ interval now, kept interval → kept (.starting now interval.counter))
    (still : ∀ interval, kept interval → other interval)
    (takes : ∀ interval current, interval.counter = meter.current.counter → kept interval →
      Takes made interval current → other current) :
    ∀ interval ∈ (meter.after made).intervals, other interval := by
  obtain ⟨entered, current, rotated, taken, same⟩ := meter.takes_after made
  have entering : ∀ interval ∈ entered.intervals, kept interval := by
    rcases rotated with rfl | rfl
    · exact before
    · exact forall_intervals_finish before close next made.now
  have total : entered.current.counter = meter.current.counter := by
    rcases rotated with rfl | rfl <;> rfl
  obtain ⟨closed, running⟩ := List.forall_mem_append.mp entering
  rw [same]
  refine List.forall_mem_append.mpr ⟨fun interval member => still _ (closed interval member), ?_⟩
  exact List.forall_mem_singleton.mpr
    (takes _ _ total (running _ (List.mem_singleton_self _)) taken)

end Each

theorem maxIntervals_after (meter : Meter) (made : TimedCall) :
    (meter.after made).maxIntervals = meter.maxIntervals := by
  obtain ⟨entered, current, rotated, -, same⟩ := meter.takes_after made
  rw [same]
  rcases rotated with rfl | rfl <;> rfl

theorem run_concat (meter : Meter) (calls : List TimedCall) (made : TimedCall) :
    meter.run (calls ++ [made]) = (meter.run calls).after made :=
  meter.run_append calls [made]

theorem maxIntervals_run (meter : Meter) (calls : List TimedCall) :
    (meter.run calls).maxIntervals = meter.maxIntervals := by
  induction calls generalizing meter with
  | nil => rfl
  | cons made calls ih => exact (ih (meter.after made)).trans (meter.maxIntervals_after made)

/-! ### Whatever the times -/

/-- No more intervals are retained than there may be, each of them is closed and does not end before
it starts, and the current one is open. -/
structure Regular (meter : Meter) : Prop where
  few : meter.closed.length ≤ meter.maxIntervals
  ended : ∀ interval ∈ meter.closed, ∃ stop, interval.stop = some stop ∧ interval.start ≤ stop
  running : meter.current.stop = none

theorem regular_new (intervalNanos maxIntervals start : Nat) :
    Regular (new intervalNanos maxIntervals start) where
  few := Nat.zero_le _
  ended := nofun
  running := rfl

variable {meter : Meter}

theorem Regular.finish (regular : Regular meter) (now : Nat) : Regular (meter.finish now) where
  few := by
    simp only [Meter.finish, List.length_drop]
    omega
  ended interval member := by
    rcases List.mem_append.mp (List.mem_of_mem_drop member) with old | last
    · exact regular.ended interval old
    · exact List.mem_singleton.mp last ▸ ⟨_, rfl, Nat.le_max_right _ _⟩
  running := rfl

theorem Regular.after (regular : Regular meter) (made : TimedCall) :
    Regular (meter.after made) := by
  obtain ⟨entered, current, rotated, taken, same⟩ := meter.takes_after made
  have entering : Regular entered := by
    rcases rotated with rfl | rfl
    · exact regular
    · exact regular.finish made.now
  have running : current.stop = none := by
    cases taken with
    | keeps | counts | sets => exact entering.running
    | restarts => rfl
  rw [same]
  exact ⟨entering.few, entering.ended, running⟩

theorem regular_run (intervalNanos maxIntervals start : Nat) (calls : List TimedCall) :
    Regular ((new intervalNanos maxIntervals start).run calls) := by
  induction calls using List.reverseRecOn with
  | nil => exact regular_new intervalNanos maxIntervals start
  | append_singleton calls made ih =>
      rw [run_concat]
      exact ih.after made

/-! ### Running totals -/

/-- No operation is counted on top of a running total that is full. -/
def NeverFull (meter : Meter) : List TimedCall → Prop
  | [] => True
  | made :: calls =>
    (made.call = .increment → meter.current.counter < largest64) ∧
      (meter.after made).NeverFull calls

theorem neverFull_concat {meter : Meter} {calls : List TimedCall} {made : TimedCall} :
    meter.NeverFull (calls ++ [made]) ↔ meter.NeverFull calls ∧
      (made.call = .increment → (meter.run calls).current.counter < largest64) := by
  induction calls generalizing meter with
  | nil => exact ⟨fun never => ⟨trivial, never.1⟩, fun never => ⟨never.2, trivial⟩⟩
  | cons first calls ih => exact (and_congr_right fun _ => ih).trans and_assoc.symm

/-- The running total of an interval has not fallen within it. It goes back to one that some call
has set, or to zero, and has no more on top of it than these calls have counted. -/
structure Traced (calls : List TimedCall) (interval : Interval) : Prop where
  rising : interval.initial ≤ interval.counter
  origin : ∃ total ∈ 0 :: totals calls, total ≤ interval.counter ∧
    interval.counter ≤ total + increments calls

theorem mem_totals_of_set {calls : List TimedCall} {made : TimedCall} {total : Nat}
    (set : made.call.total? = some total) : total ∈ 0 :: totals (calls ++ [made]) :=
  List.mem_cons_of_mem _ (List.mem_filterMap.mpr ⟨made, List.mem_concat_self, set⟩)

theorem Traced.concat {calls : List TimedCall} {interval current : Interval}
    (traced : Traced calls interval) {made : TimedCall}
    (initial : current.initial = interval.initial) (le : interval.counter ≤ current.counter)
    (most : current.counter ≤ interval.counter + increments [made]) :
    Traced (calls ++ [made]) current := by
  obtain ⟨total, member, least, few⟩ := traced.origin
  refine ⟨initial.trans_le (traced.rising.trans le), total, ?_, least.trans le, ?_⟩
  · rw [totals_append, ← List.cons_append]
    exact List.mem_append_left _ member
  · rw [increments_append]
    omega

theorem Traced.counts {calls : List TimedCall} {interval : Interval}
    (traced : Traced calls interval) {made : TimedCall} (increment : made.call = .increment)
    (room : interval.counter < largest64) : Traced (calls ++ [made]) interval.count := by
  have counted : increments [made] = 1 := by
    rw [increments, List.countP_singleton, increment]
    rfl
  rw [count_of_lt room]
  exact traced.concat rfl (Nat.le_succ _) (Nat.add_le_add_left counted.ge _)

theorem traced_run {intervalNanos maxIntervals start : Nat} {calls : List TimedCall}
    (never : (new intervalNanos maxIntervals start).NeverFull calls) :
    ∀ interval ∈ ((new intervalNanos maxIntervals start).run calls).intervals,
      Traced calls interval := by
  induction calls using List.reverseRecOn with
  | nil =>
      exact List.forall_mem_singleton.mpr ⟨le_rfl, 0, List.mem_singleton_self _, le_rfl, le_rfl⟩
  | append_singleton calls made ih =>
      obtain ⟨earlier, room⟩ := neverFull_concat.mp never
      rw [run_concat]
      refine forall_intervals_after (ih earlier) (fun _ _ traced => ⟨traced.rising, traced.origin⟩)
        (fun _ _ traced => ⟨le_rfl, traced.origin⟩)
        (fun _ traced => traced.concat rfl le_rfl (Nat.le_add_right _ _))
        fun interval current same traced taken => ?_
      cases taken with
      | keeps => exact traced.concat rfl le_rfl (Nat.le_add_right _ _)
      | counts increment => exact traced.counts increment (same.trans_lt (room increment))
      | sets set further =>
          exact ⟨traced.rising.trans further, _, mem_totals_of_set set, le_rfl,
            Nat.le_add_right _ _⟩
      | restarts set =>
          exact ⟨le_rfl, _, mem_totals_of_set set, le_rfl, Nat.le_add_right _ _⟩

theorem neverFull_of_few {intervalNanos maxIntervals start : Nat} {calls : List TimedCall}
    (few : ∀ total ∈ 0 :: totals calls, total + increments calls ≤ largest64) :
    (new intervalNanos maxIntervals start).NeverFull calls := by
  induction calls using List.reverseRecOn with
  | nil => trivial
  | append_singleton calls made ih =>
      have room (total : Nat) (member : total ∈ 0 :: totals calls) :
          total + increments calls + increments [made] ≤ largest64 := by
        rw [Nat.add_assoc, ← increments_append]
        refine few total ?_
        rw [totals_append, ← List.cons_append]
        exact List.mem_append_left _ member
      have earlier := ih fun total member => (Nat.le_add_right _ _).trans (room total member)
      refine neverFull_concat.mpr ⟨earlier, fun increment => ?_⟩
      have counted : increments [made] = 1 := by
        rw [increments, List.countP_singleton, increment]
        rfl
      obtain ⟨total, member, -, most⟩ :=
        (traced_run earlier _ (List.mem_append_right _ (List.mem_singleton_self _))).origin
      have fits := room total member
      omega

theorem neverFull_of_uncounted {meter : Meter} {calls : List TimedCall}
    (uncounted : increments calls = 0) : meter.NeverFull calls := by
  induction calls generalizing meter with
  | nil => trivial
  | cons made calls ih =>
      have none := List.countP_eq_zero.mp uncounted
      refine ⟨fun increment => absurd (decide_eq_true increment) (none made List.mem_cons_self),
        ih (List.countP_eq_zero.mpr fun each member => none each (List.mem_cons_of_mem _ member))⟩

/-! ### Times that never go back -/

instance (time : Nat) (interval : Interval) : Decidable (OverBy time interval) :=
  decidable_of_iff (interval.stop.any (· ≤ time) = true) (by simp [OverBy, Option.any_eq_true])

instance (interval next : Interval) : Decidable (Precedes interval next) :=
  inferInstanceAs (Decidable (_ ∧ _))

theorem Precedes.mono {interval next later : Interval} (precedes : Precedes interval next)
    (le : next.start ≤ later.start) : Precedes interval later :=
  ⟨precedes.1.mono le, precedes.2.trans le⟩

/-- But for the first `skipped` of them, the closed intervals are over before any later one starts,
and the current one has started by now. -/
structure InOrder (skipped now : Nat) (meter : Meter) : Prop where
  among : (meter.closed.drop skipped).Pairwise Precedes
  before : ∀ interval ∈ meter.closed.drop skipped, Precedes interval meter.current
  started : meter.current.start ≤ now ∨ meter.closed.length < skipped

variable {skipped now : Nat}

theorem InOrder.finish (inOrder : InOrder skipped now meter) {time : Nat} (le : now ≤ time) :
    InOrder skipped time (meter.finish time) := by
  let closing := meter.current.close time
  let closed := meter.closed ++ [closing]
  have whole : closed.drop skipped =
      meter.closed.drop skipped ++ [closing].drop (skipped - meter.closed.length) :=
    List.drop_append
  have part : ((meter.finish time).closed.drop skipped).Sublist (closed.drop skipped) := by
    have dropped : (meter.finish time).closed = closed.drop (closed.length - meter.maxIntervals) :=
      rfl
    rw [dropped, List.drop_drop, Nat.add_comm, ← List.drop_drop]
    exact List.drop_sublist _ _
  refine ⟨.sublist part ?_, fun interval member => ?_, .inl le_rfl⟩
  · rw [whole]
    refine List.pairwise_append.mpr ⟨inOrder.among, (List.pairwise_singleton _ _).drop, ?_⟩
    intro interval member other last
    obtain rfl := List.mem_singleton.mp (List.mem_of_mem_drop last)
    exact inOrder.before interval member
  · have there : interval ∈ closed.drop skipped := part.subset member
    -- An interval that is not skipped is over only if the last one to be closed has started.
    have started : meter.current.start ≤ time := by
      have reached := List.length_pos_of_mem there
      rw [List.length_drop, List.length_append, List.length_singleton] at reached
      exact (inOrder.started.resolve_right (by omega)).trans le
    rw [whole] at there
    rcases List.mem_append.mp there with old | last
    · exact (inOrder.before interval old).mono started
    · obtain rfl := List.mem_singleton.mp (List.mem_of_mem_drop last)
      exact ⟨overBy_close started, started⟩

theorem InOrder.takes (inOrder : InOrder skipped now meter) {made : TimedCall}
    (le : now ≤ made.now) {current : Interval} (taken : Takes made meter.current current) :
    InOrder skipped made.now { meter with current } := by
  have start : current.start = meter.current.start ∨ current.start = made.now := by
    cases taken with
    | keeps | counts | sets => exact .inl rfl
    | restarts => exact .inr rfl
  refine ⟨inOrder.among, fun interval member => ?_, ?_⟩
  · have reached : 0 < (meter.closed.drop skipped).length := List.length_pos_of_mem member
    rw [List.length_drop] at reached
    have started := inOrder.started.resolve_right (by omega)
    refine (inOrder.before interval member).mono ?_
    show meter.current.start ≤ current.start
    omega
  · show current.start ≤ made.now ∨ meter.closed.length < skipped
    have started := inOrder.started
    omega

theorem InOrder.after (inOrder : InOrder skipped now meter) {made : TimedCall}
    (le : now ≤ made.now) : InOrder skipped made.now (meter.after made) := by
  obtain ⟨entered, current, rotated, taken, same⟩ := meter.takes_after made
  rw [same]
  rcases rotated with rfl | rfl
  · exact inOrder.takes le taken
  · exact (inOrder.finish le).takes le_rfl taken

theorem InOrder.run (inOrder : InOrder skipped now meter) {calls : List TimedCall}
    (ordered : (now :: calls.map (·.now)).IsChain (· ≤ ·)) :
    ∃ last, InOrder skipped last (meter.run calls) := by
  induction calls generalizing now meter with
  | nil => exact ⟨now, inOrder⟩
  | cons made calls ih =>
      obtain ⟨le, rest⟩ := List.isChain_cons_cons.mp ordered
      exact ih (inOrder.after le) rest

theorem InOrder.pairwise (inOrder : InOrder skipped now meter) :
    (meter.intervals.drop skipped).Pairwise Precedes := by
  rw [intervals, List.drop_append]
  refine List.pairwise_append.mpr ⟨inOrder.among, (List.pairwise_singleton _ _).drop, ?_⟩
  intro interval member other last
  obtain rfl := List.mem_singleton.mp (List.mem_of_mem_drop last)
  exact inOrder.before interval member

/-- Whatever a meter is asked, and at whatever times: it retains no more intervals than it is to, at
least one, and each of them is closed and does not end before it starts. If no operation is counted
on top of a full running total, as when all increments fit on top of each total that is set, then in
no interval is the running total below that at its start, so that nothing that was counted is cut
off. If the times never go back, every retained interval is over before any later one starts. That
is so from the second on even if the first call has a time before the meter was built. -/
theorem intervals_of_run (intervalNanos maxIntervals start : Nat) (calls : List TimedCall) :
    let fresh := new intervalNanos maxIntervals start
    let meter := fresh.run calls
    (meter.closed.length ≤ meter.maxIntervals ∧ meter.maxIntervals = max maxIntervals 1) ∧
      (∀ interval ∈ meter.closed,
        ∃ stop, interval.stop = some stop ∧ interval.start ≤ stop) ∧
      (fresh.NeverFull calls →
        ∀ interval ∈ meter.intervals, interval.initial ≤ interval.counter ∧
          interval.initial + interval.operations = interval.counter ∧ Traced calls interval) ∧
      ((∀ total ∈ 0 :: totals calls, total + increments calls ≤ largest64) →
        fresh.NeverFull calls) ∧
      ((calls.map (·.now)).IsChain (· ≤ ·) →
        (meter.intervals.drop 1).Pairwise Precedes ∧
          ((∀ made ∈ calls.head?, start ≤ made.now) → meter.intervals.Pairwise Precedes)) := by
  intro fresh meter
  have regular : Regular meter := regular_run intervalNanos maxIntervals start calls
  refine ⟨⟨regular.few, maxIntervals_run _ calls⟩, regular.ended, fun never interval member => ?_,
    neverFull_of_few, fun ordered => ⟨?_, fun later => ?_⟩⟩
  · have traced := traced_run never interval member
    exact ⟨traced.rising, Nat.add_sub_cancel' traced.rising, traced⟩
  · have opening : InOrder 1 0 fresh := ⟨.nil, nofun, .inr Nat.zero_lt_one⟩
    obtain ⟨last, inOrder⟩ :=
      opening.run (List.isChain_cons.mpr ⟨fun _ _ => Nat.zero_le _, ordered⟩)
    exact inOrder.pairwise
  · have opening : InOrder 0 start fresh := ⟨.nil, nofun, .inl le_rfl⟩
    have fromStart : (start :: calls.map (·.now)).IsChain (· ≤ ·) := by
      refine List.isChain_cons.mpr ⟨fun time first => ?_, ordered⟩
      rw [List.head?_map] at first
      obtain ⟨made, head, rfl⟩ := Option.map_eq_some_iff.mp first
      exact later made head
    obtain ⟨last, inOrder⟩ := opening.run fromStart
    exact inOrder.pairwise

theorem intervals_of_gap :
    let calls : List TimedCall :=
      [⟨.increment, 101⟩, ⟨.addSample 5, 112⟩, ⟨.setCounter 9, 115⟩, ⟨.finish, 115⟩,
        ⟨.restart 2, 120⟩, ⟨.setCounter 4, 126⟩, ⟨.readSpeed, 131⟩]
    let meter := (new 10 2 100).run calls
    (calls.map (·.now)).IsChain (· ≤ ·) ∧ (∀ made ∈ calls.head?, 100 ≤ made.now) ∧
      (∀ total ∈ 0 :: totals calls, total + increments calls ≤ largest64) ∧
      (∀ interval ∈ meter.intervals, interval.initial + interval.operations = interval.counter) ∧
      meter.intervals.Pairwise Precedes ∧
      meter.intervals.map (fun interval => (interval.start, interval.stop, interval.operations)) =
        [(112, some 115, 8), (120, some 131, 2), (131, none, 0)] := by
  intro calls meter
  have ordered : (calls.map (·.now)).IsChain (· ≤ ·) := by decide
  have later : ∀ made ∈ calls.head?, 100 ≤ made.now := by decide
  have few : ∀ total ∈ 0 :: totals calls, total + increments calls ≤ largest64 := by decide
  obtain ⟨-, -, counted, never, inOrder⟩ := intervals_of_run 10 2 100 calls
  exact ⟨ordered, later, few, fun interval member => (counted (never few) interval member).2.1,
    (inOrder ordered).2 later, by decide⟩

/-- A call with a time before the meter was built closes the first interval at its start, which is
after the start of the next. No call has a time before that of another, and yet the intervals are
not in order; and a reading at the time at which the meter was built covers time before. An
operation on top of a full running total leaves it below that at its start, and is not counted. -/
theorem intervals_of_earlyCall_of_fullTotal :
    let calls : List TimedCall := ⟨.finish, 50⟩ :: List.replicate 5 ⟨.increment, 50⟩
    let meter := (new 250000000 3 100).run calls
    let full := (new 250000000 3 100).run [⟨.restart largest64, 100⟩, ⟨.increment, 100⟩]
    (calls.map TimedCall.now ++ [100]).IsChain (· ≤ ·) ∧
      (∃ interval ∈ meter.closed, ¬ OverBy meter.current.start interval) ∧
      ¬ meter.intervals.Pairwise Precedes ∧ (meter.readSpeed 100).1 = 100000000 ∧
      full.current.counter < full.current.initial ∧ full.current.operations = 0 := by
  decide

end Meter

end Durability
