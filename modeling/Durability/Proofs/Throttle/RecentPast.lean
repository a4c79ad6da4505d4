import Durability.Proofs.Throttle.MeterRun

/-! How far back readings go. An operation or a sample counts as long as its interval is retained,
and in a speed only while the interval ended within the window. Intervals end when somebody looks at
the clock: in a silence none ends, so that what was counted before it may be read long after. Here a
run is compared with the run in which one call counts nothing but looks at the clock like before.
Both are abreast all the time, and tell the same from the interval after that call on. -/

namespace Durability

namespace Meter

/-- The same call, but it counts nothing. -/
def TimedCall.mute (made : TimedCall) : TimedCall :=
  match made.call with
  | .increment | .addSample _ => { made with call := .readSpeed }
  | _ => made

/-- By a later call the interval of an earlier one is over: the later call ends every interval, or
it looks at the clock when the interval has lasted its length. -/
def TimedCall.Ends (length : Nat) (earlier later : TimedCall) : Prop :=
  later.call = .finish ∨ later.call ≠ .average ∧ earlier.now + length ≤ later.now

instance (length : Nat) (earlier later : TimedCall) : Decidable (earlier.Ends length later) :=
  inferInstanceAs (Decidable (_ ∨ _))

/-! ### One call -/

def due (meter : Meter) (made : TimedCall) : Bool :=
  match made.call with
  | .finish => true
  | .average => false
  | _ => meter.intervalNanos ≤ made.now - meter.current.start

def tally (meter : Meter) (call : Call) : Meter :=
  match call with
  | .increment => { meter with current := meter.current.count }
  | .addSample value => { meter with current := meter.current.addSample value }
  | _ => meter

theorem after_eq (meter : Meter) {made : TimedCall} (plain : made.call.isPlain = true) :
    meter.after made =
      (if meter.due made then meter.finish made.now else meter).tally made.call := by
  obtain ⟨call, now⟩ := made
  cases call with
  | setCounter | restart => cases plain
  | increment | addSample | readSpeed =>
      simp [after, due, tally, increment, addSample, readSpeed, rotate]
  | average | finish => rfl

theorem mute_now (made : TimedCall) : made.mute.now = made.now := by
  unfold TimedCall.mute
  split <;> rfl

theorem due_mute (meter : Meter) (made : TimedCall) : meter.due made.mute = meter.due made := by
  obtain ⟨call, now⟩ := made
  cases call <;> rfl

theorem isPlain_mute {made : TimedCall} (plain : made.call.isPlain = true) :
    made.mute.call.isPlain = true := by
  unfold TimedCall.mute
  split
  · rfl
  · rfl
  · exact plain

theorem due_of_ends {meter : Meter} {earlier later : TimedCall} {length : Nat}
    (length_eq : meter.intervalNanos = length) (ends : earlier.Ends length later)
    (opened : meter.current.start ≤ earlier.now) : meter.due later = true := by
  rcases ends with finish | ⟨looks, past⟩
  · rw [due, finish]
  · have lasted : meter.intervalNanos ≤ later.now - meter.current.start := by omega
    unfold due
    split
    · rfl
    · next average => exact absurd average looks
    · exact decide_eq_true lasted

/-! ### Intervals that tell the same -/

def Unwrapped (interval : Interval) : Prop :=
  interval.initial ≤ interval.counter ∧ interval.operations ≤ largest64

/-- Intervals that cover the same time and have counted the same, though their running totals need
not be the same. -/
structure Alike (one other : Interval) : Prop where
  start : one.start = other.start
  stop : one.stop = other.stop
  counted : wrap64 (one.counter + other.initial) = wrap64 (other.counter + one.initial)
  sum : one.sum = other.sum
  samples : one.samples = other.samples

variable {one other : Interval}

theorem Alike.operations (alike : Alike one other) (whole : Unwrapped one)
    (whole' : Unwrapped other) : one.operations = other.operations := by
  obtain ⟨rises, few⟩ := whole
  obtain ⟨rises', few'⟩ := whole'
  have counted := alike.counted
  unfold Interval.operations largest64 wrap64 at *
  omega

theorem Alike.duration (alike : Alike one other) (now : Nat) :
    one.duration now = other.duration now := by
  rw [Interval.duration, Interval.duration, alike.start, alike.stop]

theorem Alike.close (alike : Alike one other) (now : Nat) :
    Alike (one.close now) (other.close now) :=
  ⟨alike.start, congrArg (fun start => some (max now start)) alike.start, alike.counted, alike.sum,
    alike.samples⟩

theorem alike_starting (now counter total : Nat) :
    Alike (.starting now counter) (.starting now total) :=
  ⟨rfl, rfl, congrArg wrap64 (Nat.add_comm _ _), rfl, rfl⟩

def OverBy (time : Nat) (interval : Interval) : Prop :=
  ∃ stop, interval.stop = some stop ∧ stop ≤ time

theorem OverBy.mono {interval : Interval} {time later : Nat} (past : OverBy time interval)
    (le : time ≤ later) : OverBy later interval :=
  let ⟨stop, ended, before⟩ := past
  ⟨stop, ended, before.trans le⟩

theorem overBy_close {interval : Interval} {now : Nat} (started : interval.start ≤ now) :
    OverBy now (interval.close now) :=
  ⟨_, rfl, (Nat.max_eq_left started).le⟩

def Precedes (interval next : Interval) : Prop :=
  OverBy next.start interval ∧ interval.start ≤ next.start

instance : IsTrans Interval Precedes where
  trans _ _ _ := fun ⟨past, le⟩ ⟨_, further⟩ => ⟨past.mono further, le.trans further⟩

theorem overBy_of_tiled {closed : List Interval} {current : Interval}
    (tiled : (closed ++ [current]).IsChain Follows) :
    ∀ interval ∈ closed, OverBy current.start interval := by
  have chain : (closed ++ [current]).IsChain Precedes :=
    tiled.imp fun _ _ ⟨stop, le⟩ => ⟨⟨_, stop, le_rfl⟩, le⟩
  have all := List.pairwise_append.1 (List.isChain_iff_pairwise.1 chain)
  exact fun interval member => (all.2.2 interval member current (List.mem_singleton_self _)).1

/-! ### Meters abreast -/

/-- Two meters whose closed intervals, in pairs, are first such as are over by a certain time and
then such as tell the same. Their current intervals have started together. -/
structure Abreast (ended : Nat) (older newer : List (Interval × Interval)) (one other : Meter) :
    Prop where
  length_eq : one.intervalNanos = other.intervalNanos
  count_eq : one.maxIntervals = other.maxIntervals
  ones : one.closed = (older ++ newer).map Prod.fst
  others : other.closed = (older ++ newer).map Prod.snd
  past : ∀ pair ∈ older, OverBy ended pair.1 ∧ OverBy ended pair.2
  same : ∀ pair ∈ newer, Alike pair.1 pair.2
  start : one.current.start = other.current.start

variable {ended opened now : Nat} {older newer : List (Interval × Interval)} {one other : Meter}

theorem Abreast.due_eq (abreast : Abreast ended older newer one other) (made : TimedCall) :
    one.due made = other.due made := by
  unfold due
  rw [abreast.length_eq, abreast.start]

theorem Abreast.tally (abreast : Abreast ended older newer one other) (call another : Call) :
    Abreast ended older newer (one.tally call) (other.tally another) := by
  have start (meter : Meter) (call : Call) :
      (meter.tally call).current.start = meter.current.start := by cases call <;> rfl
  have same (meter : Meter) (call : Call) : (meter.tally call).intervalNanos = meter.intervalNanos ∧
      (meter.tally call).maxIntervals = meter.maxIntervals ∧
      (meter.tally call).closed = meter.closed := by cases call <;> exact ⟨rfl, rfl, rfl⟩
  obtain ⟨length, count, closed⟩ := same one call
  obtain ⟨length', count', closed'⟩ := same other another
  exact
    { length_eq := length.trans (abreast.length_eq.trans length'.symm)
      count_eq := count.trans (abreast.count_eq.trans count'.symm)
      ones := closed.trans abreast.ones
      others := closed'.trans abreast.others
      past := abreast.past
      same := abreast.same
      start := (start one call).trans (abreast.start.trans (start other another).symm) }

theorem Abreast.finish (abreast : Abreast ended older newer one other)
    {before after : List (Interval × Interval)} {time : Nat}
    (all : older ++ newer ++ [(one.current.close now, other.current.close now)] = before ++ after)
    (past : ∀ pair ∈ before, OverBy time pair.1 ∧ OverBy time pair.2)
    (same : ∀ pair ∈ after, Alike pair.1 pair.2) :
    let gone := before.length + after.length - one.maxIntervals
    Abreast time (before.drop gone) (after.drop (gone - before.length)) (one.finish now)
      (other.finish now) := by
  intro gone
  have dropped (closed : List Interval) (side : Interval × Interval → Interval)
      (sides : closed = (before ++ after).map side) :
      closed.drop (closed.length - one.maxIntervals) =
        (before.drop gone ++ after.drop (gone - before.length)).map side := by
    rw [sides, List.length_map, List.length_append, ← List.map_drop, List.drop_append]
  have ones : one.closed ++ [one.current.close now] = (before ++ after).map Prod.fst := by
    simp [← all, abreast.ones]
  have others : other.closed ++ [other.current.close now] = (before ++ after).map Prod.snd := by
    simp [← all, abreast.others]
  exact
    { length_eq := abreast.length_eq
      count_eq := abreast.count_eq
      ones := dropped _ _ ones
      others := by
        have left := dropped _ _ others
        rw [abreast.count_eq] at left
        exact left
      past := fun pair member => past pair (List.mem_of_mem_drop member)
      same := fun pair member => same pair (List.mem_of_mem_drop member)
      start := rfl }

/-- Two meters that tell the same but for intervals that are over by a certain time. Since then a
number of intervals were opened, and closed, unless nothing older is retained. -/
def Parted (ended opened : Nat) (one other : Meter) : Prop :=
  ∃ older newer, Abreast ended older newer one other ∧ Alike one.current other.current ∧
    older.length + newer.length ≤ one.maxIntervals ∧ (older = [] ∨ opened ≤ newer.length)

theorem Parted.mono (parted : Parted ended opened one other) {time fewer : Nat}
    (le : ended ≤ time) (less : fewer ≤ opened) : Parted time fewer one other := by
  obtain ⟨older, newer, abreast, current, fits, many⟩ := parted
  have past : ∀ pair ∈ older, OverBy time pair.1 ∧ OverBy time pair.2 := fun pair member =>
    (abreast.past pair member).imp (·.mono le) (·.mono le)
  exact ⟨older, newer, { abreast with past }, current, fits, many.imp_right less.trans⟩

theorem Abreast.parted {closed : List (Interval × Interval)}
    (abreast : Abreast ended closed [] one other) (le : ended ≤ now)
    (started : one.current.start ≤ now) :
    Parted now 0 (one.finish now) (other.finish now) := by
  let last := (one.current.close now, other.current.close now)
  have all : closed ++ [] ++ [last] = (closed ++ [last]) ++ [] := by simp
  have past : ∀ pair ∈ closed ++ [last], OverBy now pair.1 ∧ OverBy now pair.2 := by
    intro pair member
    rcases List.mem_append.1 member with early | late
    · exact (abreast.past pair early).imp (·.mono le) (·.mono le)
    · cases List.mem_singleton.1 late
      exact ⟨overBy_close started, overBy_close (abreast.start ▸ started)⟩
  refine ⟨_, _, abreast.finish all past nofun, alike_starting now _ _, ?_, .inr (Nat.zero_le _)⟩
  have count : (one.finish now).maxIntervals = one.maxIntervals := rfl
  rw [count, List.length_drop, List.length_drop]
  simp only [List.length_nil]
  omega

theorem Parted.finish (parted : Parted ended opened one other) (now : Nat) :
    Parted ended (opened + 1) (one.finish now) (other.finish now) := by
  obtain ⟨older, newer, abreast, current, fits, many⟩ := parted
  let last := (one.current.close now, other.current.close now)
  have all : older ++ newer ++ [last] = older ++ (newer ++ [last]) := List.append_assoc _ _ _
  have same : ∀ pair ∈ newer ++ [last], Alike pair.1 pair.2 :=
    List.forall_mem_append.2 ⟨abreast.same, List.forall_mem_singleton.2 (current.close now)⟩
  refine ⟨_, _, abreast.finish all abreast.past same, alike_starting now _ _, ?_, ?_⟩
  · have count : (one.finish now).maxIntervals = one.maxIntervals := rfl
    rw [count, List.length_drop, List.length_drop]
    omega
  · -- Nothing newer is dropped as long as anything older is left.
    refine or_iff_not_imp_left.2 fun left => ?_
    rw [List.drop_eq_nil_iff, Nat.not_le] at left
    have some : older ≠ [] := by
      rintro rfl
      exact absurd left (Nat.not_lt_zero _)
    have enough := many.resolve_left some
    rw [List.length_drop, List.length_append, List.length_singleton]
    rw [List.length_append, List.length_singleton] at left
    omega

theorem Parted.tally (parted : Parted ended opened one other) (call : Call) :
    Parted ended opened (one.tally call) (other.tally call) := by
  obtain ⟨older, newer, abreast, current, fits, many⟩ := parted
  have told : Alike (one.tally call).current (other.tally call).current := by
    have counted := current.counted
    cases call with
    | increment =>
        refine ⟨current.start, current.stop, ?_, current.sum, current.samples⟩
        simp only [Meter.tally, Interval.count, wrap64] at counted ⊢
        omega
    | addSample value =>
        exact ⟨current.start, current.stop, counted, congrArg (saturate <| · + value) current.sum,
          congrArg (· + 1) current.samples⟩
    | _ => exact current
  have count : (one.tally call).maxIntervals = one.maxIntervals := by cases call <;> rfl
  exact ⟨older, newer, abreast.tally call call, told, count ▸ fits, many⟩

/-! ### Runs of calls -/

theorem length_after (meter : Meter) (made : TimedCall) :
    (meter.after made).intervalNanos = meter.intervalNanos := by
  have rotated (now : Nat) : (meter.rotate now).intervalNanos = meter.intervalNanos := by
    unfold rotate
    split <;> rfl
  obtain ⟨call, now⟩ := made
  cases call with
  | increment | addSample | readSpeed => exact rotated now
  | restart | average | finish => rfl
  | setCounter value =>
      simp only [after, setCounter]
      split <;> exact rotated now

theorem start_after (meter : Meter) {made : TimedCall} (plain : made.call.isPlain = true) :
    (meter.after made).current.start =
      if meter.due made then made.now else meter.current.start := by
  have start (meter : Meter) : (meter.tally made.call).current.start = meter.current.start := by
    cases made.call <;> rfl
  rw [after_eq meter plain, start]
  split <;> rfl

theorem Parted.after (parted : Parted ended opened one other) {made : TimedCall}
    (plain : made.call.isPlain = true) :
    Parted ended (if one.due made then opened + 1 else opened) (one.after made)
      (other.after made) := by
  have both : one.due made = other.due made :=
    let ⟨_, _, abreast, _⟩ := parted
    abreast.due_eq made
  rw [after_eq one plain, after_eq other plain, ← both]
  split
  · exact (parted.finish made.now).tally made.call
  · exact parted.tally made.call

theorem Parted.keeps (parted : Parted ended opened one other) {made : TimedCall}
    (plain : made.call.isPlain = true) :
    Parted ended opened (one.after made) (other.after made) := by
  refine (parted.after plain).mono le_rfl ?_
  split <;> omega

theorem Parted.run (parted : Parted ended opened one other) {calls : List TimedCall}
    (plain : ∀ made ∈ calls, made.call.isPlain = true) :
    Parted ended opened (one.run calls) (other.run calls) := by
  induction calls generalizing one other with
  | nil => exact parted
  | cons made calls ih =>
      obtain ⟨first, others⟩ := List.forall_mem_cons.1 plain
      exact ih (parted.keeps first) others

theorem Abreast.run {earlier later : TimedCall} {front : List TimedCall} {length : Nat}
    {closed : List (Interval × Interval)} (abreast : Abreast earlier.now closed [] one other)
    (length_eq : one.intervalNanos = length) (started : one.current.start ≤ earlier.now)
    (plain : ∀ made ∈ front ++ [later], made.call.isPlain = true)
    (between : ∀ made ∈ front ++ [later], earlier.now ≤ made.now ∧ made.now ≤ later.now)
    (ends : earlier.Ends length later) :
    Parted later.now 0 (one.run (front ++ [later])) (other.run (front ++ [later])) := by
  induction front generalizing one other closed with
  | nil =>
      have plainly := plain later (List.mem_singleton_self _)
      have after := (between later (List.mem_singleton_self _)).1
      have due := due_of_ends length_eq ends started
      have parted := abreast.parted after (started.trans after)
      have step : Parted later.now 0 (one.after later) (other.after later) := by
        rw [after_eq one plainly, after_eq other plainly, ← abreast.due_eq later, if_pos due,
          if_pos due]
        exact parted.tally later.call
      exact step
  | cons made front ih =>
      obtain ⟨first, others⟩ := List.forall_mem_cons.1 plain
      obtain ⟨⟨after, before⟩, rest⟩ := List.forall_mem_cons.1 between
      have step : one.run (made :: front ++ [later]) = (one.after made).run (front ++ [later]) ∧
          other.run (made :: front ++ [later]) = (other.after made).run (front ++ [later]) :=
        ⟨rfl, rfl⟩
      rw [step.1, step.2, after_eq one first, after_eq other first, ← abreast.due_eq made]
      cases due : one.due made with
      | true =>
          have parted := (abreast.parted after (started.trans after)).tally made.call
          exact (parted.run others).mono before le_rfl
      | false =>
          have start : (one.tally made.call).current.start = one.current.start := by
            cases made.call <;> rfl
          have length_eq' : (one.tally made.call).intervalNanos = one.intervalNanos := by
            cases made.call <;> rfl
          exact ih (abreast.tally made.call made.call) (length_eq'.trans length_eq)
            (start.trans_le started) others rest

theorem Parted.run_chain {last : TimedCall} {later calls : List TimedCall} {length : Nat}
    (parted : Parted ended opened one other)
    (further : last.now < one.current.start → Parted ended (opened + 1) one other)
    (length_eq : one.intervalNanos = length)
    (plain : ∀ made ∈ later, made.call.isPlain = true)
    (ordered : (now :: later.map (·.now)).IsChain (· ≤ ·)) (started : one.current.start ≤ now)
    (among : calls.Sublist later) (chain : (last :: calls).IsChain (TimedCall.Ends length)) :
    Parted ended (opened + calls.length) (one.run later) (other.run later) := by
  induction later generalizing one other opened last calls now with
  | nil =>
      cases among
      exact parted
  | cons made later ih =>
      obtain ⟨first, others⟩ := List.forall_mem_cons.1 plain
      obtain ⟨le, rest⟩ := List.isChain_cons_cons.1 ordered
      have start := start_after one first
      have opens := parted.after first
      have within : (one.after made).current.start ≤ made.now := by
        rw [start]
        split
        · exact le_rfl
        · exact started.trans le
      have same := (one.length_after made).trans length_eq
      cases among with
      | cons _ among =>
          refine ih (parted.keeps first) (fun late => ?_) same others rest within among chain
          cases due : one.due made with
          | true => rwa [due, if_pos rfl] at opens
          | false =>
              rw [start, due, if_neg Bool.false_ne_true] at late
              exact (further late).keeps first
      | cons_cons _ among =>
          obtain ⟨ends, chain⟩ := List.isChain_cons_cons.1 chain
          have raised : Parted ended (opened + 1) (one.after made) (other.after made) := by
            cases due : one.due made with
            | true => rwa [due, if_pos rfl] at opens
            | false =>
                refine (further (Nat.lt_of_not_le fun early => ?_)).keeps first
                have must := due_of_ends length_eq ends early
                rw [due] at must
                cases must
          have more := ih raised (fun late => absurd within (Nat.not_le.2 late)) same others rest
            within among chain
          rwa [Nat.add_right_comm] at more

/-! ### Readings -/

theorem covered_subset (meter : Meter) (now : Nat) : meter.covered now ⊆ meter.intervals :=
  List.append_subset.mpr
    ⟨fun _ member => List.mem_append_left _ (List.mem_filter.mp member).1,
      List.subset_append_right _ _⟩

theorem speedOver_alike {pairs : List (Interval × Interval)}
    (same : ∀ pair ∈ pairs, Alike pair.1 pair.2)
    (whole : ∀ pair ∈ pairs, Unwrapped pair.1 ∧ Unwrapped pair.2) (now : Nat) :
    speedOver (pairs.map Prod.fst) now = speedOver (pairs.map Prod.snd) now := by
  have operations (sum : Nat) (pair : Interval × Interval) (member : pair ∈ pairs) :
      saturate (sum + pair.1.operations) = saturate (sum + pair.2.operations) := by
    obtain ⟨one, other⟩ := whole pair member
    rw [(same pair member).operations one other]
  have duration (sum : Nat) (pair : Interval × Interval) (member : pair ∈ pairs) :
      saturate (sum + pair.1.duration now) = saturate (sum + pair.2.duration now) := by
    rw [(same pair member).duration now]
  simp only [speedOver, List.foldl_map]
  rw [List.foldl_ext _ _ _ operations, List.foldl_ext _ _ _ duration]

theorem Parted.nothingOlder (parted : Parted ended opened one other)
    (enough : one.maxIntervals ≤ opened) :
    ∃ newer, Abreast ended [] newer one other ∧ Alike one.current other.current := by
  obtain ⟨older, newer, abreast, current, fits, many⟩ := parted
  have none : older = [] := by
    refine many.elim id fun most => List.length_eq_zero_iff.1 ?_
    omega
  exact ⟨newer, none ▸ abreast, current⟩

theorem Abreast.covered (abreast : Abreast ended older newer one other)
    (current : Alike one.current other.current)
    (gone : ended < now - one.windowNanos ∨ older = []) :
    ∃ pairs : List (Interval × Interval), (∀ pair ∈ pairs, Alike pair.1 pair.2) ∧
      one.covered now = pairs.map Prod.fst ∧ other.covered now = pairs.map Prod.snd := by
  have windows : one.windowNanos = other.windowNanos := by
    rw [windowNanos, windowNanos, abreast.length_eq, abreast.count_eq]
  let within (interval : Interval) : Bool :=
    interval.stop.any (now - one.windowNanos ≤ ·)
  have without (side : Interval × Interval → Interval)
      (past : ∀ pair ∈ older, OverBy ended (side pair)) : (older.map side).filter within = [] := by
    rcases gone with early | none
    · refine List.filter_eq_nil_iff.2 fun interval member => ?_
      obtain ⟨pair, there, rfl⟩ := List.mem_map.1 member
      obtain ⟨stop, found, le⟩ := past pair there
      simp only [within, found, Option.any_some, decide_eq_true_eq, Nat.not_le]
      exact le.trans_lt early
    · rw [none]
      rfl
  have same : newer.filter (within ∘ Prod.snd) = newer.filter (within ∘ Prod.fst) :=
    List.filter_congr fun pair member => by
      simp only [Function.comp_apply, within, (abreast.same pair member).stop]
  refine ⟨newer.filter (within ∘ Prod.fst) ++ [(one.current, other.current)], ?_, ?_, ?_⟩
  · refine List.forall_mem_append.2 ⟨fun pair member => ?_, List.forall_mem_singleton.2 current⟩
    exact abreast.same pair (List.mem_filter.1 member).1
  · have closed : one.closed.filter within = (newer.filter (within ∘ Prod.fst)).map Prod.fst := by
      rw [abreast.ones, List.map_append, List.filter_append,
        without Prod.fst fun pair member => (abreast.past pair member).1, List.nil_append,
        List.filter_map]
    rw [Meter.covered, List.map_append]
    exact congrArg (· ++ [one.current]) closed
  · have closed : other.closed.filter within =
        (newer.filter (within ∘ Prod.fst)).map Prod.snd := by
      rw [abreast.others, List.map_append, List.filter_append,
        without Prod.snd fun pair member => (abreast.past pair member).2, List.nil_append,
        List.filter_map, same]
    rw [Meter.covered, List.map_append, ← windows]
    exact congrArg (· ++ [other.current]) closed

theorem Parted.readSpeed (parted : Parted ended opened one other)
    (gone : ended < now - one.windowNanos ∨ one.maxIntervals ≤ opened)
    (whole : ∀ interval ∈ (one.rotate now).intervals, Unwrapped interval)
    (whole' : ∀ interval ∈ (other.rotate now).intervals, Unwrapped interval) :
    (one.readSpeed now).1 = (other.readSpeed now).1 := by
  let read : TimedCall := { call := .readSpeed, now }
  have rotated : Parted ended opened (one.rotate now) (other.rotate now) :=
    @Parted.keeps ended opened one other parted read rfl
  have settings : (one.rotate now).windowNanos = one.windowNanos ∧
      (one.rotate now).maxIntervals = one.maxIntervals := by
    unfold rotate
    split <;> exact ⟨rfl, rfl⟩
  have covered : ∃ pairs : List (Interval × Interval), (∀ pair ∈ pairs, Alike pair.1 pair.2) ∧
      (one.rotate now).covered now = pairs.map Prod.fst ∧
        (other.rotate now).covered now = pairs.map Prod.snd := by
    rcases gone with early | enough
    · obtain ⟨older, newer, abreast, current, -⟩ := rotated
      exact abreast.covered current (.inl (settings.1 ▸ early))
    · obtain ⟨newer, abreast, current⟩ := rotated.nothingOlder (settings.2 ▸ enough)
      exact abreast.covered current (.inr rfl)
  obtain ⟨pairs, same, ones, others⟩ := covered
  have sound : ∀ pair ∈ pairs, Unwrapped pair.1 ∧ Unwrapped pair.2 := by
    intro pair member
    refine ⟨whole _ (covered_subset _ now ?_), whole' _ (covered_subset _ now ?_)⟩
    · exact ones ▸ List.mem_map_of_mem member
    · exact others ▸ List.mem_map_of_mem member
  rw [Meter.readSpeed, Meter.readSpeed, ones, others]
  exact speedOver_alike same sound now

theorem Kept.unwrapped {length count : Nat} {log : SpanLog} {meter : Meter}
    (kept : Kept length count now log meter)
    (few : increments (log.all.flatMap (·.calls)) ≤ largest64) :
    ∀ interval ∈ meter.intervals, Unwrapped interval := by
  intro interval member
  obtain ⟨place, inside, rfl⟩ := List.mem_iff_getElem.1 member
  obtain ⟨same, mirrored⟩ := List.forall₂_iff_get.1 kept.mirrored
  have mirrors : Mirrors _ meter.intervals[place] := mirrored place (same ▸ inside) inside
  have calls : ((log.retained count).get ⟨place, same ▸ inside⟩).calls.Sublist
      ((log.retained count).flatMap (·.calls)) :=
    List.sublist_flatten_of_mem (List.mem_map_of_mem (List.get_mem _ _))
  have least := increments_drop_retained_le log count 0
  refine ⟨mirrors.counter ▸ Nat.le_add_right _ _, ?_⟩
  rw [mirrors.operations]
  exact (calls.countP_le.trans least).trans few

theorem Parted.average (parted : Parted ended opened one other)
    (enough : one.maxIntervals ≤ opened) : one.average = other.average := by
  obtain ⟨newer, abreast, current⟩ := parted.nothingOlder enough
  let pairs := newer ++ [(one.current, other.current)]
  have same : ∀ pair ∈ pairs, Alike pair.1 pair.2 :=
    List.forall_mem_append.2 ⟨abreast.same, List.forall_mem_singleton.2 current⟩
  have ones : one.closed ++ [one.current] = pairs.map Prod.fst := by
    simp [pairs, abreast.ones]
  have others : other.closed ++ [other.current] = pairs.map Prod.snd := by
    simp [pairs, abreast.others]
  have sums : (pairs.map Prod.fst).foldr (·.sum + ·) 0 =
      (pairs.map Prod.snd).foldr (·.sum + ·) 0 := by
    simp only [List.foldr_map]
    exact List.foldr_ext _ _ _ fun pair member sum => by rw [(same pair member).sum]
  have samples : (pairs.map Prod.fst).foldr (·.samples + ·) 0 =
      (pairs.map Prod.snd).foldr (·.samples + ·) 0 := by
    simp only [List.foldr_map]
    exact List.foldr_ext _ _ _ fun pair member sum => by rw [(same pair member).samples]
  simp only [Meter.average, ones, others, sums, samples]

/-! ### A call and what it leaves -/

theorem Kept.abreast {length count : Nat} {log : SpanLog} {meter : Meter}
    (kept : Kept length count now log meter) :
    Abreast now (meter.closed.map fun interval => (interval, interval)) [] meter meter where
  length_eq := rfl
  count_eq := rfl
  ones := by simp [Function.comp_def]
  others := by simp [Function.comp_def]
  past pair member := by
    obtain ⟨interval, there, rfl⟩ := List.mem_map.1 member
    have past := (overBy_of_tiled kept.tiled interval there).mono kept.started
    exact ⟨past, past⟩
  same := nofun
  start := rfl

theorem Kept.abreast_mute {length count : Nat} {log : SpanLog} {meter : Meter}
    (kept : Kept length count now log meter) {made : TimedCall}
    (plain : made.call.isPlain = true) (le : now ≤ made.now) :
    ∃ closed, Abreast made.now closed [] (meter.after made) (meter.after made.mute) := by
  have later := kept.later le
  rw [after_eq meter plain, after_eq meter (isPlain_mute plain), due_mute, mute_now]
  split
  · exact ⟨_, later.finish.abreast.tally _ _⟩
  · exact ⟨_, later.abreast.tally _ _⟩

section Run

variable {intervalNanos maxIntervals start : Nat} {before front back : List TimedCall}
  {made next : TimedCall}

theorem kept_run_new (plain : ∀ each ∈ front ++ next :: back, each.call.isPlain = true)
    (ordered : (start :: ((front ++ next :: back).map (·.now) ++ [now])).IsChain (· ≤ ·))
    (few : increments (front ++ next :: back) ≤ largest64) :
    let length := max (saturate intervalNanos) 1
    Kept length (max maxIntervals 1) next.now ((SpanLog.starting start).run length front)
      ((new intervalNanos maxIntervals start).run front) := by
  have first : ∀ each ∈ front, each.call.isPlain = true := (List.forall_mem_append.1 plain).1
  have upTo : (start :: (front.map (·.now) ++ [next.now])).IsChain (· ≤ ·) := by
    have whole : start :: ((front ++ next :: back).map (·.now) ++ [now]) =
        (start :: (front.map (·.now) ++ [next.now])) ++ (back.map (·.now) ++ [now]) := by simp
    rw [whole] at ordered
    exact (List.isChain_append.1 ordered).1
  rw [increments_append] at few
  exact kept_run intervalNanos maxIntervals first upTo (by omega)

theorem room_of_few (plain : ∀ each ∈ front ++ next :: back, each.call.isPlain = true)
    (few : increments (front ++ next :: back) ≤ largest64) :
    ((new intervalNanos maxIntervals start).run front).current.counter + increments [next] ≤
      largest64 := by
  have counted := counter_run_le (new intervalNanos maxIntervals start)
    (List.forall_mem_append.1 plain).1
  rw [increments_append, ← List.singleton_append, increments_append] at few
  have fresh : (new intervalNanos maxIntervals start).current.counter = 0 := rfl
  omega

theorem kept_run_upTo (maxIntervals : Nat)
    (plain : ∀ each ∈ front ++ next :: back, each.call.isPlain = true)
    (ordered : (start :: ((front ++ next :: back).map (·.now) ++ [now])).IsChain (· ≤ ·))
    (few : increments (front ++ next :: back) ≤ largest64) :
    ∃ log, Kept (max (saturate intervalNanos) 1) (max maxIntervals 1) next.now log
      ((new intervalNanos maxIntervals start).run (front ++ [next])) := by
  have kept :=
    @kept_run_new now intervalNanos maxIntervals start front back next plain ordered few
  rw [run_append]
  exact ⟨_, kept.after (plain next (by simp)) le_rfl (room_of_few plain few)⟩

theorem between_of_ordered {first last : TimedCall}
    (ordered : ((first :: (front ++ [last])).map (·.now)).IsChain (· ≤ ·)) :
    ∀ each ∈ front ++ [last], first.now ≤ each.now ∧ each.now ≤ last.now := by
  have all := List.pairwise_map.1 (List.isChain_iff_pairwise.1 ordered)
  obtain ⟨after, rest⟩ := List.pairwise_cons.1 all
  intro each member
  refine ⟨after each member, ?_⟩
  rcases List.mem_append.1 member with early | late
  · exact (List.pairwise_append.1 rest).2.2 each early last (List.mem_singleton_self _)
  · cases List.mem_singleton.1 late
    exact le_rfl

theorem parted_of_ends (maxIntervals : Nat)
    (plain : ∀ each ∈ before ++ made :: (front ++ next :: back), each.call.isPlain = true)
    (ordered : (start :: ((before ++ made :: (front ++ next :: back)).map (·.now) ++
      [now])).IsChain (· ≤ ·))
    (few : increments (before ++ made :: (front ++ next :: back)) ≤ largest64)
    (ends : made.Ends (max (saturate intervalNanos) 1) next) :
    let fresh := new intervalNanos maxIntervals start
    Parted next.now 0 (fresh.run (before ++ made :: (front ++ [next])))
      (fresh.run (before ++ made.mute :: (front ++ [next]))) := by
  intro fresh
  have kept := @kept_run_new now intervalNanos maxIntervals start before (front ++ next :: back)
    made plain ordered few
  obtain ⟨plainly, others⟩ := List.forall_mem_cons.1 (List.forall_mem_append.1 plain).2
  obtain ⟨closed, abreast⟩ := kept.abreast_mute plainly le_rfl
  have split : front ++ next :: back = (front ++ [next]) ++ back := by simp
  have between : ∀ each ∈ front ++ [next], made.now ≤ each.now ∧ each.now ≤ next.now := by
    refine between_of_ordered ?_
    have whole : start :: ((before ++ made :: (front ++ next :: back)).map (·.now) ++ [now]) =
        (start :: before.map (·.now)) ++ ((made :: (front ++ [next])).map (·.now) ++
          (back.map (·.now) ++ [now])) := by simp
    rw [whole] at ordered
    exact (List.isChain_append.1 (List.isChain_append.1 ordered).2.1).1
  have length_eq := ((fresh.run before).length_after made).trans kept.length_eq
  have started : ((fresh.run before).after made).current.start ≤ made.now :=
    (kept.after plainly le_rfl (room_of_few plain few)).started
  rw [split] at others
  rw [run_append, run_append]
  exact abreast.run length_eq started (List.forall_mem_append.1 others).1 between ends

end Run

theorem unwrapped_rotate (intervalNanos maxIntervals : Nat) {start now : Nat}
    {calls : List TimedCall} (plain : ∀ each ∈ calls, each.call.isPlain = true)
    (ordered : (start :: (calls.map (·.now) ++ [now])).IsChain (· ≤ ·))
    (few : increments calls ≤ largest64) :
    ∀ interval ∈ (((new intervalNanos maxIntervals start).run calls).rotate now).intervals,
      Unwrapped interval := by
  refine (kept_run intervalNanos maxIntervals plain ordered few).rotate.unwrapped ?_
  rw [SpanLog.rotate_calls, SpanLog.run_calls]
  exact few

theorem increments_mute_le (before later : List TimedCall) (made : TimedCall) :
    increments (before ++ made.mute :: later) ≤ increments (before ++ made :: later) := by
  have fewer : increments [made.mute] ≤ increments [made] := by
    obtain ⟨call, now⟩ := made
    cases call with
    | increment => exact Nat.zero_le _
    | _ => exact le_rfl
  rw [← List.singleton_append, ← List.singleton_append (x := made)]
  simp only [increments_append]
  omega

theorem forall_mem_mute {before later : List TimedCall} {made : TimedCall}
    (plain : ∀ each ∈ before ++ made :: later, each.call.isPlain = true) :
    ∀ each ∈ before ++ made.mute :: later, each.call.isPlain = true := by
  obtain ⟨early, rest⟩ := List.forall_mem_append.1 plain
  obtain ⟨plainly, late⟩ := List.forall_mem_cons.1 rest
  exact List.forall_mem_append.2 ⟨early, List.forall_mem_cons.2 ⟨isPlain_mute plainly, late⟩⟩

theorem map_now_mute (before later : List TimedCall) (made : TimedCall) :
    (before ++ made.mute :: later).map (·.now) = (before ++ made :: later).map (·.now) := by
  simp only [List.map_append, List.map_cons, mute_now]

theorem run_insert (meter : Meter) (before front back : List TimedCall) (made next : TimedCall) :
    meter.run (before ++ made :: (front ++ next :: back)) =
      (meter.run (before ++ made :: (front ++ [next]))).run back := by
  rw [← run_append]
  simp

theorem split_of_sublist {first : TimedCall} {rest later : List TimedCall}
    (among : (first :: rest).Sublist later) :
    ∃ front back, later = front ++ first :: back ∧ rest.Sublist back := by
  obtain ⟨reached, others, rfl, member, remain⟩ := List.cons_sublist_iff.1 among
  obtain ⟨front, between, rfl⟩ := List.append_of_mem member
  exact ⟨front, between ++ others, by simp,
    remain.trans (List.sublist_append_right between others)⟩

/-- Along any run of plain calls at times that never go back, a call makes no difference to a later
reading of the speed beyond having looked at the clock, if its interval was over before the window
of the reading: if, at least one interval after it and more than `count` intervals before the
reading, somebody looked at the clock, or ended the interval. It makes no difference to the average,
or to the speed, if `count + 1` intervals have been ended since, one after another. All this as long
as the increments fit 64 bits. -/
theorem readings_of_mute (intervalNanos maxIntervals start : Nat)
    {before later : List TimedCall} {made : TimedCall} {now : Nat}
    (plain : ∀ each ∈ before ++ made :: later, each.call.isPlain = true)
    (ordered : (start :: ((before ++ made :: later).map (·.now) ++ [now])).IsChain (· ≤ ·))
    (few : increments (before ++ made :: later) ≤ largest64) :
    let length := max (saturate intervalNanos) 1
    let count := max maxIntervals 1
    let fresh := new intervalNanos maxIntervals start
    let heard := fresh.run (before ++ made :: later)
    let muted := fresh.run (before ++ made.mute :: later)
    ((∃ call ∈ later, made.Ends length call ∧ call.now + length * count < now) →
        (heard.readSpeed now).1 = (muted.readSpeed now).1) ∧
      ((∃ calls, calls.Sublist later ∧ calls.length = count + 1 ∧
          (made :: calls).IsChain (TimedCall.Ends length)) →
        (heard.readSpeed now).1 = (muted.readSpeed now).1 ∧ heard.average = muted.average) := by
  intro length count fresh heard muted
  have kept : Kept length count now _ heard :=
    kept_run intervalNanos maxIntervals plain ordered few
  have whole : ∀ interval ∈ (heard.rotate now).intervals, Unwrapped interval :=
    unwrapped_rotate intervalNanos maxIntervals plain ordered few
  have whole' : ∀ interval ∈ (muted.rotate now).intervals, Unwrapped interval := by
    refine unwrapped_rotate intervalNanos maxIntervals ?_ ?_ ((increments_mute_le ..).trans few)
    · exact forall_mem_mute plain
    · rw [map_now_mute]
      exact ordered
  constructor
  · rintro ⟨call, member, ends, early⟩
    obtain ⟨front, back, rfl⟩ := List.append_of_mem member
    have rest : ∀ each ∈ back, each.call.isPlain = true := fun each there =>
      plain each (by simp [there])
    have parted := (parted_of_ends maxIntervals plain ordered few ends).run rest
    rw [← run_insert, ← run_insert] at parted
    refine parted.readSpeed (.inl ?_) whole whole'
    have window : heard.windowNanos ≤ length * count := by
      rw [windowNanos, kept.length_eq, kept.count_eq]
      exact Nat.min_le_left _ _
    show call.now < now - heard.windowNanos
    omega
  · rintro ⟨calls, among, many, chain⟩
    obtain ⟨first, rest, rfl⟩ := List.exists_cons_of_length_eq_add_one many
    obtain ⟨ends, chain⟩ := List.isChain_cons_cons.1 chain
    obtain ⟨front, back, rfl, remain⟩ := split_of_sublist among
    have assoc (last : List TimedCall) :
        before ++ made :: (front ++ first :: last) = before ++ made :: front ++ first :: last := by
      simp
    obtain ⟨log, reached⟩ : ∃ log, Kept length count first.now log
        (fresh.run (before ++ made :: (front ++ [first]))) := by
      rw [assoc]
      rw [assoc] at plain ordered few
      exact kept_run_upTo maxIntervals plain ordered few
    have plainly : ∀ each ∈ back, each.call.isPlain = true := fun each there =>
      plain each (by simp [there])
    have inOrder : (first.now :: back.map (·.now)).IsChain (· ≤ ·) := by
      have whole : start :: ((before ++ made :: (front ++ first :: back)).map (·.now) ++ [now]) =
          (start :: (before ++ made :: front).map (·.now)) ++
            ((first.now :: back.map (·.now)) ++ [now]) := by simp
      rw [whole] at ordered
      exact (List.isChain_append.1 (List.isChain_append.1 ordered).2.1).1
    have parted := (parted_of_ends maxIntervals plain ordered few ends).run_chain
      (fun late => absurd reached.started (Nat.not_le.2 late)) reached.length_eq plainly inOrder
      reached.started remain chain
    rw [← run_insert, ← run_insert] at parted
    have enough : heard.maxIntervals ≤ 0 + rest.length := by
      rw [kept.count_eq]
      have more : rest.length + 1 = count + 1 := many
      omega
    exact ⟨parted.readSpeed (.inr enough) whole whole', parted.average enough⟩

/-- The meter is asked often enough to forget an operation of more than three intervals ago, of
which it retains two. -/
theorem readings_of_mute_threeIntervals :
    let before : List TimedCall := [⟨.increment, 101⟩]
    let made : TimedCall := ⟨.increment, 103⟩
    let later : List TimedCall :=
      [⟨.addSample 8, 109⟩, ⟨.readSpeed, 115⟩, ⟨.increment, 116⟩, ⟨.readSpeed, 126⟩,
        ⟨.addSample 4, 137⟩]
    let heard := (new 10 2 100).run (before ++ made :: later)
    let muted := (new 10 2 100).run (before ++ made.mute :: later)
    (∀ each ∈ before ++ made :: later, each.call.isPlain = true) ∧
      (100 :: ((before ++ made :: later).map TimedCall.now ++ [150])).IsChain (· ≤ ·) ∧
      (∃ call ∈ later, made.Ends 10 call ∧ call.now + 10 * 2 < 150) ∧
      increments (before ++ made :: later) ≤ largest64 ∧
      (∃ calls, calls.Sublist later ∧ calls.length = 2 + 1 ∧
        (made :: calls).IsChain (TimedCall.Ends 10)) ∧
      (heard.readSpeed 150).1 = (muted.readSpeed 150).1 ∧ heard.average = muted.average := by
  intro before made later heard muted
  have plain : ∀ each ∈ before ++ made :: later, each.call.isPlain = true := by decide
  have ordered :
      (100 :: ((before ++ made :: later).map TimedCall.now ++ [150])).IsChain (· ≤ ·) := by
    decide
  have early : ∃ call ∈ later, made.Ends 10 call ∧ call.now + 10 * 2 < 150 := by decide
  have ended : ∃ calls, calls.Sublist later ∧ calls.length = 2 + 1 ∧
      (made :: calls).IsChain (TimedCall.Ends 10) :=
    ⟨[⟨.readSpeed, 115⟩, ⟨.readSpeed, 126⟩, ⟨.addSample 4, 137⟩], by decide⟩
  have few : increments (before ++ made :: later) ≤ largest64 := by decide
  obtain ⟨speed, both⟩ := readings_of_mute 10 2 100 plain ordered few
  exact ⟨plain, ordered, early, few, ended, speed early, (both ended).2⟩

/-- After a silence of ten seconds, a meter of three retained intervals of 250 milliseconds reads
operations and samples of before: an operation that counts makes a difference to the speed, and a
sample to the average. -/
theorem readings_after_silence :
    let fresh := new 250000000 3 0
    let before : List TimedCall := List.replicate 9 ⟨.increment, 0⟩
    let made : TimedCall := ⟨.increment, 0⟩
    let sample : TimedCall := ⟨.addSample 70, 0⟩
    let asked : TimedCall := ⟨.readSpeed, 10000000000⟩
    made.now + (3 + 1) * 250000000 < asked.now ∧ sample.now + (3 + 1) * 250000000 < asked.now ∧
      ((fresh.run (before ++ [made])).readSpeed asked.now).1 = 1 ∧
      ((fresh.run (before ++ [made.mute])).readSpeed asked.now).1 = 0 ∧
      (fresh.run [sample, asked]).average = 70 ∧ (fresh.run [sample.mute, asked]).average = 0 := by
  decide

end Meter

end Durability
