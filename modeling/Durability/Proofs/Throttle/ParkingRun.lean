import Durability.Proofs.Throttle.ParkedCallers

/-! Parks along a run. Every park in the background is written down when it starts, with all that
is asked for from then on and what the clock shows afterwards. The first of these steps that wakes
all or brings its time ends it, and tells its answer. As long as nobody draws an id that a parked
caller has, the registry holds just those that no step has ended, and of the others each has given
its answer once. -/

namespace Durability.ParkingHost

inductive Request where
  /-- A caller in the background parks. -/
  | startPark (nanos : Nat)
  /-- The caller that moves the clock parks. -/
  | park (nanos : Nat)
  | unparkAll
  | advance (nanos : Nat)
  deriving DecidableEq

def Request.parks : Request → Bool
  | startPark _ | park _ => true
  | unparkAll | advance _ => false

structure Reply where
  own : Option Bool
  woken : Option Nat
  finished : List (Nat × Bool)

def serve (host : ParkingHost) : Request → Reply × ParkingHost
  | .startPark nanos =>
    ({ own := none, woken := none, finished := [] }, host.start .park (some nanos))
  | .park nanos =>
    let (answer, host) := host.park nanos
    ({ own := some answer, woken := none, finished := [] }, host)
  | .unparkAll =>
    let (count, host) := host.unparkAll
    ({ own := none, woken := some count, finished := [] }, host)
  | .advance nanos => ({ own := none, woken := none, finished := [] }, host.advance nanos)

def handle (host : ParkingHost) (request : Request) : Reply × ParkingHost :=
  let (reply, served) := host.serve request
  let (settled, finished) := served.settle
  ({ reply with finished }, settled)

def run (host : ParkingHost) (requests : List Request) : ParkingHost :=
  requests.foldl (fun host request => (host.handle request).2) host

/-- Along some requests, whoever parks draws an id that nobody in the registry has. -/
def DrawsFresh : ParkingHost → List Request → Prop
  | _, [] => True
  | host, request :: requests =>
    (request.parks = true → host.DrawsNew) ∧ DrawsFresh (host.handle request).2 requests

/-! ### The ledger of a run -/

/-- A park in the background: its number, when it started and how long it is to last, and the
requests from the one that started it on, each with the clock at its end. -/
structure Stay where
  number : Nat
  start : Nat
  nanos : Nat
  steps : List (Request × Nat)

/-- Whether a step ends a park that no step before it has ended: all are woken or its time has
come. -/
def Stay.ends (stay : Stay) (step : Request × Nat) : Bool :=
  step.1 == .unparkAll || stay.start + stay.nanos ≤ step.2

/-- The answer of a park, which the first step that ends it decides. It is pending until then. -/
def Stay.answer? (stay : Stay) : Option Bool :=
  (stay.steps.find? stay.ends).map (·.1 == .unparkAll)

def Stay.after (stay : Stay) (step : Request × Nat) : Stay :=
  { stay with steps := stay.steps ++ [step] }

/-- The parks of a run in the order in which they started, and the answers that were given. -/
structure ParkLedger where
  stays : List Stay
  answers : List (Nat × Bool)

def ParkLedger.pending (ledger : ParkLedger) : List Stay :=
  ledger.stays.filter (·.answer?.isNone)

def ParkLedger.ended (ledger : ParkLedger) : List (Nat × Bool) :=
  ledger.stays.filterMap fun stay => stay.answer?.map (stay.number, ·)

def starting (host : ParkingHost) : Request → List Stay
  | .startPark nanos =>
    [{ number := host.started, start := host.clock, nanos, steps := [] }]
  | _ => []

def ParkLedger.after (ledger : ParkLedger) (host : ParkingHost) (request : Request) : ParkLedger :=
  let (reply, after) := host.handle request
  { stays := (ledger.stays ++ host.starting request).map (·.after (request, after.clock))
    answers := ledger.answers ++ reply.finished }

def ParkLedger.over (ledger : ParkLedger) (host : ParkingHost) : List Request → ParkLedger
  | [] => ledger
  | request :: requests => (ledger.after host request).over (host.handle request).2 requests

def ParkLedger.empty : ParkLedger := { stays := [], answers := [] }

def stepsOf (host : ParkingHost) : List Request → List (Request × Nat)
  | [] => []
  | request :: requests =>
    let after := (host.handle request).2
    (request, after.clock) :: after.stepsOf requests

/-! ### One step -/

def Stay.sleeper (stay : Stay) : Sleeper ParkingTask :=
  { number := stay.number
    deadline := some (stay.start + stay.nanos)
    woken := false
    task := .park }

def Stay.sleeperUpon (stay : Stay) (request : Request) : Sleeper ParkingTask :=
  { stay.sleeper with woken := request == .unparkAll }

theorem Stay.answer?_after (stay : Stay) (step : Request × Nat) :
    (stay.after step).answer? =
      stay.answer?.or (if stay.ends step then some (step.1 == .unparkAll) else none) := by
  have found : (stay.after step).answer? =
      ((stay.steps ++ [step]).find? stay.ends).map (·.1 == .unparkAll) := rfl
  rw [found, List.find?_append, answer?]
  cases stay.steps.find? stay.ends with
  | some earlier => rfl
  | none =>
      simp only [Option.none_or, Option.map_none, List.find?_singleton]
      split <;> rfl

theorem Stay.canRun_sleeperUpon (stay : Stay) (request : Request) (clock : Nat) :
    (stay.sleeperUpon request).canRun clock = stay.ends (request, clock) := by
  simp only [Sleeper.canRun, sleeperUpon, sleeper, ends, Option.any_some]

theorem pending_after (stays : List Stay) (step : Request × Nat) :
    (stays.map (·.after step)).filter (·.answer?.isNone) =
      ((stays.filter (·.answer?.isNone)).filter (!·.ends step)).map (·.after step) := by
  rw [List.filter_map, List.filter_filter]
  congr 1
  apply List.filter_congr
  intro stay _
  rw [Function.comp_apply, stay.answer?_after]
  cases stay.answer? <;> cases stay.ends step <;> rfl

theorem ended_after (stays : List Stay) (step : Request × Nat) :
    ((stays.map (·.after step)).filterMap fun stay => stay.answer?.map (stay.number, ·)).Perm
      (stays.filterMap (fun stay => stay.answer?.map (stay.number, ·)) ++
        ((stays.filter (·.answer?.isNone)).filter (·.ends step)).map fun stay =>
          (stay.number, step.1 == .unparkAll)) := by
  induction stays with
  | nil => exact .rfl
  | cons stay stays ih =>
      have number : (stay.after step).number = stay.number := rfl
      rw [List.map_cons, List.filterMap_cons, stay.answer?_after, number, List.filterMap_cons,
        List.filter_cons]
      cases before : stay.answer? with
      | some answer => exact ih.cons _
      | none =>
          cases ended : stay.ends step with
          | false => simpa [ended] using ih
          | true => simpa [ended] using (ih.cons _).trans List.perm_middle.symm

theorem serve_sleepers {host : ParkingHost} {stays : List Stay} (listed : host.Listed)
    (held : host.sleepers = stays.map (·.sleeper)) (request : Request) :
    (host.serve request).2.sleepers =
      (stays ++ host.starting request).map (·.sleeperUpon request) := by
  cases request with
  | startPark nanos =>
      rw [List.map_append]
      exact (host.sleepers_start .park (some nanos)).trans (congrArg (· ++ _) held)
  | park nanos =>
      rw [show host.starting (.park nanos) = [] from rfl, List.append_nil]
      exact (host.sleepers_park nanos).trans held
  | unparkAll =>
      have woken : (host.serve .unparkAll).2.sleepers = _ := listed.sleepers_unparkAll
      rw [woken, held, show host.starting .unparkAll = [] from rfl, List.append_nil, List.map_map]
      rfl
  | advance nanos =>
      rw [show host.starting (.advance nanos) = [] from rfl, List.append_nil]
      exact held

theorem serve_listed {host : ParkingHost} (listed : host.Listed) {request : Request}
    (drawsNew : request.parks = true → host.DrawsNew) : (host.serve request).2.Listed := by
  cases request with
  | startPark nanos => exact listed.startPark (drawsNew rfl) (some nanos)
  | park nanos => exact listed.park (drawsNew rfl) nanos
  | unparkAll => exact listed.give _
  | advance nanos => exact ⟨listed.registry, listed.distinct, listed.made, listed.beside⟩

theorem serve_started (host : ParkingHost) (request : Request) :
    (host.serve request).2.started = host.started + (host.starting request).length := by
  cases request with
  | park nanos =>
      change (host.park nanos).2.started = _
      rw [park_eq]
      rfl
  | startPark nanos | unparkAll | advance nanos => rfl

theorem starting_pending (host : ParkingHost) (request : Request) :
    (host.starting request).filter (·.answer?.isNone) = host.starting request := by
  cases request <;> rfl

theorem starting_ended (host : ParkingHost) (request : Request) :
    (host.starting request).filterMap (fun stay => stay.answer?.map (stay.number, ·)) = [] := by
  cases request <;> rfl

theorem handle_of_sleepers {host : ParkingHost} {stays : List Stay} (listed : host.Listed)
    (held : host.sleepers = stays.map (·.sleeper)) (request : Request)
    (drawsNew : request.parks = true → host.DrawsNew) :
    let after := host.handle request
    let step := (request, after.2.clock)
    let awaited := stays ++ host.starting request
    after.2.Listed ∧ after.2.sleepers = (awaited.filter (!·.ends step)).map (·.sleeper) ∧
      after.1.finished = (awaited.filter (·.ends step)).map fun stay =>
        (stay.number, request == .unparkAll) := by
  intro after step awaited
  let served := (host.serve request).2
  obtain ⟨left, finished⟩ := served.sleepers_settle
  have sleepers : served.sleepers = awaited.map (·.sleeperUpon request) :=
    serve_sleepers listed held request
  have clock : after.2.clock = served.clock := served.settle_clock
  have ends (stay : Stay) :
      (stay.sleeperUpon request).canRun served.clock = stay.ends step := by
    rw [← clock]
    exact stay.canRun_sleeperUpon request _
  refine ⟨(serve_listed listed drawsNew).settle, ?_, ?_⟩
  · have still : awaited.filter ((!·.canRun served.clock) ∘ (·.sleeperUpon request)) =
        awaited.filter (!·.ends step) :=
      List.filter_congr fun stay _ => congrArg (!·) (ends stay)
    rw [show after.2.sleepers = _ from left, sleepers, List.filter_map, still]
    apply List.map_congr_left
    intro stay member
    -- Whoever goes on waiting was not woken.
    have unwoken : (request == .unparkAll) = false := by
      have blocked := (List.mem_filter.1 member).2
      rw [Stay.ends, Bool.not_or, Bool.and_eq_true, Bool.not_eq_true'] at blocked
      exact blocked.1
    rw [Stay.sleeperUpon, unwoken]
    rfl
  · have gone : awaited.filter ((·.canRun served.clock) ∘ (·.sleeperUpon request)) =
        awaited.filter (·.ends step) :=
      List.filter_congr fun stay _ => ends stay
    rw [show after.1.finished = _ from finished, sleepers, List.filter_map, List.map_map, gone]
    rfl

/-! ### Runs -/

theorem handle_started (host : ParkingHost) (request : Request) :
    (host.handle request).2.started = host.started + (host.starting request).length :=
  (settle_started _).trans (serve_started host request)

theorem numbers_over {ledger : ParkLedger} {host : ParkingHost}
    (numbers : ledger.stays.map (·.number) = List.range host.started) (requests : List Request) :
    (ledger.over host requests).stays.map (·.number) = List.range (host.run requests).started := by
  induction requests generalizing ledger host with
  | nil => exact numbers
  | cons request requests ih =>
      refine ih ?_
      have known : (ledger.after host request).stays.map (·.number) =
          (ledger.stays ++ host.starting request).map (·.number) := List.map_map
      rw [known, List.map_append, numbers, handle_started, List.range_add]
      cases request <;> rfl

/-- The registry holds the pending parks, and each of the others has given its answer once. -/
structure Kept (ledger : ParkLedger) (host : ParkingHost) : Prop where
  listed : host.Listed
  sleepers : host.sleepers = ledger.pending.map (·.sleeper)
  answers : ledger.answers.Perm ledger.ended

variable {ledger : ParkLedger} {host : ParkingHost}

theorem Kept.after (kept : Kept ledger host) {request : Request}
    (drawsNew : request.parks = true → host.DrawsNew) :
    Kept (ledger.after host request) (host.handle request).2 := by
  obtain ⟨listed, sleepers, answers⟩ := kept
  let step := (request, (host.handle request).2.clock)
  obtain ⟨kept, left, finished⟩ := handle_of_sleepers listed sleepers request drawsNew
  have awaited : (ledger.stays ++ host.starting request).filter (·.answer?.isNone) =
      ledger.pending ++ host.starting request := by
    rw [List.filter_append, starting_pending]
    rfl
  have past : (ledger.stays ++ host.starting request).filterMap
      (fun stay => stay.answer?.map (stay.number, ·)) = ledger.ended := by
    rw [List.filterMap_append, starting_ended, List.append_nil]
    rfl
  refine ⟨kept, ?_, ?_⟩
  · have pending : (ledger.after host request).pending =
        ((ledger.pending ++ host.starting request).filter (!·.ends step)).map (·.after step) :=
      (pending_after _ step).trans (by rw [awaited])
    rw [left, pending, List.map_map]
    rfl
  · have given : (ledger.after host request).answers = ledger.answers ++ _ :=
      congrArg (ledger.answers ++ ·) finished
    have ended := ended_after (ledger.stays ++ host.starting request) step
    rw [past, awaited] at ended
    rw [given]
    exact (answers.append_right _).trans ended.symm

theorem Kept.over (kept : Kept ledger host) {requests : List Request}
    (fresh : host.DrawsFresh requests) : Kept (ledger.over host requests) (host.run requests) := by
  induction requests generalizing ledger host with
  | nil => exact kept
  | cons request requests ih => exact ih (kept.after fresh.1) fresh.2

theorem handle_drawn {count : Nat} (drawn : host.registry.Drawn count) (request : Request) :
    (host.handle request).2.registry.Drawn (count + if request.parks then 1 else 0) := by
  apply Registry.Drawn.settle
  cases request with
  | startPark nanos => exact drawn.enter _
  | park nanos =>
      change (host.park nanos).2.registry.Drawn _
      rw [park_eq]
      exact (drawn.enter _).leave _
  | unparkAll | advance nanos => exact drawn

theorem drawsFresh_of_few {count : Nat} (drawn : host.registry.Drawn count)
    {requests : List Request} (few : count + requests.countP (·.parks) ≤ 2 ^ 64) :
    host.DrawsFresh requests := by
  induction requests generalizing host count with
  | nil => trivial
  | cons request requests ih =>
      rw [List.countP_cons] at few
      refine ⟨fun parks => drawn.drawsNew ?_, ih (handle_drawn drawn request) (by omega)⟩
      rw [if_pos parks] at few
      omega

theorem ParkLedger.over_append (ledger : ParkLedger) (host : ParkingHost)
    (earlier later : List Request) :
    ledger.over host (earlier ++ later) =
      (ledger.over host earlier).over (host.run earlier) later := by
  induction earlier generalizing ledger host with
  | nil => rfl
  | cons request earlier ih => exact ih _ _

theorem ParkLedger.mem_over {stay : Stay} (member : stay ∈ ledger.stays) (requests : List Request) :
    { stay with steps := stay.steps ++ host.stepsOf requests } ∈
      (ledger.over host requests).stays := by
  induction requests generalizing stay ledger host with
  | nil => rwa [stepsOf, List.append_nil]
  | cons request requests ih =>
      let step := (request, (host.handle request).2.clock)
      have noted : stay.after step ∈ (ledger.after host request).stays :=
        List.mem_map_of_mem (List.mem_append_left _ member)
      have later := @ih (ledger.after host request) (host.handle request).2 _ noted
      rwa [Stay.after, List.append_assoc] at later

theorem ParkLedger.mem_over_startPark (nanos : Nat) (since : List Request) :
    { number := host.started, start := host.clock, nanos
      steps := host.stepsOf (.startPark nanos :: since) } ∈
      (ledger.over host (.startPark nanos :: since)).stays := by
  let request := Request.startPark nanos
  let step := (request, (host.handle request).2.clock)
  let stay : Stay := { number := host.started, start := host.clock, nanos, steps := [step] }
  have noted : stay ∈ (ledger.after host request).stays := by
    rw [show (ledger.after host request).stays = _ from List.map_append]
    exact List.mem_append_right _ (List.mem_singleton_self stay)
  exact @mem_over (ledger.after host request) (host.handle request).2 stay noted since

theorem park_alone (host : ParkingHost) (nanos : Nat) :
    (host.handle (.park nanos)).1.own = some false ∧
      (host.handle (.park nanos)).2.clock = host.clock + nanos := by
  have answer : (host.handle (.park nanos)).1.own = some (host.park nanos).1 := rfl
  have clock : (host.handle (.park nanos)).2.clock = (host.park nanos).2.clock :=
    settle_clock _
  rw [answer, clock, park_eq]
  exact ⟨rfl, rfl⟩

/-- Along any run, the parks in the background are numbered in the order in which they start, and
each is written down with the clock at its start, its length and the steps from then on, be it what
it may that was asked for before. The caller that moves the clock is never woken and parks for the
whole time. As long as whoever parks draws an id that nobody in the registry has, and so it is with
the first `2 ^ 64` of them, the registry holds one entry with a signal of its own for each pending
park, and no other. The answers that were given are those of the parks that have ended: each once,
decided by the first step that woke all, which answers that the park was woken, or that brought its
time. Waking all tells how many parks are pending, ends every one of them and leaves none. -/
theorem parks_of_run (requests : List Request) :
    let host := new.run requests
    let ledger := ParkLedger.empty.over new requests
    let awake := host.handle .unparkAll
    ledger.stays.map (·.number) = List.range host.started ∧
      (∀ before nanos since,
        { number := (new.run before).started, start := (new.run before).clock, nanos
          steps := (new.run before).stepsOf (.startPark nanos :: since) } ∈
          (ParkLedger.empty.over new (before ++ .startPark nanos :: since)).stays) ∧
      (∀ nanos, (host.handle (.park nanos)).1.own = some false ∧
        (host.handle (.park nanos)).2.clock = host.clock + nanos) ∧
      (requests.countP (·.parks) ≤ 2 ^ 64 → new.DrawsFresh requests) ∧
      (new.DrawsFresh requests →
        host.Listed ∧ host.sleepers = ledger.pending.map (·.sleeper) ∧
          host.parked = ledger.pending.length ∧ ledger.answers.Perm ledger.ended ∧
          awake.1.woken = some ledger.pending.length ∧
          awake.1.finished = ledger.pending.map (fun stay => (stay.number, true)) ∧
          awake.2.sleepers = [] ∧ awake.2.parked = 0) := by
  intro host ledger awake
  refine ⟨numbers_over rfl requests, ?_, host.park_alone, ?_, ?_⟩
  · intro before nanos since
    rw [ParkLedger.over_append]
    exact ParkLedger.mem_over_startPark nanos since
  · intro few
    have start : new.registry.Drawn 0 := ⟨rfl, fun _ member => absurd member List.not_mem_nil⟩
    exact drawsFresh_of_few start (by rwa [Nat.zero_add])
  · intro fresh
    have start : Kept .empty new := ⟨listed_new, rfl, .rfl⟩
    obtain ⟨listed, sleepers, answers⟩ : Kept ledger host := start.over fresh
    have parked : host.parked = ledger.pending.length := by
      rw [listed.parked, sleepers, List.countP_map]
      exact List.countP_eq_length.2 fun _ _ => rfl
    obtain ⟨awakened, left, finished⟩ :=
      handle_of_sleepers listed sleepers .unparkAll fun parks => nomatch parks
    have ends (stay : Stay) : stay.ends (.unparkAll, awake.2.clock) = true := rfl
    have nobody : host.starting .unparkAll = [] := rfl
    rw [nobody, List.append_nil] at left finished
    have alone : awake.2.sleepers = [] := by
      rw [show awake.2.sleepers = _ from left, List.filter_eq_nil_iff.2 fun stay _ => ?_]
      · rfl
      · rw [ends stay]
        decide
    have woken : awake.1.woken = some host.parked :=
      congrArg some (List.length_map _)
    refine ⟨listed, sleepers, parked, answers, woken.trans (congrArg some parked), ?_, alone, ?_⟩
    · rw [show awake.1.finished = _ from finished, List.filter_eq_self.2 fun stay _ => ends stay]
      rfl
    · rw [show awake.2.parked = _ from awakened.parked, show awake.2.sleepers = _ from alone]
      rfl

/-- Of four parks the first two are woken, the third was too short for that, and the last one, which
starts afterwards, is in the registry with the signal that was made fifth. -/
theorem parks_of_run_fourParks :
    let requests : List Request :=
      [.startPark 9, .startPark 30, .startPark 4, .park 5, .unparkAll, .startPark 2, .advance 1]
    let host := new.run requests
    new.DrawsFresh requests ∧ host.Listed ∧ host.parked = 1 ∧
      host.registry.parked.entries = [(4, 5)] ∧
      (ParkLedger.empty.over new requests).answers = [(2, false), (0, true), (1, true)] := by
  intro requests host
  obtain ⟨-, -, -, few, parks⟩ := parks_of_run requests
  have fresh := few (by decide)
  obtain ⟨listed, -, parked, -⟩ := parks fresh
  refine ⟨fresh, listed, parked.trans ?_, ?_, ?_⟩ <;> decide

end Durability.ParkingHost
