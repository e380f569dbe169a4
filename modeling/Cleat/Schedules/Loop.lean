import Cleat.Durable.Machine
import Mathlib.Logic.Function.Iterate
import Mathlib.Data.List.Nodup
import Mathlib.Algebra.Group.Nat.Defs

/-!
# The schedule loop

Every worker looks again and again for schedules that are due. For one that is due it may skip the
instant, because the last run is still in flight or because the instant is long past; otherwise it
starts a run for the instant and then moves the schedule forward, if nobody has done so in the
meantime. The key of a start names the schedule and the instant, so that an instant gets one run
however many workers start it.

This is about one schedule. The passes of any number of workers interleave at every call and every
reading of the clock, calls may fail before or after their effect, and a worker may stop anywhere.
Times are in nanoseconds. Of the cron expression only the next instant after a time is used here.
-/
namespace Cleat.Schedules

open Durable List Function List.Subset

section Model

/-- The next instant after a time. -/
structure Cron where
  next : Nat → Nat
  after : ∀ time, time < next time

inductive OverlapPolicy where
  | allow | skip
deriving DecidableEq

inductive MisfirePolicy where
  | catchUp | skip
deriving DecidableEq

/-- The settings of a schedule; what is not set has a default. -/
structure ScheduleConfig where
  cron : Cron
  overlapPolicy : Option OverlapPolicy := none
  misfirePolicy : Option MisfirePolicy := none
  catchUpLimit : Int := 0

namespace ScheduleConfig

def overlapPolicyOrDefault (config : ScheduleConfig) : OverlapPolicy :=
  config.overlapPolicy.getD .allow

def misfirePolicyOrDefault (config : ScheduleConfig) : MisfirePolicy :=
  config.misfirePolicy.getD .catchUp

def catchUpLimitOrDefault (config : ScheduleConfig) : Nat :=
  if config.catchUpLimit ≤ 0 then 60 else config.catchUpLimit.toNat

end ScheduleConfig

/-- The number of instants from a probe on that are past, counted up to a bound. -/
def catchUp (cron : Cron) (now : Nat) : Nat → Nat → Nat
  | 0, _ => 0
  | remaining + 1, probe =>
    if probe < now then
      let advanced := cron.next probe
      if advanced ≤ probe then 0 else catchUp cron now remaining advanced + 1
    else 0

/-- The instant after the scheduled one, and how many are dropped at least: none, unless the
backlog is longer than the limit. -/
def scheduleAdvance (cron : Cron) (scheduled now catchUpLimit : Nat) : Nat × Nat :=
  let next := cron.next scheduled
  if ¬ next < now then (next, 0)
  else
    let count := catchUp cron now (catchUpLimit + 1) next
    if catchUpLimit < count then (cron.next now, count) else (next, 0)

inductive RunStatus where
  | ready | running | terminating | settled
deriving DecidableEq

/-- A run can go on from one status to another. -/
def RunStatus.goesTo : RunStatus → RunStatus → Bool
  | .settled, _ => false
  | .terminating, later => later = .settled
  | _, _ => true

/-- A run that the schedule has started. That another one had not settled when it was started is
history. -/
structure ScheduledRun where
  instant : Nat
  status : RunStatus := .ready
  besides : Bool := false
deriving DecidableEq

/-- The row of a schedule as a worker has read it. -/
structure DueRow where
  scheduled : Nat
  lastRunID : Option Nat
  input : Nat
deriving DecidableEq

/-- Why a schedule is moved forward: the instant was fired, and so many later ones are dropped at
least; or it was skipped. -/
inductive Cause where
  | fired (dropped : Nat)
  | overlapped
  | misfired
deriving DecidableEq

/-- How far a worker has come with the schedule. The advance of a schedule was worked out at a
time. -/
inductive Pass where
  | due (row : DueRow)
  | overlapping (row : DueRow)
  | checked (row : DueRow)
  | misfiring (row : DueRow) (future : Nat)
  | current (row : DueRow)
  | starting (row : DueRow) (next dropped now : Nat)
  | claiming (row : DueRow) (next : Nat) (runID : Option Nat) (now : Nat) (cause : Cause)
deriving DecidableEq

/-- A move of the schedule that was made. -/
structure Move where
  scheduled : Nat
  next : Nat
  now : Nat
  cause : Cause
deriving DecidableEq

/-- The row of the schedule, the runs it has started, the keys of their starts with the inputs, and
the workers. The moves are history. -/
structure ScheduleState where
  clock : Nat := 0
  nextRunAt : Nat
  lastRunID : Option Nat := none
  input : Nat := 0
  runs : List ScheduledRun := []
  keys : Nat → Option (Nat × Nat) := fun _ => none
  workers : Nat → Option Pass := fun _ => none
  moves : List Move := []

/-- How a call ends: well, without its effect, or with its effect and an error. -/
inductive CallOutcome where
  | ok | failed | lost
deriving DecidableEq

inductive PassStep where
  | read
  | check (lookupFails : Bool)
  | future
  | misfire
  | advance
  | start (outcome : CallOutcome)
  | claim (outcome : CallOutcome)
  | stop
deriving DecidableEq

inductive ScheduleAction where
  | tick (time : Nat)
  | worker (id : Nat) (step : PassStep)
  | setStatus (run : Nat) (status : RunStatus)
  | edit (input : Nat)
  | expire (instant : Nat)
deriving DecidableEq

end Model

section Steps

def minute : Nat := 60 * 10 ^ 9

inductive StartResult where
  | run (id : Nat)
  | inputMismatch

namespace ScheduleState

variable (config : ScheduleConfig) (state : ScheduleState)

def setWorker (id : Nat) (pass : Option Pass) : ScheduleState :=
  { state with workers := Function.update state.workers id pass }

/-- A start with the key of an instant: the run that has this key, unless it was started with
another input, or a new run. -/
def startNewRun (instant input : Nat) : StartResult × ScheduleState :=
  match state.keys instant with
  | some (run, held) => (if held = input then .run run else .inputMismatch, state)
  | none =>
    (.run state.runs.length,
      { state with
        runs := state.runs ++
          [{ instant, besides := state.runs.any fun run => run.status ≠ .settled }]
        keys := Function.update state.keys instant (some (state.runs.length, input)) })

/-- The schedule is moved forward if it is still at the expected instant. Without a run the last
one stays. -/
def claimDueSchedule (expected next : Nat) (runID : Option Nat) (move : Move) : ScheduleState :=
  if state.nextRunAt = expected then
    { state with
      nextRunAt := next, lastRunID := runID.or state.lastRunID, moves := state.moves ++ [move] }
  else state

/-- The run that was started last is in flight. -/
def inFlight (runID : Nat) : Bool :=
  (state.runs[runID]?).any fun run => run.status = .running || run.status = .ready

def passStep (id : Nat) : Option Pass → PassStep → ScheduleState
  | none, .read =>
    if state.nextRunAt ≤ state.clock then
      state.setWorker id (some (.due ⟨state.nextRunAt, state.lastRunID, state.input⟩))
    else state
  | some (.due row), .check lookupFails =>
    let overlaps := config.overlapPolicyOrDefault = .skip && !lookupFails &&
      row.lastRunID.any state.inFlight
    state.setWorker id (some (if overlaps then .overlapping row else .checked row))
  | some (.overlapping row), .advance =>
    let next := (scheduleAdvance config.cron row.scheduled state.clock
      config.catchUpLimitOrDefault).1
    state.setWorker id (some (.claiming row next none state.clock .overlapped))
  | some (.checked row), .future =>
    state.setWorker id (some (
      if config.misfirePolicyOrDefault = .skip then
        .misfiring row (config.cron.next state.clock)
      else .current row))
  | some (.misfiring row future), .misfire =>
    state.setWorker id (some (
      if row.scheduled + minute < state.clock then
        .claiming row future none state.clock .misfired
      else .current row))
  | some (.current row), .advance =>
    let result := scheduleAdvance config.cron row.scheduled state.clock
      config.catchUpLimitOrDefault
    state.setWorker id (some (.starting row result.1 result.2 state.clock))
  | some (.starting row next dropped now), .start outcome =>
    let result := state.startNewRun row.scheduled row.input
    match outcome with
    | .failed => state.setWorker id none
    | .lost => result.2.setWorker id none
    | .ok =>
      let runID := match result.1 with
        | .run run => some run
        | .inputMismatch => none
      result.2.setWorker id (some (.claiming row next runID now (.fired dropped)))
  | some (.claiming row next runID now cause), .claim outcome =>
    match outcome with
    | .failed => state.setWorker id none
    | _ =>
      (state.claimDueSchedule row.scheduled next runID
        ⟨row.scheduled, next, now, cause⟩).setWorker id none
  | some _, .stop => state.setWorker id none
  | _, _ => state

def step : ScheduleAction → ScheduleState
  | .tick time => { state with clock := state.clock + time }
  | .worker id step => state.passStep config id (state.workers id) step
  | .setStatus run status =>
    match state.runs[run]? with
    | some before =>
      if before.status.goesTo status then
        { state with runs := state.runs.set run { before with status } }
      else state
    | none => state
  | .edit input => { state with input }
  | .expire instant => { state with keys := Function.update state.keys instant none }

end ScheduleState

end Steps

section Advance

variable {cron : Cron} {now scheduled : Nat}

/-- Going from instant to instant leads on. -/
theorem Cron.le_iterate (cron : Cron) (time count : Nat) : time ≤ cron.next^[count] time := by
  induction count with
  | zero => exact Nat.le_refl _
  | succ count ih =>
    rw [iterate_succ_apply']
    exact Nat.le_trans ih (Nat.le_of_lt (cron.after _))

theorem catchUp_le (remaining probe : Nat) : catchUp cron now remaining probe ≤ remaining := by
  induction remaining generalizing probe with
  | zero => exact Nat.le_refl _
  | succ remaining ih =>
    have later := ih (cron.next probe)
    unfold catchUp
    dsimp only
    split
    · split
      · exact Nat.zero_le _
      · omega
    · exact Nat.zero_le _

/-- The bound is reached exactly if that many instants are past. -/
theorem catchUp_eq_iff (count probe : Nat) :
    catchUp cron now (count + 1) probe = count + 1 ↔ cron.next^[count] probe < now := by
  induction count generalizing probe with
  | zero =>
    have advanced := cron.after probe
    by_cases past : probe < now
    · simp [catchUp, past, Nat.not_le.mpr advanced]
    · simp [catchUp, past]
  | succ count ih =>
    have advanced := cron.after probe
    rw [iterate_succ_apply, ← ih, catchUp]
    by_cases past : probe < now
    · simp [past, Nat.not_le.mpr advanced]
    · have later : ¬ cron.next^[count] (cron.next probe) < now := by
        have := cron.le_iterate (cron.next probe) count
        omega
      simp [past, ih, later]

/-- The schedule goes on to the next instant and drops nothing, or more instants than the limit are
past and it goes on from now. -/
theorem scheduleAdvance_cases (limit : Nat) :
    ¬ cron.next^[limit + 1] scheduled < now ∧
        scheduleAdvance cron scheduled now limit = (cron.next scheduled, 0) ∨
      cron.next^[limit + 1] scheduled < now ∧
        scheduleAdvance cron scheduled now limit = (cron.next now, limit + 1) := by
  unfold scheduleAdvance
  have bounded := @catchUp_le cron now (limit + 1) (cron.next scheduled)
  have reached := @catchUp_eq_iff cron now limit (cron.next scheduled)
  rw [← iterate_succ_apply] at reached
  by_cases behind : cron.next scheduled < now
  · rw [if_neg (not_not.mpr behind)]
    by_cases long : limit < catchUp cron now (limit + 1) (cron.next scheduled)
    · have all : catchUp cron now (limit + 1) (cron.next scheduled) = limit + 1 := by omega
      rw [if_pos long, all]
      exact .inr ⟨reached.mp all, rfl⟩
    · rw [if_neg long]
      exact .inl ⟨fun past => long (by rw [reached.mpr past]; omega), rfl⟩
  · rw [if_pos behind]
    have later := cron.le_iterate (cron.next scheduled) limit
    rw [← iterate_succ_apply] at later
    exact .inl ⟨Nat.not_lt.mpr (Nat.le_trans (Nat.not_lt.mp behind) later), rfl⟩

theorem lt_scheduleAdvance (limit : Nat) : scheduled < (scheduleAdvance cron scheduled now limit).1 := by
  obtain ⟨_, same⟩ | ⟨behind, same⟩ := @scheduleAdvance_cases cron now scheduled limit
  · rw [same]
    exact cron.after scheduled
  · rw [same]
    have past := cron.le_iterate scheduled (limit + 1)
    have next := cron.after now
    omega

/-- What a schedule passes beyond the scheduled instant is a backlog longer than the limit. -/
theorem passed_scheduleAdvance {limit count : Nat} (later : 0 < count)
    (passed : cron.next^[count] scheduled < (scheduleAdvance cron scheduled now limit).1) :
    cron.next^[limit + 1] scheduled < now ∧
      (scheduleAdvance cron scheduled now limit).2 = limit + 1 := by
  obtain ⟨_, same⟩ | ⟨behind, same⟩ := @scheduleAdvance_cases cron now scheduled limit
  · rw [same] at passed
    obtain ⟨before, rfl⟩ := Nat.exists_eq_add_of_lt later
    rw [Nat.zero_add, iterate_succ_apply] at passed
    have := cron.le_iterate (cron.next scheduled) before
    omega
  · rw [same]
    exact ⟨behind, rfl⟩

end Advance

section Moves

variable (config : ScheduleConfig)

/-- How a worker goes on without a call that writes. -/
inductive Leads (state : ScheduleState) : PassStep → Pass → Pass → Prop
  | overlaps (row lookupFails) (policy : config.overlapPolicyOrDefault = .skip)
      (last : row.lastRunID.any state.inFlight = true) :
      Leads state (.check lookupFails) (.due row) (.overlapping row)
  | checks (row lookupFails) (clear : config.overlapPolicyOrDefault = .skip → lookupFails = false →
      row.lastRunID.any state.inFlight = false) :
      Leads state (.check lookupFails) (.due row) (.checked row)
  | skips (row) :
      Leads state .advance (.overlapping row) (.claiming row
        (scheduleAdvance config.cron row.scheduled state.clock config.catchUpLimitOrDefault).1 none
        state.clock .overlapped)
  | looksAhead (row) (policy : config.misfirePolicyOrDefault = .skip) :
      Leads state .future (.checked row) (.misfiring row (config.cron.next state.clock))
  | catchesUp (row) : Leads state .future (.checked row) (.current row)
  | misfires (row future) (late : row.scheduled + minute < state.clock) :
      Leads state .misfire (.misfiring row future)
        (.claiming row future none state.clock .misfired)
  | inTime (row future) : Leads state .misfire (.misfiring row future) (.current row)
  | advances (row) :
      Leads state .advance (.current row) (.starting row
        (scheduleAdvance config.cron row.scheduled state.clock config.catchUpLimitOrDefault).1
        (scheduleAdvance config.cron row.scheduled state.clock config.catchUpLimitOrDefault).2
        state.clock)

/-- What one action may do. -/
inductive ScheduleMove (state : ScheduleState) : ScheduleAction → ScheduleState → Prop
  | stays (action) : ScheduleMove state action state
  | ticks (time) : ScheduleMove state (.tick time) { state with clock := state.clock + time }
  | reads (id) (due : state.nextRunAt ≤ state.clock) :
      ScheduleMove state (.worker id .read)
        (state.setWorker id (some (.due ⟨state.nextRunAt, state.lastRunID, state.input⟩)))
  | leads (id step before after) (found : state.workers id = some before)
      (leads : Leads config state step before after) :
      ScheduleMove state (.worker id step) (state.setWorker id (some after))
  | ends (id step) : ScheduleMove state (.worker id step) (state.setWorker id none)
  | starts (id row next dropped now outcome pass)
      (found : state.workers id = some (.starting row next dropped now))
      (called : outcome ≠ .failed)
      (goesOn : ∀ after, pass = some after → ∃ runID, after =
          .claiming row next runID now (.fired dropped) ∧
        ∀ run, runID = some run → (state.startNewRun row.scheduled row.input).1 = .run run) :
      ScheduleMove state (.worker id (.start outcome))
        ((state.startNewRun row.scheduled row.input).2.setWorker id pass)
  | claims (id row next runID now cause outcome)
      (found : state.workers id = some (.claiming row next runID now cause))
      (called : outcome ≠ .failed) (held : state.nextRunAt = row.scheduled) :
      ScheduleMove state (.worker id (.claim outcome))
        (({ state with
          nextRunAt := next, lastRunID := runID.or state.lastRunID
          moves := state.moves ++ [⟨row.scheduled, next, now, cause⟩] } : ScheduleState).setWorker
            id none)
  | lives (run before status) (found : state.runs[run]? = some before)
      (goes : before.status.goesTo status = true) :
      ScheduleMove state (.setStatus run status)
        { state with runs := state.runs.set run { before with status } }
  | edits (input) : ScheduleMove state (.edit input) { state with input }
  | expires (instant) :
      ScheduleMove state (.expire instant)
        { state with keys := Function.update state.keys instant none }

theorem ScheduleState.passStep_move (state : ScheduleState) (id : Nat) (step : PassStep) :
    ScheduleMove config state (.worker id step)
      (state.passStep config id (state.workers id) step) := by
  generalize found : state.workers id = pass
  fun_cases ScheduleState.passStep config state id pass step with
  | case1 due => exact .reads id due
  | case3 row lookupFails overlaps =>
    simp only [overlaps]
    split
    · rename_i overlaps
      simp only [Bool.and_eq_true, decide_eq_true_eq] at overlaps
      exact .leads id _ _ _ found (.overlaps row lookupFails overlaps.1.1 overlaps.2)
    · rename_i clear
      refine .leads id _ _ _ found (.checks row lookupFails fun policy works => ?_)
      simpa [policy, works] using clear
  | case4 row => exact .leads id _ _ _ found (.skips row)
  | case5 row =>
    split
    · exact .leads id _ _ _ found (.looksAhead row ‹_›)
    · exact .leads id _ _ _ found (.catchesUp row)
  | case6 row future =>
    split
    · exact .leads id _ _ _ found (.misfires row future ‹_›)
    · exact .leads id _ _ _ found (.inTime row future)
  | case7 row => exact .leads id _ _ _ found (.advances row)
  | case9 row next dropped now => exact .starts id row next dropped now .lost none found nofun nofun
  | case10 row next dropped now result runID =>
    refine .starts id row next dropped now .ok _ found nofun fun after same => ?_
    refine ⟨_, (Option.some.inj same).symm, fun run named => ?_⟩
    cases started : (state.startNewRun row.scheduled row.input).1 with
    | run id => simpa [runID, result, started] using named
    | inputMismatch => simp [runID, result, started] at named
  | case12 row next runID now cause outcome called =>
    unfold ScheduleState.claimDueSchedule
    split
    · exact .claims id row next runID now cause outcome found called ‹_›
    · exact .ends id _
  | case8 | case11 | case13 => exact .ends id _
  | _ => exact .stays _

theorem ScheduleState.step_move (state : ScheduleState) (action : ScheduleAction) :
    ScheduleMove config state action (state.step config action) := by
  cases action with
  | tick time => exact .ticks time
  | worker id step => exact state.passStep_move config id step
  | setStatus run status =>
    cases found : state.runs[run]? with
    | none => simpa only [step, found] using .stays _
    | some before =>
      by_cases goes : before.status.goesTo status = true
      · simpa only [step, found, goes, if_true] using .lives run before status found goes
      · simpa only [step, found, goes] using .stays _
  | edit input => exact .edits input
  | expire instant => exact .expires instant

end Moves

section Invariant

variable (config : ScheduleConfig)

/-- The instants that have a run. -/
def ScheduleState.instants (state : ScheduleState) : List Nat := state.runs.map (·.instant)

/-- A move from one instant to a later one has its cause. A fired instant has a run; how far the
schedule goes was worked out at a time. -/
def Accounts (instants : List Nat) (scheduled next now : Nat) (cause : Cause) : Prop :=
  scheduled < next ∧
    match cause with
    | .fired dropped =>
      scheduled ∈ instants ∧
        scheduleAdvance config.cron scheduled now config.catchUpLimitOrDefault = (next, dropped)
    | .overlapped =>
      config.overlapPolicyOrDefault = .skip ∧
        (scheduleAdvance config.cron scheduled now config.catchUpLimitOrDefault).1 = next
    | .misfired => config.misfirePolicyOrDefault = .skip ∧ scheduled + minute < now

/-- What holds of a worker at the point it has come to. -/
def Pass.Sound (instants : List Nat) (clock : Nat) : Pass → Prop
  | .due row | .checked row | .current row => row.scheduled ≤ clock
  | .overlapping _ => config.overlapPolicyOrDefault = .skip
  | .misfiring row future =>
    row.scheduled < future ∧ row.scheduled ≤ clock ∧ config.misfirePolicyOrDefault = .skip
  | .starting row next dropped now =>
    scheduleAdvance config.cron row.scheduled now config.catchUpLimitOrDefault = (next, dropped)
  | .claiming row next _ now cause => Accounts config instants row.scheduled next now cause

/-- The moves lead from one instant to another. -/
def Linked : Nat → List Move → Nat → Prop
  | first, [], last => first = last
  | first, move :: rest, last => move.scheduled = first ∧ Linked move.next rest last

/-- The workers and the moves are sound, and a key names an instant that has a run. -/
structure ScheduleState.Sound (first : Nat) (state : ScheduleState) : Prop where
  keyed : ∀ instant, state.keys instant ≠ none → instant ∈ state.instants
  workers : ∀ id pass, state.workers id = some pass → pass.Sound config state.instants state.clock
  moves : ∀ move ∈ state.moves,
    Accounts config state.instants move.scheduled move.next move.now move.cause
  linked : Linked first state.moves state.nextRunAt

variable {config} {state after : ScheduleState} {first : Nat}

theorem Linked.concat {first last : Nat} {moves : List Move} {move : Move}
    (linked : Linked first moves last) (here : move.scheduled = last) :
    Linked first (moves ++ [move]) move.next := by
  induction moves generalizing first with
  | nil => exact ⟨here.trans linked.symm, rfl⟩
  | cons earlier rest ih => exact ⟨linked.1, ih linked.2⟩

variable {instants instants' : List Nat} {action : ScheduleAction}

theorem Accounts.mono {scheduled next now : Nat} {cause : Cause}
    (accounts : Accounts config instants scheduled next now cause) (grows : instants ⊆ instants') :
    Accounts config instants' scheduled next now cause := by
  refine ⟨accounts.1, ?_⟩
  cases cause with
  | fired dropped => exact ⟨grows accounts.2.1, accounts.2.2⟩
  | overlapped => exact accounts.2
  | misfired => exact accounts.2

theorem Pass.Sound.mono {clock clock' : Nat} {pass : Pass}
    (sound : pass.Sound config instants clock) (grows : instants ⊆ instants')
    (passes : clock ≤ clock') : pass.Sound config instants' clock' := by
  cases pass with
  | due row | checked row | current row => exact Nat.le_trans sound passes
  | overlapping row => exact sound
  | misfiring row future => exact ⟨sound.1, Nat.le_trans sound.2.1 passes, sound.2.2⟩
  | starting row next dropped now => exact sound
  | claiming row next runID now cause => exact Accounts.mono sound grows

/-- A worker goes on by itself. -/
theorem Pass.Sound.leads {step : PassStep} {before later : Pass}
    (sound : before.Sound config state.instants state.clock)
    (leads : Leads config state step before later) :
    later.Sound config state.instants state.clock := by
  cases leads with
  | overlaps row lookupFails policy last => exact policy
  | checks row lookupFails clear => exact sound
  | skips row => exact ⟨lt_scheduleAdvance _, sound, rfl⟩
  | looksAhead row policy => exact ⟨Nat.lt_of_le_of_lt sound (config.cron.after _), sound, policy⟩
  | catchesUp row => exact sound
  | misfires row future late => exact ⟨sound.1, sound.2.2, late⟩
  | inTime row future => exact sound.2.1
  | advances row => rfl

/-- The workers after a change of one of them. -/
theorem workers_update {Held : Pass → Prop} {workers : Nat → Option Pass} {id : Nat}
    {pass : Option Pass} (held : ∀ id pass, workers id = some pass → Held pass)
    (own : ∀ here, pass = some here → Held here) (other : Nat) (there : Pass)
    (found : update workers id pass other = some there) : Held there := by
  rw [update_apply] at found
  split at found
  · exact own there found
  · exact held other there found

/-- A start leaves the row of the schedule alone; afterwards the instant has a run. -/
theorem ScheduleState.startNewRun_spec (state : ScheduleState) (instant input : Nat) :
    (∃ run, state.keys instant = some run ∧ (state.startNewRun instant input).2 = state) ∨
      state.keys instant = none ∧ (state.startNewRun instant input).1 = .run state.runs.length ∧
        (state.startNewRun instant input).2 =
          { state with
            runs := state.runs ++
              [{ instant, besides := state.runs.any fun run => run.status ≠ .settled }]
            keys := update state.keys instant (some (state.runs.length, input)) } := by
  unfold startNewRun
  cases known : state.keys instant with
  | none => exact .inr ⟨rfl, rfl, rfl⟩
  | some run => exact .inl ⟨run, rfl, rfl⟩

theorem instants_set {run : Nat} {before : ScheduledRun} (status : RunStatus)
    (found : state.runs[run]? = some before) :
    ({ state with runs := state.runs.set run { before with status } } : ScheduleState).instants =
      state.instants := by
  obtain ⟨bound, here⟩ := List.getElem?_eq_some_iff.mp found
  have bound' : run < (state.runs.map (·.instant)).length := by simpa using bound
  have same : before.instant = (state.runs.map (·.instant))[run] := by simp [here]
  simp only [ScheduleState.instants, List.map_set]
  rw [same, List.set_getElem_self]

theorem ScheduleState.mem_instants_startNewRun (instant input : Nat)
    (keyed : ∀ instant, state.keys instant ≠ none → instant ∈ state.instants) :
    state.instants ⊆ (state.startNewRun instant input).2.instants ∧
      instant ∈ (state.startNewRun instant input).2.instants ∧
      ∀ other, (state.startNewRun instant input).2.keys other ≠ none →
        other ∈ (state.startNewRun instant input).2.instants := by
  obtain ⟨run, known, same⟩ | ⟨unknown, _, same⟩ := state.startNewRun_spec instant input
  · rw [same]
    exact ⟨refl _, keyed instant (by rw [known]; nofun), keyed⟩
  · rw [same]
    simp only [instants, map_append, map_singleton]
    refine ⟨subset_append_left _ _, by simp, fun other named => ?_⟩
    by_cases here : other = instant
    · simp [here]
    · rw [update_of_ne here] at named
      exact mem_append_left _ (keyed other named)

theorem ScheduleState.Sound.move (sound : state.Sound config first)
    (move : ScheduleMove config state action after) : after.Sound config first := by
  cases move with
  | stays action => exact sound
  | ticks time =>
    refine ⟨sound.keyed, ?_, sound.moves, sound.linked⟩
    intro id pass found
    exact (sound.workers id pass found).mono (refl _) (Nat.le_add_right _ _)
  | reads id due =>
    refine ⟨sound.keyed, ?_, sound.moves, sound.linked⟩
    refine workers_update sound.workers ?_
    intro here same
    rw [← Option.some.inj same]
    exact due
  | leads id step before later found leads =>
    refine ⟨sound.keyed, ?_, sound.moves, sound.linked⟩
    refine workers_update sound.workers ?_
    intro here same
    rw [← Option.some.inj same]
    exact (sound.workers id before found).leads leads
  | ends id step =>
    refine ⟨sound.keyed, ?_, sound.moves, sound.linked⟩
    exact workers_update sound.workers nofun
  | starts id row next dropped now outcome pass found called goesOn =>
    obtain ⟨grows, started, keyed⟩ := state.mem_instants_startNewRun row.scheduled row.input
      sound.keyed
    have frame : (state.startNewRun row.scheduled row.input).2.workers = state.workers ∧
        (state.startNewRun row.scheduled row.input).2.clock = state.clock ∧
        (state.startNewRun row.scheduled row.input).2.moves = state.moves ∧
        (state.startNewRun row.scheduled row.input).2.nextRunAt = state.nextRunAt := by
      obtain ⟨_, _, same⟩ | ⟨_, _, same⟩ := state.startNewRun_spec row.scheduled row.input <;>
        rw [same] <;> exact ⟨rfl, rfl, rfl, rfl⟩
    obtain ⟨workers, clock, moves, nextRunAt⟩ := frame
    constructor
    case keyed => exact keyed
    case workers =>
      rw [setWorker, workers]
      refine workers_update (fun id pass found => (sound.workers id pass found).mono grows
        (Nat.le_of_eq clock.symm)) ?_
      intro here same
      obtain ⟨runID, rfl, _⟩ := goesOn here same
      have advance : scheduleAdvance config.cron row.scheduled now
          config.catchUpLimitOrDefault = (next, dropped) := sound.workers id _ found
      have later : row.scheduled < next := by
        have := @lt_scheduleAdvance config.cron now row.scheduled config.catchUpLimitOrDefault
        rwa [advance] at this
      exact ⟨later, started, advance⟩
    case moves =>
      intro move member
      exact (sound.moves move (moves ▸ member)).mono grows
    case linked =>
      change Linked first (state.startNewRun row.scheduled row.input).2.moves
        (state.startNewRun row.scheduled row.input).2.nextRunAt
      rw [moves, nextRunAt]
      exact sound.linked
  | claims id row next runID now cause outcome found called held =>
    have accounts : Accounts config state.instants row.scheduled next now cause :=
      sound.workers id _ found
    constructor
    case keyed => exact sound.keyed
    case workers =>
      exact workers_update sound.workers nofun
    case moves => exact forall_mem_append.mpr ⟨sound.moves, forall_mem_singleton.mpr accounts⟩
    case linked => exact sound.linked.concat held.symm
  | lives run before status found goes =>
    constructor
    case keyed =>
      rw [instants_set status found]
      exact sound.keyed
    case workers =>
      rw [instants_set status found]
      exact sound.workers
    case moves =>
      rw [instants_set status found]
      exact sound.moves
    case linked => exact sound.linked
  | edits input => exact ⟨sound.keyed, sound.workers, sound.moves, sound.linked⟩
  | expires instant =>
    refine ⟨fun other named => ?_, sound.workers, sound.moves, sound.linked⟩
    apply sound.keyed
    intro unnamed
    apply named
    by_cases here : other = instant
    · rw [here]
      exact update_self ..
    · exact (update_of_ne here ..).trans unnamed

/-- The schedule never goes back. -/
theorem ScheduleState.Sound.nextRunAt_le (sound : state.Sound config first)
    (move : ScheduleMove config state action after) : state.nextRunAt ≤ after.nextRunAt := by
  cases move with
  | starts id row next dropped now outcome pass found called goesOn =>
    obtain ⟨_, _, same⟩ | ⟨_, _, same⟩ := state.startNewRun_spec row.scheduled row.input <;>
      rw [same] <;> exact Nat.le_refl _
  | claims id row next runID now cause outcome found called held =>
    have accounts : Accounts config state.instants row.scheduled next now cause :=
      sound.workers id _ found
    rw [held]
    exact Nat.le_of_lt accounts.1
  | _ => exact Nat.le_refl _

/-- No instant has two runs, and an instant that has one has its key. -/
def ScheduleState.Once (state : ScheduleState) : Prop :=
  state.instants.Nodup ∧ ∀ instant ∈ state.instants, state.keys instant ≠ none

theorem ScheduleState.Once.move (once : state.Once) (alive : ∀ instant, action ≠ .expire instant)
    (move : ScheduleMove config state action after) : after.Once := by
  cases move with
  | starts id row next dropped now outcome pass found called goesOn =>
    obtain ⟨_, _, same⟩ | ⟨unknown, _, same⟩ := state.startNewRun_spec row.scheduled row.input
    · rw [same]
      exact once
    · rw [same]
      have fresh : row.scheduled ∉ state.instants := fun member => once.2 _ member unknown
      constructor
      · change ((state.runs ++ [_]).map ScheduledRun.instant).Nodup
        rw [map_append, map_singleton, ← concat_eq_append]
        exact once.1.concat fresh
      · intro instant member
        change update state.keys row.scheduled _ instant ≠ none
        by_cases here : instant = row.scheduled
        · rw [here, update_self]
          nofun
        · rw [update_of_ne here]
          apply once.2
          have known : instant ∈ state.instants ∨ instant = row.scheduled := by
            simpa [instants, setWorker] using member
          exact known.resolve_right here
  | lives run before status found goes =>
    unfold ScheduleState.Once
    rw [instants_set status found]
    exact once
  | expires instant => exact absurd rfl (alive instant)
  | _ => exact once

end Invariant

section Runs

variable {config : ScheduleConfig} {state : ScheduleState}

/-- More instants than the limit were past when the move was worked out. -/
def Move.LongBacklog (config : ScheduleConfig) (move : Move) : Prop :=
  config.cron.next^[config.catchUpLimitOrDefault + 1] move.scheduled < move.now

/-- An instant that a move passes is accounted for: it has a run; or it is the one that was skipped
because the last run was in flight; or it belongs to a backlog longer than the limit, and the move
reports that more than the limit are dropped. -/
def Move.Accounted (config : ScheduleConfig) (state : ScheduleState) (move : Move) (count : Nat) :
    Prop :=
  (count = 0 ∧ ∃ run ∈ state.runs, run.instant = move.scheduled) ∨
    (count = 0 ∧ move.cause = .overlapped) ∨
    0 < count ∧ move.LongBacklog config ∧
      move.cause = .fired (config.catchUpLimitOrDefault + 1)

/-- A move that passes an instant in silence: one that skips for the last run and drops a long
backlog behind the skipped instant, or one by the misfire policy that passes more than an instant
with a run. -/
def Move.Silent (config : ScheduleConfig) (state : ScheduleState) (move : Move) : Prop :=
  move.cause = .overlapped ∧ move.LongBacklog config ∨
    move.cause = .misfired ∧ (config.cron.next move.scheduled < move.next ∨
      ∀ run ∈ state.runs, run.instant ≠ move.scheduled)

/-- Every instant that a move passes is accounted for exactly if the move is not silent.

Proof: by the cause. A firing reports what it drops. The move that skips an instant goes as far as
a firing would and reports nothing, so it is silent if the backlog is long. -/
theorem Move.accounted_iff {move : Move}
    (accounts : Accounts config state.instants move.scheduled move.next move.now move.cause) :
    (∀ count, config.cron.next^[count] move.scheduled < move.next →
      move.Accounted config state count) ↔ ¬ move.Silent config state := by
  obtain ⟨scheduled, next, now, cause⟩ := move
  obtain ⟨later, accounts⟩ := accounts
  cases cause with
  | fired dropped =>
    refine iff_of_true (fun count passed => ?_) (by simp [Silent])
    rcases Nat.eq_zero_or_pos count with rfl | positive
    · exact .inl ⟨rfl, mem_map.mp accounts.1⟩
    · have advance := @passed_scheduleAdvance config.cron now scheduled
        config.catchUpLimitOrDefault count positive (by rw [accounts.2]; exact passed)
      rw [accounts.2] at advance
      exact .inr (.inr ⟨positive, advance.1, congrArg Cause.fired advance.2⟩)
  | overlapped =>
    constructor
    · rintro all (⟨_, long⟩ | ⟨⟨⟩, _⟩)
      obtain ⟨short, _⟩ | ⟨_, same⟩ := @scheduleAdvance_cases config.cron now scheduled
        config.catchUpLimitOrDefault
      · exact short long
      · have first := config.cron.le_iterate (config.cron.next scheduled) config.catchUpLimitOrDefault
        rw [← iterate_succ_apply] at first
        have future := config.cron.after now
        have reached : config.cron.next now = next := 
          (congrArg Prod.fst same).symm.trans accounts.2
        have passed : config.cron.next^[1] scheduled < next :=
          Nat.lt_trans (Nat.lt_of_le_of_lt first long) (reached ▸ future)
        simpa [Accounted] using all 1 passed
    · intro spoken count passed
      rcases Nat.eq_zero_or_pos count with rfl | positive
      · exact .inr (.inl ⟨rfl, rfl⟩)
      · have advance := @passed_scheduleAdvance config.cron now scheduled
          config.catchUpLimitOrDefault count positive (by rw [accounts.2]; exact passed)
        exact absurd (.inl ⟨rfl, advance.1⟩) spoken
  | misfired =>
    constructor
    · rintro all (⟨⟨⟩, _⟩ | ⟨_, passed | unstarted⟩)
      · simpa [Accounted] using all 1 passed
      · obtain ⟨run, member, same⟩ : ∃ run ∈ state.runs, run.instant = scheduled := by
          simpa [Accounted] using all 0 later
        exact unstarted run member same
    · intro spoken count passed
      have started : ∃ run ∈ state.runs, run.instant = scheduled := by
        by_contra none
        exact spoken (.inr ⟨rfl, .inr fun run member same => none ⟨run, member, same⟩⟩)
      rcases Nat.eq_zero_or_pos count with rfl | positive
      · exact .inl ⟨rfl, started⟩
      · refine absurd (.inr ⟨rfl, .inl ?_⟩) spoken
        obtain ⟨before, rfl⟩ := Nat.exists_eq_add_of_lt positive
        rw [Nat.zero_add, iterate_succ_apply] at passed
        exact Nat.lt_of_le_of_lt (config.cron.le_iterate _ before) passed

/-- Within the lifetime of the keys every instant gets at most one run. The schedule never goes
back; it goes from instant to instant by the moves, and every instant that a move passes is accounted
for exactly if the move is not silent. A move skips for the last run or by the misfire policy only
if the schedule says so, the latter only if the instant is more than a minute late.

Proof: by induction over the actions, with what holds of each worker at the point it has come
to. -/
theorem schedule_instants (config : ScheduleConfig) (first : Nat) (actions : List ScheduleAction)
    (state : ScheduleState)
    (reached : state = stateAfter (ScheduleState.step config) { nextRunAt := first } actions) :
    ((∀ action ∈ actions, ∀ instant, action ≠ .expire instant) →
        ∀ instant, state.runs.countP (·.instant = instant) ≤ 1) ∧
      (∀ later, state.nextRunAt ≤
        (stateAfter (ScheduleState.step config) state later).nextRunAt) ∧
      Linked first state.moves state.nextRunAt ∧
      ∀ move ∈ state.moves,
        ((∀ count, config.cron.next^[count] move.scheduled < move.next →
          move.Accounted config state count) ↔ ¬ move.Silent config state) ∧
        (move.cause = .overlapped → config.overlapPolicyOrDefault = .skip) ∧
        (move.cause = .misfired → config.misfirePolicyOrDefault = .skip ∧
          move.scheduled + minute < move.now) := by
  have sound : state.Sound config first := by
    have initial : ({ nextRunAt := first } : ScheduleState).Sound config first :=
      ⟨nofun, nofun, nofun, rfl⟩
    rw [reached]
    exact stateAfter_invariant (ScheduleState.Sound config first)
      (fun state action sound => sound.move (state.step_move config action)) initial actions
  refine ⟨?_, ?_, sound.linked, fun move member => ?_⟩
  · intro alive instant
    have allowed : Allows (ScheduleState.step config)
        (fun _ action => ∀ instant, action ≠ .expire instant) { nextRunAt := first } actions :=
      allows_of_forall fun action member _ => alive action member
    have once : state.Once := by
      rw [reached]
      exact allowed.invariant ScheduleState.Once
        (fun state action alive once => once.move alive (state.step_move config action))
        ⟨nodup_nil, nofun⟩
    have count := nodup_iff_count_le_one.mp once.1 instant
    rwa [ScheduleState.instants, count_eq_countP, countP_map] at count
  · intro later
    exact (stateAfter_invariant
      (fun after : ScheduleState => after.Sound config first ∧ state.nextRunAt ≤ after.nextRunAt)
      (fun after action held => ⟨held.1.move (after.step_move config action),
        Nat.le_trans held.2 (held.1.nextRunAt_le (after.step_move config action))⟩)
      ⟨sound, Nat.le_refl _⟩ later).2
  · have accounts := sound.moves move member
    refine ⟨Move.accounted_iff accounts, fun skipped => ?_, fun skipped => ?_⟩
    · rw [skipped] at accounts
      exact accounts.2.1
    · rw [skipped] at accounts
      exact accounts.2

/-- Every whole minute. -/
def everyMinute : Cron where
  next time := (time / minute + 1) * minute
  after time := by
    have split := Nat.div_add_mod' time minute
    have small := Nat.mod_lt time (show 0 < minute by decide)
    rw [Nat.add_mul, Nat.one_mul]
    omega

/-- The steps of a worker that fires an instant. -/
def fires (id : Nat) : List ScheduleAction :=
  [.worker id .read, .worker id (.check false), .worker id .future, .worker id .advance,
    .worker id (.start .ok), .worker id (.claim .ok)]

/-- Two workers fire one instant, the second one after the first has moved the schedule. -/
theorem schedule_instants_twice :
    ∃ state, state = stateAfter (ScheduleState.step { cron := everyMinute }) { nextRunAt := minute }
        ([.tick minute, .worker 2 .read, .worker 2 (.check false), .worker 2 .future,
          .worker 2 .advance] ++ fires 1 ++ [.worker 2 (.start .ok), .worker 2 (.claim .ok)]) ∧
      state.runs.countP (·.instant = minute) ≤ 1 ∧ state.nextRunAt = 2 * minute := by
  refine ⟨_, rfl, ?_, by decide +kernel⟩
  exact (schedule_instants { cron := everyMinute } minute _ _ rfl).1 (by simp [fires]) minute

/-- A schedule that skips while its last run is in flight, and that catches up one instant at
most. It fires, and nothing looks at it for ten minutes. -/
def busySchedule : ScheduleConfig where
  cron := everyMinute
  overlapPolicy := some .skip
  catchUpLimit := 1

/-- The run is still in flight when a worker comes: the instant is skipped, and the backlog behind
it is dropped without a report. -/
theorem backlog_passed_by_overlap :
    ∃ state, state = stateAfter (ScheduleState.step busySchedule) { nextRunAt := minute }
        ([.tick minute] ++ fires 1 ++ [.tick (10 * minute), .worker 1 .read,
          .worker 1 (.check false), .worker 1 .advance, .worker 1 (.claim .ok)]) ∧
      ∃ move ∈ state.moves, ∃ count, everyMinute.next^[count] move.scheduled < move.next ∧
        ¬ move.Accounted busySchedule state count := by
  refine ⟨_, rfl, ⟨2 * minute, 12 * minute, 11 * minute, .overlapped⟩, by decide +kernel, 1, ?_, ?_⟩
  · decide +kernel
  · simp [Move.Accounted]

end Runs

end Cleat.Schedules
