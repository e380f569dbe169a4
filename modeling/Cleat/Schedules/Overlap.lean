import Cleat.Schedules.Loop

/-!
# Schedules that skip an instant while a run is in flight

Under the overlap policy skip a worker looks up the run that the schedule's row names as the last
one and starts no run while that one is running or ready. The row names the last run only if the
claim that followed its start has said so.

The check is right as long as nothing is started past it: a run is made only for the instant at
which the row still is, a claim without a run does not pass an instant that has one, and the last
run is not in the middle of being terminated.
-/
namespace Cleat.Schedules

open Durable List Function ScheduleState

section Condition

/-- The lookups succeed. A start that makes a run finds the schedule still at its instant, no run of
the instant and the last run not terminating; a claim without a run finds no run of the instant. -/
def ScheduleState.meets (state : ScheduleState) : ScheduleAction → Bool
  | .worker _ (.check lookupFails) => !lookupFails
  | .worker id (.start outcome) =>
    match state.workers id with
    | some (.starting row ..) =>
      outcome = .failed || (state.keys row.scheduled).isSome ||
        (state.nextRunAt = row.scheduled && row.scheduled ∉ state.instants &&
          !state.lastRunID.any fun run =>
            (state.runs[run]?).any fun last => last.status = .terminating)
    | _ => true
  | .worker id (.claim outcome) =>
    match state.workers id with
    | some (.claiming row _ runID ..) =>
      outcome = .failed || runID.isSome || state.nextRunAt ≠ row.scheduled ||
        row.scheduled ∉ state.instants
    | _ => true
  | _ => true

end Condition

section Invariant

/-- The row that a worker works with. -/
def Pass.row : Pass → DueRow
  | .due row | .overlapping row | .checked row | .misfiring row _ | .current row
  | .starting row .. | .claiming row .. => row

/-- The worker has looked for an overlap and goes on to start a run. -/
def Pass.cleared : Pass → Bool
  | .checked _ | .misfiring .. | .current _ | .starting .. => true
  | _ => false

/-- What a worker relies on as long as the schedule is at its instant: the row is as it has read it,
and after the check the last run is not in flight. A run that is to be claimed is of the instant. -/
structure Pass.Relies (state : ScheduleState) (pass : Pass) : Prop where
  past : pass.row.scheduled ≤ state.nextRunAt
  last : pass.row.scheduled = state.nextRunAt → pass.row.lastRunID = state.lastRunID
  clear : pass.row.scheduled = state.nextRunAt → pass.cleared = true →
    state.lastRunID.any state.inFlight = false
  claims : ∀ row next run now cause, pass = .claiming row next (some run) now cause →
    ∃ started, state.runs[run]? = some started ∧ started.instant = row.scheduled

/-- Runs that are not the last one and not of the instant at hand have settled; and if the instant at
hand has a run, so has the last one. -/
structure ScheduleState.Recorded (state : ScheduleState) : Prop where
  once : state.instants.Nodup
  past : ∀ instant ∈ state.instants, instant ≤ state.nextRunAt
  named : ∀ instant run held, state.keys instant = some (run, held) →
    ∃ started, state.runs[run]? = some started ∧ started.instant = instant
  last : ∀ run, state.lastRunID = some run → ∃ started, state.runs[run]? = some started ∧
    started.instant < state.nextRunAt
  settled : ∀ run started, state.runs[run]? = some started → started.instant < state.nextRunAt →
    state.lastRunID ≠ some run ∨ state.nextRunAt ∈ state.instants → started.status = .settled
  alone : ∀ run ∈ state.runs, run.besides = false
  workers : ∀ id pass, state.workers id = some pass → pass.Relies state

variable {config : ScheduleConfig} {state after : ScheduleState} {first : Nat} {pass : Pass}

/-- The runs keep their places and their instants. -/
def ScheduleState.Keeps (state after : ScheduleState) : Prop :=
  ∀ (run : Nat) (started : ScheduledRun), state.runs[run]? = some started →
    ∃ later, after.runs[run]? = some later ∧ later.instant = started.instant

/-- What a worker relies on outlasts the steps of the others: the schedule moves on, or its row stays
and the last run does not come back. -/
theorem Pass.Relies.mono (relies : pass.Relies state) (keeps : state.Keeps after)
    (rises : state.nextRunAt ≤ after.nextRunAt)
    (stays : after.nextRunAt = state.nextRunAt → after.lastRunID = state.lastRunID ∧
      ∀ run, state.lastRunID = some run → state.inFlight run = false → after.inFlight run = false) :
    pass.Relies after := by
  have still : pass.row.scheduled = after.nextRunAt →
      pass.row.scheduled = state.nextRunAt ∧ after.nextRunAt = state.nextRunAt := by
    intro here
    have before := relies.past
    omega
  constructor
  case past => exact Nat.le_trans relies.past rises
  case last =>
    intro here
    rw [relies.last (still here).1, (stays (still here).2).1]
  case clear =>
    intro here cleared
    have clear := relies.clear (still here).1 cleared
    obtain ⟨same, calm⟩ := stays (still here).2
    rw [same]
    cases last : state.lastRunID with
    | none => rfl
    | some run =>
      rw [last] at clear
      exact calm run last clear
  case claims =>
    intro row next run now cause same
    obtain ⟨started, found, instant⟩ := relies.claims row next run now cause same
    obtain ⟨later, found', instant'⟩ := keeps run started found
    exact ⟨later, found', instant'.trans instant⟩

/-- A worker that goes on by itself relies on the same row, and after the check the last run is not
in flight. -/
theorem Pass.Relies.leads {step : PassStep} {before : Pass} (relies : before.Relies state)
    (policy : config.overlapPolicyOrDefault = .skip)
    (works : ∀ lookupFails, step = .check lookupFails → lookupFails = false)
    (leads : Leads config state step before pass) : pass.Relies state := by
  obtain ⟨past, last, clear, claims⟩ := relies
  cases leads with
  | checks row lookupFails unoccupied =>
    refine ⟨past, last, fun here _ => ?_, nofun⟩
    rw [← last here]
    exact unoccupied policy (works _ rfl)
  | overlaps | skips | misfires => exact ⟨past, last, nofun, nofun⟩
  | looksAhead | catchesUp => exact ⟨past, last, clear, nofun⟩
  | inTime row future => exact ⟨past, last, clear, nofun⟩
  | advances row => exact ⟨past, last, clear, nofun⟩

/-- The state differs in the workers only, of which one has changed. -/
theorem ScheduleState.Recorded.setWorker (recorded : state.Recorded) {id : Nat} {here : Option Pass}
    (own : ∀ pass, here = some pass → pass.Relies state) : (state.setWorker id here).Recorded := by
  obtain ⟨once, past, named, last, settled, alone, workers⟩ := recorded
  have others : ∀ pass : Pass, pass.Relies state → pass.Relies (state.setWorker id here) :=
    fun _ relies => ⟨relies.past, relies.last, relies.clear, relies.claims⟩
  exact ⟨once, past, named, last, settled, alone, workers_update
    (fun id pass found => others pass (workers id pass found))
    fun pass same => others pass (own pass same)⟩

/-- If the last run has settled and the instant at hand has no run, all runs are of earlier instants
and have settled. -/
theorem ScheduleState.Recorded.quiet (recorded : state.Recorded)
    (fresh : state.nextRunAt ∉ state.instants)
    (calm : ∀ (run : Nat) (started : ScheduledRun), state.lastRunID = some run →
      state.runs[run]? = some started → started.status = .settled) (run : Nat)
    (started : ScheduledRun) (found : state.runs[run]? = some started) :
    started.instant < state.nextRunAt ∧ started.status = .settled := by
  have member : started.instant ∈ state.instants :=
    mem_map_of_mem (mem_of_getElem? found)
  have before : started.instant < state.nextRunAt := by
    have bound := recorded.past _ member
    have other : started.instant ≠ state.nextRunAt := fun same => fresh (same ▸ member)
    omega
  refine ⟨before, ?_⟩
  by_cases same : state.lastRunID = some run
  · exact calm run started same found
  · exact recorded.settled run started found before (.inl same)

/-- A run is added for the instant at hand, which has none, when all others have settled. -/
theorem ScheduleState.Recorded.adds (recorded : state.Recorded) {new : ScheduledRun} (input : Nat)
    (here : new.instant = state.nextRunAt) (fresh : state.nextRunAt ∉ state.instants)
    (quiet : ∀ (run : Nat) (started : ScheduledRun), state.runs[run]? = some started →
      started.status = .settled) (single : new.besides = false) :
    ({ state with
      runs := state.runs ++ [new]
      keys := update state.keys new.instant (some (state.runs.length, input)) } :
      ScheduleState).Recorded := by
  obtain ⟨once, past, named, last, settled, alone, workers⟩ := recorded
  have stays : ∀ (run : Nat) (started : ScheduledRun), state.runs[run]? = some started →
      (state.runs ++ [new])[run]? = some started := by
    intro run started found
    rw [List.getElem?_append_left (List.getElem?_eq_some_iff.mp found).1, found]
  constructor
  case once =>
    change ((state.runs ++ [new]).map ScheduledRun.instant).Nodup
    rw [map_append, map_singleton, ← concat_eq_append]
    exact once.concat (here ▸ fresh)
  case past =>
    intro other member
    have known : other ∈ state.instants ∨ other = new.instant := by
      simpa [instants] using member
    rcases known with member | rfl
    · exact past other member
    · exact Nat.le_of_eq here
  case named =>
    intro other run held key
    change update state.keys new.instant _ other = _ at key
    by_cases same : other = new.instant
    · rw [same, update_self] at key
      cases key
      exact ⟨new, getElem?_concat_length, same.symm⟩
    · rw [update_of_ne same] at key
      obtain ⟨started, found, at'⟩ := named other run held key
      exact ⟨started, stays run started found, at'⟩
  case last =>
    intro run named
    obtain ⟨started, found, before⟩ := last run named
    exact ⟨started, stays run started found, before⟩
  case settled =>
    intro run started found before _
    rcases mem_append.mp (mem_of_getElem? found) with old | added
    · obtain ⟨place, there⟩ := mem_iff_getElem?.mp old
      exact quiet place started there
    · rw [mem_singleton.mp added, here] at before
      exact absurd before (Nat.lt_irrefl _)
  case alone =>
    exact forall_mem_append.mpr ⟨alone, forall_mem_singleton.mpr single⟩
  case workers =>
    intro id pass found
    refine (workers id pass found).mono (fun run started found => ⟨started, stays run started found,
      rfl⟩) (Nat.le_refl _) fun _ => ⟨rfl, fun run named calm => ?_⟩
    obtain ⟨started, found, _⟩ := last run named
    simp only [inFlight, stays run started found]
    simpa only [inFlight, found] using calm

/-- The schedule moves on from an instant: with the run of the instant, which is then the last one, or
without one if the instant has none. -/
theorem ScheduleState.Recorded.claims (recorded : state.Recorded) {next : Nat} {runID : Option Nat}
    (later : state.nextRunAt < next)
    (named : ∀ run, runID = some run → ∃ started, state.runs[run]? = some started ∧
      started.instant = state.nextRunAt)
    (unnamed : runID = none → state.nextRunAt ∉ state.instants) (moves : List Move) :
    ({ state with nextRunAt := next, lastRunID := runID.or state.lastRunID, moves } :
      ScheduleState).Recorded := by
  obtain ⟨once, past, keyed, last, settled, alone, workers⟩ := recorded
  refine ⟨once, fun instant member => Nat.le_of_lt (Nat.lt_of_le_of_lt (past instant member) later),
    keyed, ?_, ?_, alone, ?_⟩
  · intro run same
    cases runID with
    | none =>
      obtain ⟨started, found, before⟩ := last run same
      exact ⟨started, found, Nat.lt_trans before later⟩
    | some run' =>
      obtain rfl : run' = run := Option.some.inj same
      obtain ⟨started, found, here⟩ := named run' rfl
      exact ⟨started, found, here ▸ later⟩
  · intro run started found _ other
    have member : started.instant ∈ state.instants :=
      mem_map_of_mem (mem_of_getElem? found)
    have unnext : next ∉ state.instants := fun there => Nat.not_le.mpr later (past next there)
    have other := other.resolve_right unnext
    cases runID with
    | none =>
      have before : started.instant < state.nextRunAt := by
        have bound := past _ member
        have apart : started.instant ≠ state.nextRunAt := fun same => unnamed rfl (same ▸ member)
        omega
      exact settled run started found before (.inl other)
    | some run' =>
      obtain ⟨started', found', here⟩ := named run' rfl
      have there : state.nextRunAt ∈ state.instants :=
        here ▸ mem_map_of_mem (mem_of_getElem? found')
      rcases Nat.lt_or_eq_of_le (past _ member) with before | same
      · exact settled run started found before (.inr there)
      · -- the instant has one run, and that is the last one now
        have one : state.instants[run]? = state.instants[run']? := by
          rw [instants, getElem?_map, getElem?_map, found, found',
            Option.map_some, Option.map_some, same, here]
        have bound : run < state.instants.length := by
          rw [instants, length_map]
          exact (List.getElem?_eq_some_iff.mp found).1
        exact absurd (congrArg some ((getElem?_inj bound once).mp one).symm) other
  · intro id pass found
    refine (workers id pass found).mono (fun run started found => ⟨started, found, rfl⟩)
      (Nat.le_of_lt later) fun same => absurd same (Nat.ne_of_gt later)

/-- A run goes on to another status. What has settled stays so, and a run that is not in flight does
not come back. -/
theorem ScheduleState.Recorded.lives (recorded : state.Recorded) {run : Nat} {before : ScheduledRun}
    {status : RunStatus} (found : state.runs[run]? = some before)
    (goes : before.status.goesTo status = true) :
    ({ state with runs := state.runs.set run { before with status } } : ScheduleState).Recorded := by
  obtain ⟨once, past, named, last, settled, alone, workers⟩ := recorded
  have same := instants_set status found
  have unsettled : before.status ≠ .settled := by
    intro ended
    rw [ended] at goes
    cases goes
  have lookup : ∀ place, (state.runs.set run { before with status })[place]? =
      if run = place then some { before with status } else state.runs[place]? := by
    intro place
    rw [getElem?_set]
    by_cases here : run = place
    · rw [if_pos here, if_pos here, if_pos (List.getElem?_eq_some_iff.mp found).1]
    · rw [if_neg here, if_neg here]
  have keeps : state.Keeps
      { state with runs := state.runs.set run { before with status } } := by
    intro place started there
    rw [lookup]
    by_cases here : run = place
    · rw [← here, found] at there
      exact ⟨_, if_pos here, by rw [← Option.some.inj there]⟩
    · exact ⟨started, (if_neg here).trans there, rfl⟩
  constructor
  case once => exact same ▸ once
  case past =>
    rw [same]
    exact past
  case named =>
    intro instant place held key
    obtain ⟨started, there, at'⟩ := named instant place held key
    obtain ⟨later, there', at''⟩ := keeps place started there
    exact ⟨later, there', at''.trans at'⟩
  case last =>
    intro place named
    obtain ⟨started, there, early⟩ := last place named
    obtain ⟨later, there', at'⟩ := keeps place started there
    exact ⟨later, there', at' ▸ early⟩
  case settled =>
    intro place started there early other
    rw [same] at other
    rw [lookup] at there
    by_cases here : run = place
    · rw [if_pos here] at there
      rw [← Option.some.inj there] at early
      exact absurd (settled run before found early (here ▸ other)) unsettled
    · rw [if_neg here] at there
      exact settled place started there early other
  case alone =>
    intro other member
    rcases mem_or_eq_of_mem_set member with old | rfl
    · exact alone other old
    · exact alone before (mem_of_getElem? found)
  case workers =>
    intro id pass working
    refine (workers id pass working).mono keeps (Nat.le_refl _) fun _ => ⟨rfl, fun place _ calm => ?_⟩
    simp only [inFlight, lookup]
    by_cases here : run = place
    · simp only [inFlight, ← here, found, Option.any_some] at calm
      cases ended : before.status <;> cases status <;> simp_all [RunStatus.goesTo]
    · rw [if_neg here]
      exact calm

attribute [local simp] meets

theorem ScheduleState.Recorded.move {action : ScheduleAction} (recorded : state.Recorded)
    (sound : state.Sound config first) (policy : config.overlapPolicyOrDefault = .skip)
    (meets : state.meets action = true) (move : ScheduleMove config state action after) :
    after.Recorded := by
  cases move with
  | stays action => exact recorded
  | ticks time | edits input =>
    obtain ⟨once, past, named, last, settled, alone, workers⟩ := recorded
    refine ⟨once, past, named, last, settled, alone, fun id pass found => ?_⟩
    obtain ⟨past, last, clear, claims⟩ := workers id pass found
    exact ⟨past, last, clear, claims⟩
  | expires instant =>
    obtain ⟨once, past, named, last, settled, alone, workers⟩ := recorded
    refine ⟨once, past, fun other run held key => ?_, last, settled, alone, fun id pass found => ?_⟩
    · change update state.keys instant none other = _ at key
      by_cases same : other = instant
      · rw [same, update_self] at key
        cases key
      · rw [update_of_ne same] at key
        exact named other run held key
    · obtain ⟨past, last, clear, claims⟩ := workers id pass found
      exact ⟨past, last, clear, claims⟩
  | reads id due =>
    refine recorded.setWorker fun pass same => ?_
    rw [← Option.some.inj same]
    exact ⟨Nat.le_refl _, fun _ => rfl, nofun, nofun⟩
  | leads id step before later found leads =>
    refine recorded.setWorker fun pass same => ?_
    rw [← Option.some.inj same]
    refine (recorded.workers id before found).leads policy ?_ leads
    rintro lookupFails rfl
    simpa using meets
  | ends id step => exact recorded.setWorker nofun
  | lives run before status found goes => exact recorded.lives found goes
  | claims id row next runID now cause outcome found called held =>
    have accounts : Accounts config state.instants row.scheduled next now cause :=
      sound.workers id _ found
    refine (recorded.claims (held ▸ accounts.1) ?_ ?_ _).setWorker nofun
    · intro run same
      subst same
      rw [held]
      exact (recorded.workers id _ found).claims row next run now cause rfl
    · rintro rfl
      simpa [found, called, held] using meets
  | starts id row next dropped now outcome pass found called goesOn =>
    have relies := recorded.workers id _ found
    obtain ⟨⟨run, input⟩, known, same⟩ | ⟨unknown, new, same⟩ :=
      state.startNewRun_spec row.scheduled row.input
    · rw [same]
      refine recorded.setWorker fun later goes => ?_
      obtain ⟨runID, rfl, named⟩ := goesOn later goes
      refine ⟨relies.past, relies.last, nofun, fun row' next' run' now' cause' equal => ?_⟩
      cases equal
      have answered := named run' rfl
      simp only [startNewRun, known] at answered
      by_cases held : input = row.input
      · rw [if_pos held] at answered
        cases answered
        exact recorded.named row.scheduled run input known
      · rw [if_neg held] at answered
        cases answered
    · have met : state.nextRunAt = row.scheduled ∧ row.scheduled ∉ state.instants ∧
          (state.lastRunID.any fun run =>
            (state.runs[run]?).any fun last => last.status = .terminating) = false := by
        simpa [found, called, unknown, and_assoc] using meets
      obtain ⟨here, fresh, unfinished⟩ := met
      have clear := relies.clear here.symm rfl
      have quiet := recorded.quiet (here ▸ fresh) fun run started last there => by
        simp only [last, Option.any_some, inFlight, there, Bool.or_eq_false_iff,
          decide_eq_false_iff_not] at clear unfinished
        cases status : started.status <;> simp_all
      have single : (state.runs.any fun run => run.status ≠ .settled) = false := by
        simp only [any_eq_false, decide_eq_true_eq, not_not]
        intro other there
        obtain ⟨place, found⟩ := mem_iff_getElem?.mp there
        exact (quiet place other found).2
      have added := @Recorded.adds state recorded
        { instant := row.scheduled, besides := state.runs.any fun run => run.status ≠ .settled }
        row.input here.symm (here ▸ fresh) (fun run started there => (quiet run started there).2)
        single
      rw [same]
      refine added.setWorker fun later goes => ?_
      obtain ⟨runID, rfl, named⟩ := goesOn later goes
      refine ⟨relies.past, relies.last, nofun, fun row' next' run' now' cause' equal => ?_⟩
      cases equal
      have answered := named run' rfl
      rw [new] at answered
      cases answered
      exact ⟨_, getElem?_concat_length, rfl⟩

end Invariant

section Runs

/-- Under the overlap policy skip no run is started besides one that has not settled, in every run of
the workers in which the lookups succeed, runs are made only for the instant at hand and not while
the last one is being terminated, and the schedule does not pass an instant that has a run without
noting it. Proof: by induction over the actions. Of the runs of earlier instants only the last one,
which the row names, may not have settled; and that one a worker has looked up. -/
theorem overlap_skip (config : ScheduleConfig) (policy : config.overlapPolicyOrDefault = .skip)
    (first : Nat) (actions : List ScheduleAction)
    (allowed : Allows (step config) (fun state action => state.meets action = true)
      { nextRunAt := first } actions) :
    ∀ run ∈ (stateAfter (step config) { nextRunAt := first } actions).runs,
      run.besides = false := by
  have kept := allowed.invariant
    (fun state : ScheduleState => state.Sound config first ∧ state.Recorded)
    (fun state action meets held => ⟨held.1.move (state.step_move config action),
      held.2.move held.1 policy meets (state.step_move config action)⟩)
    ⟨⟨nofun, nofun, nofun, rfl⟩, ⟨nodup_nil, nofun, nofun, nofun, nofun, nofun, nofun⟩⟩
  exact kept.2.alone

/-- A schedule that skips an instant while a run is in flight. -/
def skipping : ScheduleConfig := { cron := everyMinute, overlapPolicy := some .skip }

/-- An instant is skipped while the run of the one before is in flight, and the next one is fired. -/
theorem overlap_skip_settled :
    ∃ state, state = stateAfter (step skipping) { nextRunAt := minute }
        ([.tick minute] ++ fires 1 ++ [.setStatus 0 .running, .tick minute, .worker 2 .read,
          .worker 2 (.check false), .worker 2 .advance, .worker 2 (.claim .ok),
          .setStatus 0 .settled, .tick minute] ++ fires 1) ∧
      state.instants = [minute, 3 * minute] ∧ ∀ run ∈ state.runs, run.besides = false := by
  refine ⟨_, rfl, by decide +kernel, ?_⟩
  exact overlap_skip skipping rfl minute _ (by decide +kernel)

/-- The next instant is fired while the last run is being terminated; and while a run is in flight
that was started without the worker learning of it, after which the schedule's input was changed, so
that the instant was passed without noting its run. -/
theorem started_besides :
    (∃ run ∈ (stateAfter (step skipping) { nextRunAt := minute }
        ([.tick minute] ++ fires 1 ++ [.setStatus 0 .running, .setStatus 0 .terminating,
          .tick minute] ++ fires 1)).runs, run.besides = true) ∧
      ∃ run ∈ (stateAfter (step skipping) { nextRunAt := minute }
        ([.tick minute, .worker 1 .read, .worker 1 (.check false), .worker 1 .future,
          .worker 1 .advance, .worker 1 (.start .lost), .edit 1] ++ fires 2 ++ [.tick minute] ++
          fires 2)).runs, run.besides = true := by
  constructor <;> decide +kernel

end Runs

end Cleat.Schedules
