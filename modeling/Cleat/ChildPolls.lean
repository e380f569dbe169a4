import Cleat.GuestRuns

/-!
# Polls of children

A poll of a child records nothing. The session compares the time at which the child settled with
its own clock, and both are the same in a later segment. Whether the store shows the child as
settled is not: a transaction takes its time when it begins, and is seen when it has committed.
-/
namespace Cleat

open Durable List Option

/-- A child that has settled: its row, and the time in the row of the run that was started. -/
@[ext] structure SettledChild where
  row : ChildRow
  completedAtMs : Option Int
  settles : row.status.settled = true
deriving DecidableEq

/-- The children that the store shows as settled. -/
abbrev ChildTable := String → Option SettledChild

/-- A child stays as it has settled. -/
def ChildTable.Grown (table later : ChildTable) : Prop :=
  ∀ runID child, table runID = some child → later runID = some child

/-- The row of a child that an answer shows. -/
def shownRow : Observed → Option (String × Option ChildRow)
  | ⟨.getChildResult runID, .ok row⟩ => some (runID, row)
  | _ => none

/-- The time of a child that an answer shows. -/
def shownTime : Observed → Option (String × Option Int)
  | ⟨.getChildCompletedAtMs runID, .ok time⟩ => some (runID, time)
  | _ => none

/-- The answer is read from the table, or is a failure. Nothing is known of the time of a child
that has not settled. -/
def AnswersChild (table : ChildTable) (observed : Observed) : Prop :=
  (∀ shown ∈ shownRow observed,
    shown.2.filter (fun row => row.status.settled) = (table shown.1).map SettledChild.row) ∧
    ∀ shown ∈ shownTime observed, ∀ child ∈ table shown.1, shown.2 = child.completedAtMs

instance (table : ChildTable) (observed : Observed) : Decidable (AnswersChild table observed) :=
  inferInstanceAs (Decidable ((∀ shown ∈ shownRow observed, _ = _) ∧
    ∀ shown ∈ shownTime observed, ∀ child ∈ table shown.1, shown.2 = SettledChild.completedAtMs child))

/-- The store of a run's children, which settle meanwhile. -/
def childWorld : World Query Answer Unit ChildTable where
  Serves _ table observed after := after = table ∧ AnswersChild table observed
  Moves table after := ∃ runID child, table runID = none ∧
    after = Function.update table runID (some child)

/-- Two answers of one store in order, before a final table. -/
def InOrder (final : ChildTable) (observed later : Observed) : Prop :=
  ∃ table after, ChildTable.Grown table after ∧ ChildTable.Grown after final ∧
    AnswersChild table observed ∧ AnswersChild after later

variable {table : ChildTable}

theorem ChildTable.Grown.trans {later final : ChildTable} (first : table.Grown later)
    (second : later.Grown final) : table.Grown final :=
  fun runID child held => second runID child (first runID child held)

theorem childWorld_moves_grown {after : ChildTable} (moves : childWorld.Moves table after) :
    table.Grown after := by
  obtain ⟨runID, child, absent, rfl⟩ := moves
  intro other held found
  have different : other ≠ runID := by
    rintro rfl
    rw [absent] at found
    cases found
  rw [Function.update_of_ne different, found]

variable {engine : Engine} {guest : Guest GuestCall ToldCall} {cuts : List Cut}

/-- The answers that a run was given are those of one store in order. -/
theorem RunOn.inOrder (run : RunOn childWorld () engine guest cuts) :
    ∃ final, (guestObservations (guestRun engine guest cuts)).Pairwise (InOrder final) := by
  exact run.ordered (fun _ _ _ held => held) ChildTable.Grown.trans childWorld_moves_grown
    fun serves => serves

section Poll

/-- The child that a call polls, and its buffer. -/
def GuestCall.polledRun : GuestCall → Option (String × OutBuf)
  | .pollChild runID buffer => some (runID, buffer)
  | _ => none

/-- What a store shows of a settled child. -/
def SettledChild.answers (child : SettledChild) (runID : String) : Trace :=
  [⟨.getChildResult runID, .ok (some child.row)⟩,
    ⟨.getChildCompletedAtMs runID, .ok child.completedAtMs⟩]

/-- The child has settled by this time. A child without a time always has. -/
def SettledChild.settledBy (child : SettledChild) (nowMs : Int) : Bool :=
  child.completedAtMs.all fun completedAtMs => completedAtMs ≤ nowMs

def runningReport (engine : Engine) : String := marshalPoll engine "running" "" ""

/-- What a guest is told of a child that has settled. -/
def SettledChild.report (engine : Engine) (child : SettledChild) : String :=
  let outcome := childOutcome engine (some child.row)
  match child.completedAtMs with
  | none => marshalPoll engine "failed" "" noCompletionTimestamp
  | some _ =>
    if outcome.failed then marshalPoll engine "failed" "" outcome.error
    else marshalPoll engine "completed" outcome.result ""

/-- The answer of the store is an error. -/
def childStoreFailed : Observed → Bool
  | ⟨.getChildResult _, .error _⟩ | ⟨.getChildCompletedAtMs _, .error _⟩ => true
  | _ => false

/-- What a guest is told at this time. -/
def polledReport (engine : Engine) (nowMs : Int) : Option SettledChild → String
  | none => runningReport engine
  | some child => if child.settledBy nowMs then child.report engine else runningReport engine

attribute [local simp] polledReport

/-- The settled child that a poll was shown. -/
def polledChild : Trace → Option SettledChild
  | [⟨.getChildResult _, .ok (some row)⟩, ⟨.getChildCompletedAtMs _, .ok time⟩] =>
    if settles : row.status.settled = true then some ⟨row, time, settles⟩ else none
  | _ => none

theorem polledChild_answers (child : SettledChild) (runID : String) :
    polledChild (child.answers runID) = some child := by
  simp [polledChild, SettledChild.answers, child.settles]

theorem polledChild_unsettled (row : Option ChildRow) (runID : String) :
    polledChild [⟨.getChildResult runID, .ok row⟩] = none := by
  cases row <;> rfl

/-- What a poll that returns a status was shown. -/
inductive ShownToPoll (runID : String) : Trace → Prop where
  | unsettled (row : Option ChildRow) (runs : row.filter (fun row => row.status.settled) = none) :
      ShownToPoll runID [⟨.getChildResult runID, .ok row⟩]
  | settled (child : SettledChild) : ShownToPoll runID (child.answers runID)

theorem childOutcome_running {row : Option ChildRow} :
    (!(childOutcome engine row).completed && !(childOutcome engine row).failed) = true ↔
      row.filter (fun row => row.status.settled) = none := by
  rcases row with _ | ⟨status, result, errMsg⟩
  · simp [childOutcome]
  · cases status <;> simp [childOutcome, RunStatus.settled]

variable {runID : String} {buffer : OutBuf} {s : ExecSession} {trace retrace : Trace}
  {outcome : Option (ToldCall × ExecSession)} {child : SettledChild}

/-- A poll to which the store did not fail answers by the child that it was shown. -/
theorem pollChild_told (present : engine.childWfStore = true)
    (runs : ((guestHost engine).execute (.pollChild runID buffer) s).Runs trace outcome)
    (answered : ∀ observed ∈ trace, childStoreFailed observed = false) :
    ∀ result ∈ outcome, ShownToPoll runID trace ∧
      result.1 = ⟨.pollChild runID buffer,
        simpleValue buffer (bytesOf (polledReport engine s.nowMs (polledChild trace)))⟩ := by
  have holds : ((guestHost engine).execute (.pollChild runID buffer) s).Ensures
      (fun observed => childStoreFailed observed = false) fun trace outcome =>
        ∀ result ∈ outcome, ShownToPoll runID trace ∧
          result.1 = ⟨.pollChild runID buffer,
            simpleValue buffer (bytesOf (polledReport engine s.nowMs (polledChild trace)))⟩ := by
    dsimp only [guestHost, GuestCall.execute, pollChild, getChildResult]
    rw [present]
    refine ⟨by simp, fun answer sound => ?_⟩
    cases answer with
    | error reason => cases sound
    | ok row =>
      change Program.Ensures _ (Program.andThen
        (if (!(childOutcome engine row).completed && !(childOutcome engine row).failed) = true
          then _ else _) _) _
      split
      · rename_i running
        have unsettled := childOutcome_running.mp running
        rintro result ⟨rfl⟩
        exact ⟨.unsettled row unsettled, by cases row <;> rfl⟩
      · rename_i ended
        have held := mt childOutcome_running.mpr ended
        cases row with
        | none => exact absurd rfl held
        | some row =>
          have settles : row.status.settled = true := by
            simpa [filter] using held
          refine ⟨by simp, fun answer sound => ?_⟩
          cases answer with
          | error reason => cases sound
          | ok time =>
            let child : SettledChild := ⟨row, time, settles⟩
            have told : ∀ text, polledReport engine s.nowMs (some child) = text →
                ∀ result ∈ some ((⟨.pollChild runID buffer,
                    simpleValue buffer (bytesOf text)⟩ : ToldCall), s),
                  ShownToPoll runID (child.answers runID) ∧
                    result.1 = ⟨.pollChild runID buffer, simpleValue buffer (bytesOf
                      (polledReport engine s.nowMs (polledChild (child.answers runID))))⟩ := by
              rintro text reads result ⟨rfl⟩
              exact ⟨.settled child, by rw [polledChild_answers, reads]⟩
            cases time with
            | none => exact told _ rfl
            | some completedAtMs =>
              change Program.Ensures _ (Program.andThen
                (if completedAtMs > s.nowMs then _ else _) _) _
              split
              · rename_i late
                have unsettled : child.settledBy s.nowMs = false := by
                  simpa [child, SettledChild.settledBy] using late
                refine told _ ?_
                simp [unsettled, runningReport]
              · rename_i early
                have settled : child.settledBy s.nowMs = true := by
                  simpa [child, SettledChild.settledBy] using early
                split
                · rename_i failed
                  refine told _ ?_
                  simp [settled, SettledChild.report, child, failed]
                · rename_i completed
                  refine told _ ?_
                  simp [settled, SettledChild.report, child, completed]
  exact holds.of_runs runs answered

/-- A settled child that a store has shown is in its final table. -/
theorem SettledChild.final {final : ChildTable}
    (inside : (child.answers runID).Pairwise (InOrder final)) : final runID = some child := by
  obtain ⟨table, after, grown, below, ⟨rows, _⟩, ⟨_, times⟩⟩ :=
    (pairwise_cons.mp inside).1 _ mem_cons_self
  have row := rows _ rfl
  simp only [Option.filter, child.settles, if_true] at row
  obtain ⟨held, found, same⟩ := Option.map_eq_some_iff.mp row.symm
  have time := times _ rfl held (grown runID held found)
  obtain rfl : held = child := SettledChild.ext same time.symm
  exact below _ _ (grown _ _ found)

/-- A later poll of a child that was shown as settled is shown the same. -/
theorem ShownToPoll.again {final : ChildTable} (first : ShownToPoll runID trace)
    (second : ShownToPoll runID retrace) (inside : trace.Pairwise (InOrder final))
    (reinside : retrace.Pairwise (InOrder final))
    (across : ∀ observed ∈ trace, ∀ repeated ∈ retrace, InOrder final observed repeated)
    (shown : polledChild trace = some child) : polledChild retrace = some child := by
  cases first with
  | unsettled row runs =>
    rw [polledChild_unsettled] at shown
    cases shown
  | settled held =>
    obtain rfl : held = child := some.inj ((polledChild_answers held runID).symm.trans shown)
    have known := SettledChild.final inside
    cases second with
    | unsettled row runs =>
      obtain ⟨table, after, grown, _, ⟨rows, _⟩, ⟨rerows, _⟩⟩ :=
        across _ mem_cons_self _ mem_cons_self
      have row := rows _ rfl
      simp only [Option.filter, held.settles, if_true] at row
      obtain ⟨found, there, _⟩ := Option.map_eq_some_iff.mp row.symm
      have later := rerows _ rfl
      simp only [runs, grown runID found there, map_some] at later
      cases later
    | settled other =>
      rw [polledChild_answers, ← known, ← SettledChild.final reinside]

/-- A poll of a child that is made again has the same reply. Polls to which the store fails
return no status. -/
def ChildPolledAgain (step again : GuestStep) : Prop :=
  step.call.polledRun.isSome → again.call = step.call →
    (∀ observed ∈ step.trace ++ again.trace, childStoreFailed observed = false) →
    ∀ result ∈ step.outcome, ∀ repeated ∈ again.outcome, repeated.1 = result.1

instance (step again : GuestStep) : Decidable (ChildPolledAgain step again) :=
  inferInstanceAs (Decidable (_ → _ → _ → _))

/-- The guest cannot read from its buffer that the child has settled. -/
def SettledChild.Unreadable (engine : Engine) (buffer : OutBuf) (child : SettledChild) : Prop :=
  simpleValue buffer (bytesOf (child.report engine)) =
    simpleValue buffer (bytesOf (runningReport engine))

theorem polled_alike_iff {nowMs later : Int} {first : Option SettledChild}
    (known : first = none ∨ first = some child) :
    simpleValue buffer (bytesOf (polledReport engine later (some child))) =
        simpleValue buffer (bytesOf (polledReport engine nowMs first)) ↔
      (¬ child.Unreadable engine buffer →
        (child.settledBy later ↔ first.isSome ∧ child.settledBy nowMs)) := by
  unfold SettledChild.Unreadable
  rcases known with rfl | rfl
  · by_cases settled : child.settledBy later = true
    · simp [settled]
    · simp [settled]
  · by_cases settled : child.settledBy later = true
    · by_cases before : child.settledBy nowMs = true
      · simp [settled, before]
      · simp [settled, before]
    · by_cases before : child.settledBy nowMs = true
      · simp [settled, before, eq_comm]
      · simp [settled, before]

/-- Without a store, every poll has the same reply. -/
theorem pollChild_absent (absent : engine.childWfStore = false)
    (runs : ((guestHost engine).execute (.pollChild runID buffer) s).Runs trace outcome) :
    ∀ result ∈ outcome, result.1 = ⟨.pollChild runID buffer, simpleValue buffer
      (bytesOf (marshalPoll engine "failed" "" "no child workflow store"))⟩ := by
  have holds : ((guestHost engine).execute (.pollChild runID buffer) s).Always
      fun _ outcome => ∀ result ∈ outcome, result.1 = ⟨.pollChild runID buffer, simpleValue buffer
        (bytesOf (marshalPoll engine "failed" "" "no child workflow store"))⟩ := by
    dsimp only [guestHost, GuestCall.execute, pollChild]
    rw [absent]
    rintro result ⟨rfl⟩
    rfl
  exact holds.of_runs runs fun _ _ => trivial

/-- A child that the repeated poll finds settled by the session's time was already shown as
settled to the first poll, and by its time; and the other way round. -/
def ChildSettledAgain (engine : Engine) (step again : GuestStep) : Prop :=
  ∀ polled ∈ step.call.polledRun, again.call = step.call → engine.childWfStore = true →
    (∀ observed ∈ step.trace ++ again.trace, childStoreFailed observed = false) →
    step.outcome.isSome → again.outcome.isSome →
    ∀ child ∈ polledChild again.trace, ¬ child.Unreadable engine polled.2 →
      (child.settledBy again.before.nowMs ↔
        (polledChild step.trace).isSome ∧ child.settledBy step.before.nowMs)

/-- Two polls of a child in order, to which the store did not fail, have the same reply exactly if
the child has settled by their times for both or for neither. -/
theorem polls_alike_iff {final : ChildTable} {later : ExecSession}
    {result repeated : ToldCall × ExecSession} (present : engine.childWfStore = true)
    (ran : ((guestHost engine).execute (.pollChild runID buffer) s).Runs trace (some result))
    (reran : ((guestHost engine).execute (.pollChild runID buffer) later).Runs retrace
      (some repeated)) (answered : ∀ observed ∈ trace ++ retrace, childStoreFailed observed = false)
    (inside : trace.Pairwise (InOrder final)) (reinside : retrace.Pairwise (InOrder final))
    (across : ∀ observed ∈ trace, ∀ repeated ∈ retrace, InOrder final observed repeated) :
    repeated.1 = result.1 ↔ ∀ child ∈ polledChild retrace, ¬ child.Unreadable engine buffer →
      (child.settledBy later.nowMs ↔
        (polledChild trace).isSome ∧ child.settledBy s.nowMs) := by
  obtain ⟨shown, told⟩ := pollChild_told present ran
    (fun observed member => answered observed (mem_append_left _ member)) result rfl
  obtain ⟨reshown, retold⟩ := pollChild_told present reran
    (fun observed member => answered observed (mem_append_right _ member)) repeated rfl
  have again : ∀ child, polledChild trace = some child → polledChild retrace = some child :=
    fun child found => shown.again reshown inside reinside across found
  rw [told, retold, ToldCall.mk.injEq, eq_self, true_and]
  cases found : polledChild retrace with
  | none =>
    cases before : polledChild trace with
    | none => simp
    | some child => simp [again child before] at found
  | some child =>
    have known : polledChild trace = none ∨ polledChild trace = some child := by
      cases before : polledChild trace with
      | none => exact .inl rfl
      | some other => exact .inr ((again other before).symm.trans found)
    rw [polled_alike_iff known]
    constructor
    · rintro settled _ ⟨rfl⟩
      exact settled
    · exact fun settled => settled child rfl

/-- In every run and whenever its children settle, the polls of children answer the same again
exactly if no child turns out settled that was not shown in time. -/
theorem child_polled_again_iff (run : RunOn childWorld () engine guest cuts) :
    Recurs ChildPolledAgain (guestRun engine guest cuts) ↔
      Recurs (ChildSettledAgain engine) (guestRun engine guest cuts) := by
  obtain ⟨final, ordered⟩ := run.inOrder
  refine recurs_congr ordered fun step again own reown crossing ran reran => ?_
  obtain ⟨call, before, trace, outcome⟩ := step
  obtain ⟨recalled, rebefore, retrace, reoutcome⟩ := again
  unfold ChildPolledAgain ChildSettledAgain
  cases call with
  | pollChild runID buffer =>
    by_cases same : recalled = .pollChild runID buffer
    · subst same
      rcases outcome with _ | result
      · simp
      rcases reoutcome with _ | reresult
      · simp
      by_cases present : engine.childWfStore = true
      · have alike := fun answered => polls_alike_iff present ran reran answered own reown crossing
        constructor
        · rintro polls _ ⟨rfl⟩ _ _ answered _ _
          have same : reresult.1 = result.1 := polls rfl rfl answered result rfl reresult rfl
          exact (alike answered).mp same
        · rintro settles _ _ answered _ ⟨rfl⟩ _ ⟨rfl⟩
          exact (alike answered).mpr (settles (runID, buffer) rfl rfl present answered rfl rfl)
      · have absent : engine.childWfStore = false := by simpa using present
        have told := pollChild_absent absent ran result rfl
        have retold := pollChild_absent absent reran reresult rfl
        simp [told, retold, absent]
    · simp [same]
  | _ => simp [GuestCall.polledRun]

end Poll

section LateCommit

/-- The part of a path in which the table stays as it is. -/
def childReads (table : ChildTable) (observations : Trace) :
    List (Served Query Answer Unit ChildTable) :=
  observations.map fun observed => ⟨table, (), observed, table⟩

variable {table : ChildTable} {observations : Trace}

theorem childReads_valid (answers : ∀ observed ∈ observations, AnswersChild table observed) :
    childWorld.Valid table (childReads table observations) := by
  induction observations with
  | nil => trivial
  | cons first rest ih =>
    obtain ⟨own, later⟩ := forall_mem_cons.mp answers
    exact ⟨.refl, ⟨rfl, own⟩, ih later⟩

/-- A child settles between two parts of a path. -/
theorem childReads_settle {runID : String} {child : SettledChild} {later : Trace}
    (absent : table runID = none) (answers : ∀ observed ∈ observations, AnswersChild table observed)
    (reanswers : ∀ observed ∈ later,
      AnswersChild (Function.update table runID (some child)) observed) :
    childWorld.Valid table (childReads table observations ++
      childReads (Function.update table runID (some child)) later) := by
  induction observations with
  | nil =>
    cases later with
    | nil => trivial
    | cons first rest =>
      obtain ⟨own, others⟩ := forall_mem_cons.mp reanswers
      exact ⟨.single ⟨runID, child, absent, rfl⟩, ⟨rfl, own⟩, childReads_valid others⟩
  | cons first rest ih =>
    obtain ⟨own, others⟩ := forall_mem_cons.mp answers
    exact ⟨.refl, ⟨rfl, own⟩, ih others⟩

theorem observedBy_childReads (table : ChildTable) (observations : Trace) :
    observedBy () (childReads table observations) = observations := by
  simp [observedBy, childReads, Function.comp_def]

/-- A guest that starts a child, polls it and makes a call. -/
def startsAndPolls : Guest GuestCall ToldCall :=
  inTurn [.childWorkflow { name := "child", input := "" } roomy, .pollChild "child" roomy,
    .host (.durableCall "service" "operation" "" roomy)]

/-- The child takes its time before the poll, and commits between the two segments. -/
def lateCommit : List Cut :=
  [Surroundings.cut {} [8, 8, 8],
    Surroundings.cut { child := some { status := .done }, childCompletedAtMs := some 1000 } [8, 8, 8]]

/-- The child as it has settled. -/
def committedChild : SettledChild := ⟨{ status := .done }, some 1000, rfl⟩

/-- The run, of whose segments only the second finds the child settled. -/
def lateCommitRun : RunOn childWorld () {} startsAndPolls lateCommit where
  state := fun _ => none
  path :=
    childReads (fun _ => none) (guestObservations ((guestRun {} startsAndPolls lateCommit).take 1)) ++
      childReads (Function.update (fun _ => none) "child" (some committedChild))
        (guestObservations ((guestRun {} startsAndPolls lateCommit).drop 1))
  valid := childReads_settle rfl (by decide +kernel) (by decide +kernel)
  followed := by
    rw [observedBy, List.filterMap_append, ← observedBy, ← observedBy, observedBy_childReads,
      observedBy_childReads, guestObservations, guestObservations, ← List.flatMap_append,
      List.take_append_drop]
    rfl

/-- A poll that found a child running finds it completed when it is made again. -/
theorem child_settles_before_poll_on_replay :
    ∃ _ : RunOn childWorld () {} startsAndPolls lateCommit,
      (∀ segment ∈ guestRun {} startsAndPolls lateCommit, segment.Persists) ∧
        ¬ Recurs ChildPolledAgain (guestRun {} startsAndPolls lateCommit) :=
  ⟨lateCommitRun, by decide +kernel, by decide +kernel⟩

end LateCommit

end Cleat
