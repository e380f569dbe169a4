import Cleat.Store.Calls

/-!
# The deadline of a defer phase

A run that is stopped and owes its defers gets a deadline, and the first sweep after the deadline
settles it. Between the two the run is claimed for its defers, released and reaped, and it may be
stopped again. A second stop settles a run that waits for its defers. A run that is executing them
has the status of any other run that is executed: it is marked anew, and its deadline moves.
-/
namespace Cleat.Store

open Durable StoreCall

attribute [local simp] StoreCall.perform StoreCall.apply Lease.marked

/-- The calls that a run may see in its defer phase. A worker that holds it finishes the phase or
releases the run, and a run that has not settled is not reopened. -/
def StoreCall.inDeferPhase : StoreCall → Bool
  | .finalizeSegment _ _ _ _ _ _ _ => false
  | .complete _ _ _ _ => false
  | .fail _ _ _ _ _ _ => false
  | .deadLetter _ _ _ _ _ _ => false
  | .continueAsNew _ _ _ _ _ => false
  | .retry => false
  | .reReplay _ => false
  | _ => true

/-- A run that was marked with this deadline and has not settled. -/
structure Noted (deadlineMs : Int) (core : LeaseCore) : Prop where
  pending : ∃ outcome, core.pendingTerminalStatus = some outcome ∧ outcome.settled = true
  unsettled : core.status.settled = false
  deadline : core.deferPhaseDeadline = some deadlineMs

/-- A run that has settled for good. -/
structure Over (core : LeaseCore) : Prop where
  settled : core.status.settled = true
  unnoted : core.pendingTerminalStatus = none
  unheld : core.assignedTo = none

theorem Noted.marked {deadlineMs : Int} {run : StoredRun} (noted : Noted deadlineMs run.lease.core) :
    run.lease.pendingTerminalStatus ≠ none := by
  obtain ⟨outcome, pending, _⟩ := noted.pending
  rw [← core_pendingTerminalStatus, pending]
  exact Option.some_ne_none outcome

section Steps

variable {nowMs deadlineMs : Int} {run : StoredRun} {call : StoreCall}

theorem settlesOwn_inDeferPhase (phase : call.inDeferPhase = true) : call.settlesOwn = false := by
  cases call <;> first | rfl | cases phase

/-- In the defer phase a run is settled otherwise only by terminating it. -/
theorem Reopens.stops {status : RunStatus} (reopens : Reopens call status)
    (phase : call.inDeferPhase = true) : call.stops = true := by
  cases reopens with
  | retried => cases phase
  | terminated => rfl
  | replayed => cases phase

/-- A call in the defer phase leaves a settled run settled. -/
theorem Over.step {core : LeaseCore} (over' : Over run.lease.core) (phase : call.inDeferPhase = true)
    (moved : LeaseMove nowMs call run core) : Over core := by
  rcases moved.of_settled over'.settled over'.unheld over'.unnoted with rfl | ⟨reopens, stopped⟩
  · exact over'
  · obtain ⟨settled, unnoted, unheld⟩ := stopped (reopens.stops phase)
    exact ⟨settled, unnoted, unheld⟩

/-- A call in the defer phase keeps the deadline or settles the run. -/
theorem Noted.step {core : LeaseCore} (noted : Noted deadlineMs run.lease.core)
    (phase : call.inDeferPhase = true) (unmarked : call.marks run = false)
    (moved : LeaseMove nowMs call run core) : Noted deadlineMs core ∨ Over core := by
  obtain ⟨⟨outcome, pending, final⟩, unsettled, deadline⟩ := noted
  simp only [core_status, core_pendingTerminalStatus, core_deferPhaseDeadline] at pending unsettled deadline
  have kept : ∀ {core : LeaseCore}, core.pendingTerminalStatus = run.lease.pendingTerminalStatus →
      core.deferPhaseDeadline = run.lease.deferPhaseDeadline → core.status.settled = false →
      Noted deadlineMs core :=
    fun same unmoved open' => ⟨⟨outcome, same.trans pending, final⟩, open', unmoved.trans deadline⟩
  cases moved with
  | idle => exact .inl (kept rfl rfl unsettled)
  | claimed => exact .inl (kept rfl rfl rfl)
  | parked _ waiting => exact .inl (kept rfl rfl (unsettled_of_parked waiting))
  | settled settles =>
    rw [settlesOwn_inDeferPhase phase] at settles
    cases settles
  | applied noted _ =>
    rw [pending] at noted
    cases noted
    exact .inr ⟨final, rfl, rfl⟩
  | reaped => exact .inl (kept rfl rfl (unsettled_of_waiting (waitingStatus_waits _)))
  | marked marks =>
    rw [unmarked] at marks
    cases marks
  | stopped _ _ _ final => exact .inr ⟨final, rfl, rfl⟩
  | reopened stops reopens =>
    rw [reopens.stops phase] at stops
    cases stops

/-- The sweep settles a run whose deadline has passed. -/
theorem Noted.expired (noted : Noted deadlineMs run.lease.core) (passed : deadlineMs < nowMs) :
    Over (expireDeferPhases.apply nowMs run).lease.core := by
  obtain ⟨⟨outcome, pending, final⟩, _, deadline⟩ := noted
  simp only [core_pendingTerminalStatus, core_deferPhaseDeadline] at pending deadline
  constructor <;>
    simp [expireDeferPhase, pending, deadline, passed, final]

/-- A call that marks a run sets its deadline from the time of this call. -/
theorem marks_deadline (marks : call.marks run = true) :
    (call.apply nowMs run).lease.deferPhaseDeadline = some (nowMs + deferPhaseTimeoutMs) := by
  cases call with
  | terminate reason =>
    have unsettled : run.lease.status.settled = false := unsettled_of_owed marks
    have owes : run.owesDefers = true := marks
    simp [terminateWorkflow, preemptivelySettle, unsettled,
      owes]
  | cancel reason =>
    have unsettled : run.lease.status.settled = false := unsettled_of_owed marks
    have owes : run.owesDefers = true := marks
    simp [cancelWorkflow, preemptivelySettle, unsettled,
      owes]
  | force generation wanted =>
    simp only [StoreCall.marks, Bool.and_eq_true, decide_eq_true_eq] at marks
    obtain ⟨current, owes⟩ := marks
    have unsettled : run.lease.status.settled = false := unsettled_of_owed owes
    simp [adminForceResolve, unsettled, current, owes]
  | closeIntoDeferPhase seesDefers seesCompaction outcomeMsg =>
    have unsettled : run.lease.status.settled = false := unsettled_of_owed marks
    have owes : deferPhaseOwed run.lease.status seesDefers seesCompaction = true := marks
    simp [closeIntoDeferPhase, unsettled, owes]
  | _ => cases marks

/-- A stop that marks a run notes an outcome and a deadline. -/
theorem marks_noted {markedMs : Int} (unmarked : run.lease.pendingTerminalStatus = none)
    (marks : (call.apply markedMs run).lease.pendingTerminalStatus ≠ none) :
    Noted (markedMs + deferPhaseTimeoutMs) (call.apply markedMs run).lease.core := by
  have moved : LeaseMove markedMs call run (call.apply markedMs run).lease.core := apply_moves call
  rw [← core_pendingTerminalStatus] at marks
  generalize (call.apply markedMs run).lease.core = core at marks moved
  cases moved with
  | marked _ _ final => exact ⟨⟨_, rfl, final⟩, rfl, rfl⟩
  | applied => exact absurd rfl marks
  | stopped => exact absurd rfl marks
  | idle => exact absurd unmarked marks
  | claimed => exact absurd unmarked marks
  | parked => exact absurd unmarked marks
  | settled => exact absurd unmarked marks
  | reaped => exact absurd unmarked marks
  | reopened => exact absurd unmarked marks

end Steps

section Phase

variable {deadlineMs : Int} {run : StoredRun} {calls : List (Int × StoreCall)}

/-- A call of the defer phase that does not mark a run which has an outcome noted: such a run is
not stopped again while a worker executes its defers. -/
def Patient (run : StoredRun) (call : Int × StoreCall) : Prop :=
  call.2.inDeferPhase = true ∧
    (run.lease.pendingTerminalStatus ≠ none → call.2.marks run = false)

instance (run : StoredRun) (call : Int × StoreCall) : Decidable (Patient run call) :=
  inferInstanceAs (Decidable (_ ∧ (_ → _)))

/-- Over the calls of a defer phase, a run keeps its deadline until it settles. -/
theorem noted_or_over (noted : Noted deadlineMs run.lease.core)
    (patient : Allows storeStep Patient run calls) :
    Noted deadlineMs (stateAfter storeStep run calls).lease.core ∨
      Over (stateAfter storeStep run calls).lease.core := by
  refine patient.invariant (fun run => Noted deadlineMs run.lease.core ∨ Over run.lease.core)
    ?_ (.inl noted)
  rintro run call ⟨phase, patient⟩ (noted | over')
  · exact noted.step phase (patient noted.marked) (apply_moves call.2)
  · exact .inr (over'.step phase (apply_moves call.2))

/-- The first sweep after the deadline settles the run, and it stays settled. -/
theorem over_of_sweep {sweptMs : Int} (noted : Noted deadlineMs run.lease.core)
    (patient : Allows storeStep Patient run calls)
    (swept : (sweptMs, expireDeferPhases) ∈ calls) (passed : deadlineMs < sweptMs) :
    Over (stateAfter storeStep run calls).lease.core := by
  obtain ⟨earlier, later, rfl⟩ := List.append_of_mem swept
  obtain ⟨before, _, after⟩ := allows_append.mp patient
  rw [stateAfter_append, stateAfter_cons]
  refine after.invariant (fun run => Over run.lease.core) ?_ ?_
  · rintro run call ⟨phase, _⟩ over'
    exact over'.step phase (apply_moves call.2)
  · rcases noted_or_over noted before with noted | over'
    · exact noted.expired passed
    · exact over'.step rfl (apply_moves _)

end Phase

/-- A run that is stopped and marked keeps the deadline of this stop for as long as its outcome is
noted, and it has settled after the first sweep past this deadline, whatever else is called: if
no stop arrives while a worker executes the defers of the run. A stop that does arrive then moves
the deadline. -/
theorem first_deadline_bounds {run marked : StoredRun} {markedMs : Int} {stop : StoreCall}
    {calls : List (Int × StoreCall)} (unmarked : run.lease.pendingTerminalStatus = none)
    (stopped : marked = stop.apply markedMs run) (marks : marked.lease.pendingTerminalStatus ≠ none)
    (patient : Allows storeStep Patient marked calls) {last : StoredRun}
    (reached : last = stateAfter storeStep marked calls) :
    (last.lease.pendingTerminalStatus ≠ none →
        last.lease.deferPhaseDeadline = some (markedMs + deferPhaseTimeoutMs)) ∧
      (∀ sweptMs, (sweptMs, expireDeferPhases) ∈ calls →
        markedMs + deferPhaseTimeoutMs < sweptMs → last.lease.status.settled = true) ∧
      ∀ nowMs (call : StoreCall), call.marks last = true →
        (call.apply nowMs last).lease.deferPhaseDeadline =
          some (nowMs + deferPhaseTimeoutMs) := by
  subst stopped reached
  have noted := marks_noted unmarked marks
  refine ⟨?_, ?_, fun nowMs call again => marks_deadline again⟩
  · intro still
    rcases noted_or_over noted patient with kept | over'
    · exact kept.deadline
    · exact absurd over'.unnoted still
  · intro sweptMs swept passed
    exact (over_of_sweep noted patient swept passed).settled

/-- A run with a defer that a worker executes. -/
def deferringRun : StoredRun :=
  stateAfter storeStep (insertLeaseAndPayloadRows "run" 0)
    [(0, .claim "worker"), (1, .append "worker" 1 [.defer])]

theorem first_deadline_bounds_swept :
    (stateAfter storeStep ((terminate "stop").apply 2 deferringRun)
      [(3, .claim "worker"), (300003, .expireDeferPhases)]).lease.status.settled = true :=
  (first_deadline_bounds (rfl : deferringRun.lease.pendingTerminalStatus = none) rfl (by decide) (by decide) rfl).2.1 300003
    (by decide) (by decide)

/-- A run that is terminated, claimed for its defers and terminated again: the sweep past the first
deadline leaves it running. -/
theorem second_stop_moves_deadline :
    ¬ ∀ (run marked last : StoredRun) (markedMs : Int) (stop : StoreCall)
      (calls : List (Int × StoreCall)), run.lease.pendingTerminalStatus = none →
      marked = stop.apply markedMs run → marked.lease.pendingTerminalStatus ≠ none →
      (∀ call ∈ calls, call.2.inDeferPhase = true) → last = stateAfter storeStep marked calls →
      (last.lease.pendingTerminalStatus ≠ none →
          last.lease.deferPhaseDeadline = some (markedMs + deferPhaseTimeoutMs)) ∧
        ∀ sweptMs, (sweptMs, expireDeferPhases) ∈ calls →
          markedMs + deferPhaseTimeoutMs < sweptMs → last.lease.status.settled = true := by
  intro claimed
  have settled := (claimed deferringRun _ _ 2 (.terminate "stop")
    [(3, .claim "worker"), (4, .terminate "stop"), (5, .claim "worker"),
      (300003, .expireDeferPhases)] rfl rfl (by decide) (by decide) rfl).2 300003 (by decide)
    (by decide)
  revert settled
  decide

end Cleat.Store
