import Cleat.Durable.Machine
import Cleat.Store.Lease

/-!
# The calls on a stored run

A run is worked on by calls of its workers, of operators, of other runs and of sweeps, in any
order. Each is one transaction: it does what it does to the rows or fails and leaves them.

`LeaseMove` says once what a call can do to the part of the lease that decides who may write.
What holds over every sequence of calls is derived from it.
-/
namespace Cleat.Store

open Bool

/-- The calls on a run. The statements of a closing parent are calls on its children; they carry
what they saw of the child's events. -/
inductive StoreCall where
  | claim (worker : String)
  | claimSticky (worker : String)
  | heartbeat (worker : String) (generation : Nat)
  | finalizeSegment (worker : String) (generation : Nat) (newEvents : List EventType)
      (final : FinalStatus) (result queryState : String) (wakeAtMs : Int)
  | complete (worker : String) (generation : Nat) (result queryState : String)
  | fail (worker : String) (generation : Nat) (errMsg errorCode errorOp : String)
      (queryState : Option String)
  | deadLetter (worker : String) (generation : Nat) (errMsg errorCode errorOp : String)
      (queryState : Option String)
  | continueAsNew (worker : String) (generation : Nat) (newEvents : List EventType)
      (result queryState : String)
  | release (worker : String) (generation : Nat) (wakeAtMs : Int)
  | finalizeDeferPhase (worker : String) (generation : Nat) (newEvents : List EventType)
  | append (worker : String) (generation : Nat) (newEvents : List EventType)
  | expireDeferPhases
  | reap (timeoutMs : Int)
  | terminate (reason : String)
  | cancel (reason : String)
  | force (generation : Nat) (wanted : AdminForce)
  | closeTerminated (seesDefers seesCompaction : Bool) (outcomeMsg : String)
  | closeIntoDeferPhase (seesDefers seesCompaction : Bool) (outcomeMsg : String)
  | closeRequestingCancel
  | retry
  | reReplay (generation : Nat)
  | compact (generation folded : Nat) (compactionState : String)
  | signal
  | consumeSignal
  | resolvePromise
  | requestCancellation (reason : Option String)
deriving DecidableEq, Repr

def StoreCall.perform (nowMs : Int) (run : StoredRun) : StoreCall → Committed
  | .claim worker => claimWorkflow worker nowMs run
  | .claimSticky worker => claimStickyWorkflow worker nowMs run
  | .heartbeat worker generation => Store.heartbeat worker generation nowMs run
  | .finalizeSegment worker generation newEvents final result queryState wakeAtMs =>
    finalizeWorkflowSegment worker generation newEvents final result queryState wakeAtMs nowMs run
  | .complete worker generation result queryState =>
    completeWorkflow worker generation result queryState nowMs run
  | .fail worker generation errMsg errorCode errorOp queryState =>
    failWorkflow worker generation errMsg errorCode errorOp queryState nowMs run
  | .deadLetter worker generation errMsg errorCode errorOp queryState =>
    moveToDeadLetterQueue worker generation errMsg errorCode errorOp queryState nowMs run
  | .continueAsNew worker generation newEvents result queryState =>
    continueAsNewRun worker generation newEvents result queryState nowMs run
  | .release worker generation wakeAtMs => releaseWorkflow worker generation wakeAtMs run
  | .finalizeDeferPhase worker generation newEvents =>
    Store.finalizeDeferPhase worker generation newEvents nowMs run
  | .append _ _ newEvents => .ok (appendEvents newEvents run)
  | .expireDeferPhases => .ok (expireDeferPhase nowMs run)
  | .reap timeoutMs => .ok (reapStaleInstance timeoutMs nowMs run)
  | .terminate reason => terminateWorkflow reason nowMs run
  | .cancel reason => cancelWorkflow reason nowMs run
  | .force generation wanted => adminForceResolve generation wanted nowMs run
  | .closeTerminated seesDefers seesCompaction outcomeMsg =>
    .ok (Store.closeTerminated seesDefers seesCompaction outcomeMsg nowMs run)
  | .closeIntoDeferPhase seesDefers seesCompaction outcomeMsg =>
    .ok (Store.closeIntoDeferPhase seesDefers seesCompaction outcomeMsg nowMs run)
  | .closeRequestingCancel => .ok (Store.closeRequestingCancel run)
  | .retry => .ok (retryWorkflow nowMs run)
  | .reReplay generation => adminReReplay generation nowMs run
  | .compact generation folded compactionState =>
    compactHistory generation folded compactionState run
  | .signal => .ok (bumpLeaseSignalSeqAndWake nowMs run)
  | .consumeSignal => .ok (bumpLeaseSignalConsumedSeq run)
  | .resolvePromise => .ok (bumpLeasePromiseSeqAndWake nowMs run)
  | .requestCancellation reason => .ok (setLeaseCancellation reason run)

/-- The run after a call. A call that fails is rolled back. -/
def StoreCall.apply (nowMs : Int) (run : StoredRun) (call : StoreCall) : StoredRun :=
  match call.perform nowMs run with
  | .ok after => after
  | .error _ => run

/-- One call at its time. -/
def storeStep (run : StoredRun) (call : Int × StoreCall) : StoredRun := call.2.apply call.1 run

/-- The worker and the generation that a worker's call carries. -/
def StoreCall.carried : StoreCall → Option (String × Nat)
  | .heartbeat worker generation => some (worker, generation)
  | .finalizeSegment worker generation _ _ _ _ _ => some (worker, generation)
  | .complete worker generation _ _ => some (worker, generation)
  | .fail worker generation _ _ _ _ => some (worker, generation)
  | .deadLetter worker generation _ _ _ _ => some (worker, generation)
  | .continueAsNew worker generation _ _ _ => some (worker, generation)
  | .release worker generation _ => some (worker, generation)
  | .finalizeDeferPhase worker generation _ => some (worker, generation)
  | .append worker generation _ => some (worker, generation)
  | _ => none

/-- The calls by which a worker settles the run that it executes. -/
def StoreCall.settlesOwn : StoreCall → Bool
  | .finalizeSegment _ _ _ .done _ _ _ => true
  | .complete _ _ _ _ => true
  | .fail _ _ _ _ _ _ => true
  | .deadLetter _ _ _ _ _ _ => true
  | .continueAsNew _ _ _ _ _ => true
  | _ => false

/-- The calls that stop a run from outside. -/
def StoreCall.stops : StoreCall → Bool
  | .terminate _ => true
  | .cancel _ => true
  | .force _ _ => true
  | .closeTerminated _ _ _ => true
  | .closeIntoDeferPhase _ _ _ => true
  | _ => false

/-- The calls that run a settled run again, or settle it otherwise. -/
inductive Reopens : StoreCall → RunStatus → Prop where
  | retried : Reopens .retry .deadLettered
  | terminated (reason : String) : Reopens (.terminate reason) .deadLettered
  | replayed (generation : Nat) {status : RunStatus} (listed : status ∈ reReplayableStatuses) :
      Reopens (.reReplay generation) status

/-- The part of a lease that decides who may write. -/
structure LeaseCore where
  status : RunStatus
  assignedTo : Option String
  generation : Nat
  pendingTerminalStatus : Option RunStatus
  deferPhaseDeadline : Option Int
deriving DecidableEq, Repr

def Lease.core (lease : Lease) : LeaseCore :=
  ⟨lease.status, lease.assignedTo, lease.generation, lease.pendingTerminalStatus,
    lease.deferPhaseDeadline⟩

@[simp] theorem core_status (lease : Lease) : lease.core.status = lease.status := rfl

@[simp] theorem core_assignedTo (lease : Lease) : lease.core.assignedTo = lease.assignedTo := rfl

@[simp] theorem core_generation (lease : Lease) : lease.core.generation = lease.generation := rfl

@[simp] theorem core_pendingTerminalStatus (lease : Lease) :
    lease.core.pendingTerminalStatus = lease.pendingTerminalStatus := rfl

@[simp] theorem core_deferPhaseDeadline (lease : Lease) :
    lease.core.deferPhaseDeadline = lease.deferPhaseDeadline := rfl

/-- The run owes its defers, as far as a call that stops it sees. -/
def StoreCall.seesOwed (call : StoreCall) (run : StoredRun) : Bool :=
  match call with
  | .closeTerminated seesDefers seesCompaction _ =>
    deferPhaseOwed run.lease.status seesDefers seesCompaction
  | .closeIntoDeferPhase seesDefers seesCompaction _ =>
    deferPhaseOwed run.lease.status seesDefers seesCompaction
  | _ => run.owesDefers

/-- The call finds the run with its defers owed, and marks it. -/
def StoreCall.marks (run : StoredRun) : StoreCall → Bool
  | .terminate _ => run.owesDefers
  | .cancel _ => run.owesDefers
  | .force generation _ => run.lease.generation = generation && run.owesDefers
  | .closeIntoDeferPhase seesDefers seesCompaction _ =>
    deferPhaseOwed run.lease.status seesDefers seesCompaction
  | _ => false

/-- What a call can do to the core of a run's lease. -/
inductive LeaseMove (nowMs : Int) (call : StoreCall) (run : StoredRun) : LeaseCore → Prop where
  | idle : LeaseMove nowMs call run run.lease.core
  | claimed (worker : String)
      (waits : run.lease.status = .ready ∨ run.lease.status = .terminating) :
      LeaseMove nowMs call run ⟨.running, some worker, run.lease.generation + 1,
        run.lease.pendingTerminalStatus, run.lease.deferPhaseDeadline⟩
  | parked {worker : String} {generation : Nat} {status : RunStatus}
      (held : run.lease.heldBy worker generation = true)
      (waiting : status = .ready ∨ status = run.lease.waitingStatus) :
      LeaseMove nowMs call run ⟨status, none, run.lease.generation,
        run.lease.pendingTerminalStatus, run.lease.deferPhaseDeadline⟩
  | settled {worker : String} {generation : Nat} {status : RunStatus}
      (settles : call.settlesOwn = true) (carried : call.carried = some (worker, generation))
      (held : run.lease.heldBy worker generation = true) (final : status.settled = true) :
      LeaseMove nowMs call run ⟨status, none, run.lease.generation,
        run.lease.pendingTerminalStatus, run.lease.deferPhaseDeadline⟩
  | applied {outcome : RunStatus} {generation : Nat}
      (noted : run.lease.pendingTerminalStatus = some outcome)
      (later : run.lease.generation ≤ generation) :
      LeaseMove nowMs call run ⟨outcome, none, generation, none, none⟩
  | reaped (executes : run.lease.status = .running) :
      LeaseMove nowMs call run ⟨run.lease.waitingStatus, none, run.lease.generation + 1,
        run.lease.pendingTerminalStatus, run.lease.deferPhaseDeadline⟩
  | marked {outcome : RunStatus} (marks : call.marks run = true)
      (unsettled : run.lease.status.settled = false) (final : outcome.settled = true) :
      LeaseMove nowMs call run ⟨.terminating, none, run.lease.generation + 1, some outcome,
        some (nowMs + deferPhaseTimeoutMs)⟩
  | stopped {outcome : RunStatus} (stops : call.stops = true) (owes : call.seesOwed run = false)
      (open' : run.lease.status.settled = false ∨ Reopens call run.lease.status)
      (final : outcome.settled = true) :
      LeaseMove nowMs call run ⟨outcome, none, run.lease.generation + 1, none, none⟩
  | reopened {generation : Nat} (stops : call.stops = false)
      (reopens : Reopens call run.lease.status) (later : run.lease.generation ≤ generation) :
      LeaseMove nowMs call run ⟨.ready, none, generation, run.lease.pendingTerminalStatus,
        run.lease.deferPhaseDeadline⟩

section Moves

variable {nowMs : Int} {run : StoredRun}

variable {lease : Lease} {worker result queryState : String} {generation : Nat} {status : RunStatus}
  {call : StoreCall} {after : StoredRun}

/-- A call that succeeds if a condition holds. -/
theorem ok_of_ite {c : Prop} [Decidable c] {given : StoredRun} {reason : StoreError}
    (performed : (if c then .ok given else .error reason) = Except.ok after) : c ∧ given = after := by
  split at performed
  · exact ⟨‹c›, Except.ok.inj performed⟩
  · cases performed

theorem assigned_of_heldBy (held : lease.heldBy worker generation = true) :
    lease.assignedTo = some worker ∧ lease.generation = generation := by
  simpa [Lease.heldBy] using held

theorem waitingStatus_waits (lease : Lease) :
    lease.waitingStatus = .ready ∨ lease.waitingStatus = .terminating := by
  unfold Lease.waitingStatus
  split
  · exact .inr rfl
  · exact .inl rfl

theorem unsettled_of_waiting (waiting : status = .ready ∨ status = .terminating) :
    status.settled = false := by
  rcases waiting with rfl | rfl <;> rfl

theorem unsettled_of_parked (waiting : status = .ready ∨ status = lease.waitingStatus) :
    status.settled = false := by
  rcases waiting with rfl | rfl
  · rfl
  · exact unsettled_of_waiting (waitingStatus_waits lease)

/-- A run that owes its defers has not settled. -/
theorem unsettled_of_owed {hasDeferEvents compacted : Bool}
    (owes : deferPhaseOwed status hasDeferEvents compacted = true) : status.settled = false := by
  cases status <;> first | rfl | cases owes

/-- The lease of a worker that settles its run. -/
theorem completeLeaseRow_some {after : Lease}
    (completes : completeLeaseRow worker status generation lease = some after) :
    lease.heldBy worker generation = true ∧ after.core = ⟨status, none, lease.generation,
      lease.pendingTerminalStatus, lease.deferPhaseDeadline⟩ := by
  unfold completeLeaseRow at completes
  split at completes
  · rename_i held
    cases completes
    exact ⟨held, rfl⟩
  · cases completes

/-- What a stop from outside does. -/
theorem preemptivelySettle_moves {reason : String} {final : RunStatus} (stops : call.stops = true)
    (owed : call.seesOwed run = run.owesDefers) (marks : call.marks run = run.owesDefers)
    (outcome : final.settled = true) (reopens : final = .terminated → Reopens call .deadLettered)
    (performed : preemptivelySettle reason final nowMs run = .ok after) :
    LeaseMove nowMs call run after.lease.core := by
  unfold preemptivelySettle at performed
  split at performed
  · cases performed
  · rename_i allowed
    have open' : run.lease.status.settled = false ∨ Reopens call run.lease.status := by
      cases settled : run.lease.status.settled with
      | false => exact .inl rfl
      | true =>
        simp only [settled, Bool.true_and, Bool.not_eq_true', Bool.not_eq_false, Bool.and_eq_true,
          decide_eq_true_eq] at allowed
        rw [allowed.2]
        exact .inr (reopens allowed.1)
    split at performed
    · rename_i owes
      cases performed
      exact .marked (marks.trans owes) (unsettled_of_owed owes) outcome
    · rename_i owes
      cases performed
      exact .stopped stops (owed.trans (by simpa using owes)) open' outcome

/-- A worker settles its run. -/
theorem completes_moves {after : Lease} (settles : call.settlesOwn = true)
    (carried : call.carried = some (worker, generation)) (final : status.settled = true)
    (completes : completeLeaseRow worker status generation run.lease = some after) :
    LeaseMove nowMs call run after.core := by
  obtain ⟨held, core⟩ := completeLeaseRow_some completes
  rw [core]
  exact .settled settles carried held final

theorem finalizeWorkflowSegment_moves {newEvents : List EventType} {final : FinalStatus}
    {wakeAtMs : Int}
    (performed : finalizeWorkflowSegment worker generation newEvents final result queryState wakeAtMs
      nowMs run = .ok after) :
    LeaseMove nowMs (.finalizeSegment worker generation newEvents final result queryState wakeAtMs)
      run after.lease.core := by
  unfold finalizeWorkflowSegment at performed
  split at performed
  · cases performed
  · unfold finalizeWorkflowStatus at performed
    cases final with
    | done =>
      dsimp only at performed
      split at performed
      · cases performed
      · rename_i lease completes
        cases performed
        exact completes_moves rfl rfl rfl completes
    | ready =>
      obtain ⟨held, rfl⟩ := ok_of_ite performed
      exact .parked held (.inl rfl)
    | suspended => cases performed
    | other name => cases performed

theorem settleWithError_moves {errMsg errorCode errorOp : String} {queryState : Option String}
    (settles : call.settlesOwn = true) (carried : call.carried = some (worker, generation))
    (final : status.settled = true)
    (performed : settleWithError status worker generation errMsg errorCode errorOp queryState nowMs
      run = .ok after) : LeaseMove nowMs call run after.lease.core := by
  unfold settleWithError at performed
  split at performed
  · cases performed
  · rename_i lease completes
    cases performed
    exact completes_moves settles carried final completes

theorem completeWorkflow_moves {events : List EventType} (settles : call.settlesOwn = true)
    (carried : call.carried = some (worker, generation))
    (performed : completeWorkflow worker generation result queryState nowMs
      { run with history := events } = .ok after) : LeaseMove nowMs call run after.lease.core := by
  unfold completeWorkflow at performed
  split at performed
  · cases performed
  · rename_i lease completes
    cases performed
    exact completes_moves settles carried rfl completes

theorem adminForceResolve_moves {wanted : AdminForce}
    (performed : adminForceResolve generation wanted nowMs run = .ok after) :
    LeaseMove nowMs (.force generation wanted) run after.lease.core := by
  have final : wanted.outcome.settled = true := by cases wanted <;> rfl
  unfold adminForceResolve at performed
  split at performed
  · cases performed
  · rename_i unsettled
    have unsettled : run.lease.status.settled = false := by simpa using unsettled
    split at performed
    · cases performed
    · rename_i current
      have current : run.lease.generation = generation := by simpa using current
      split at performed
      · rename_i owes
        cases performed
        refine .marked ?_ unsettled final
        simp [StoreCall.marks, current, owes]
      · rename_i owes
        cases performed
        have owes : run.owesDefers = false := by simpa using owes
        exact .stopped rfl owes (.inl unsettled) final

/-- The statements of a closing parent. -/
theorem closes_moves {seesDefers seesCompaction : Bool} {outcomeMsg : String} :
    LeaseMove nowMs (.closeTerminated seesDefers seesCompaction outcomeMsg) run
        (closeTerminated seesDefers seesCompaction outcomeMsg nowMs run).lease.core ∧
      LeaseMove nowMs (.closeIntoDeferPhase seesDefers seesCompaction outcomeMsg) run
        (closeIntoDeferPhase seesDefers seesCompaction outcomeMsg nowMs run).lease.core := by
  unfold closeTerminated closeIntoDeferPhase
  constructor
  · split
    · rename_i matched
      simp only [and_eq_true, not_eq_true'] at matched
      exact .stopped rfl matched.2 (.inl matched.1) rfl
    · exact .idle
  · split
    · rename_i matched
      simp only [and_eq_true, not_eq_true'] at matched
      exact .marked matched.2 matched.1 rfl
    · exact .idle

theorem expireDeferPhase_moves :
    LeaseMove nowMs call run (expireDeferPhase nowMs run).lease.core := by
  unfold expireDeferPhase
  split
  · rename_i outcome deadlineMs noted _
    split
    · exact .applied noted (Nat.le_succ _)
    · exact .idle
  · exact .idle

/-- Every call that succeeds makes one of the moves.

Proof: by the call. -/
theorem perform_moves (performed : call.perform nowMs run = .ok after) :
    LeaseMove nowMs call run after.lease.core := by
  cases call with
  | claim worker =>
    obtain ⟨due, rfl⟩ := ok_of_ite performed
    refine .claimed worker ?_
    simp only [Lease.due, and_eq_true, or_eq_true, decide_eq_true_eq] at due
    exact due.1
  | claimSticky worker =>
    obtain ⟨due, rfl⟩ := ok_of_ite performed
    refine .claimed worker (.inl ?_)
    simp only [and_eq_true, decide_eq_true_eq] at due
    exact due.1.1
  | heartbeat | compact =>
    obtain ⟨_, rfl⟩ := ok_of_ite performed
    exact .idle
  | append =>
    cases performed
    exact .idle
  | finalizeSegment => exact finalizeWorkflowSegment_moves performed
  | fail | deadLetter => exact settleWithError_moves rfl rfl rfl performed
  | complete | continueAsNew => exact completeWorkflow_moves rfl rfl performed
  | release worker generation wakeAtMs =>
    obtain ⟨held, rfl⟩ := ok_of_ite performed
    exact .parked held (.inr rfl)
  | finalizeDeferPhase worker generation newEvents =>
    simp only [StoreCall.perform, finalizeDeferPhase] at performed
    split at performed
    · cases performed
    · rename_i outcome noted
      obtain ⟨_, rfl⟩ := ok_of_ite performed
      exact .applied noted (Nat.le_refl _)
  | expireDeferPhases =>
    cases performed
    exact expireDeferPhase_moves
  | reap timeoutMs =>
    cases performed
    unfold reapStaleInstance
    split
    · rename_i stale
      refine .reaped ?_
      simp only [Lease.stale, and_eq_true, decide_eq_true_eq] at stale
      exact stale.1
    · exact .idle
  | terminate reason =>
    exact preemptivelySettle_moves rfl rfl rfl rfl (fun _ => .terminated reason) performed
  | cancel reason =>
    have other : RunStatus.cancelled = .terminated → Reopens (.cancel reason) .deadLettered :=
      nofun
    exact preemptivelySettle_moves rfl rfl rfl rfl other performed
  | force => exact adminForceResolve_moves performed
  | closeTerminated =>
    cases performed
    exact closes_moves.1
  | closeIntoDeferPhase =>
    cases performed
    exact closes_moves.2
  | closeRequestingCancel =>
    cases performed
    unfold closeRequestingCancel
    split <;> exact .idle
  | retry =>
    cases performed
    unfold retryWorkflow
    split
    · rename_i deadLettered
      refine .reopened rfl ?_ (Nat.le_refl _)
      rw [deadLettered]
      exact .retried
    · exact .idle
  | reReplay generation =>
    simp only [StoreCall.perform, adminReReplay] at performed
    split at performed
    · cases performed
    · split at performed
      · cases performed
      · rename_i listed
        cases performed
        refine .reopened rfl (.replayed generation ?_) (Nat.le_succ _)
        simpa using listed
  | signal | consumeSignal | resolvePromise | requestCancellation =>
    cases performed
    exact .idle

theorem apply_moves (call : StoreCall) :
    LeaseMove nowMs call run (call.apply nowMs run).lease.core := by
  unfold StoreCall.apply
  cases performed : call.perform nowMs run with
  | ok after => exact perform_moves performed
  | error reason => exact .idle

theorem exists_apply_moves (nowMs : Int) (call : StoreCall) (run : StoredRun) :
    ∃ core, (call.apply nowMs run).lease.core = core ∧ LeaseMove nowMs call run core :=
  ⟨_, rfl, apply_moves call⟩

/-- A settled run that nobody holds and that has no outcome noted stays as it is, unless the call
reopens it. -/
theorem LeaseMove.of_settled {core : LeaseCore} (moved : LeaseMove nowMs call run core)
    (settled : run.lease.status.settled = true) (unheld : run.lease.assignedTo = none)
    (unnoted : run.lease.pendingTerminalStatus = none) :
    core = run.lease.core ∨ Reopens call run.lease.status ∧ (call.stops = true →
      core.status.settled = true ∧ core.pendingTerminalStatus = none ∧ core.assignedTo = none) := by
  have open' : run.lease.status.settled ≠ false := by simp [settled]
  cases moved with
  | idle => exact .inl rfl
  | claimed _ waits => exact absurd (unsettled_of_waiting waits) open'
  | parked held | settled _ _ held => simp [(assigned_of_heldBy held).1] at unheld
  | applied noted => simp [noted] at unnoted
  | reaped executes => exact absurd (congrArg RunStatus.settled executes) open'
  | marked _ unsettled => exact absurd unsettled open'
  | stopped _ _ reopens final =>
    exact .inr ⟨reopens.resolve_left open', fun _ => ⟨final, rfl, rfl⟩⟩
  | reopened stops reopens => exact .inr ⟨reopens, fun stopped => by simp [stopped] at stops⟩

end Moves

end Cleat.Store
