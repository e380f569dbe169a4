import Cleat.Environment

/-!
# The lease of a run

What the store keeps of a run is its lease, its payload and its events. The lease says who
executes the run. A worker claims it under a new generation, and what the worker writes later
counts only if the lease still names the worker and that generation.

A run that is stopped from outside and has registered defers is settled in two phases. The
first marks the lease with the outcome and a deadline, and the run becomes claimable again for
its defers. The second applies the outcome: by the worker that ran the defers, or by a sweep
once the deadline has passed.

Every call is one transaction, and it locks the lease before it decides. So what a call does
is a function of the rows that it finds.
-/
namespace Cleat.Store

variable (worker : String) (generation : Nat)

/-- The lease of a run. Times are in milliseconds. -/
structure Lease where
  status : RunStatus := .ready
  assignedTo : Option String := none
  heartbeatAt : Option Int := none
  nextWakeAt : Int
  generation : Nat := 0
  pendingTerminalStatus : Option RunStatus := none
  deferPhaseDeadline : Option Int := none
  stickyWorkerID : Option String := none
  reclaimCount : Nat := 0
  startedAt : Option Int := none
  signalSeq : Nat := 0
  signalSeqAtClaim : Nat := 0
  signalConsumedSeq : Nat := 0
  signalConsumedAtClaim : Nat := 0
  promiseSeq : Nat := 0
  promiseSeqAtClaim : Nat := 0
  cancellationRequested : Bool := false
  cancellationReason : Option String := none
  completedBy : Option String := none
deriving DecidableEq, Repr

/-- The outcome of a run and what it shows to queries. -/
structure Payload where
  result : Option String := none
  queryState : Option String := some "\x7b\x7d"
  compactionState : Option String := none
  errorMsg : Option String := none
  errorCode : Option String := none
  errorOp : Option String := none
  completedAt : Option Int := none
deriving DecidableEq, Repr

/-- A run as it is stored. Of its events only their types are kept here. -/
structure StoredRun where
  id : String
  lease : Lease
  payload : Payload := {}
  history : List EventType := []
deriving DecidableEq, Repr

/-- A run as it is created: it can be claimed at once. -/
def insertLeaseAndPayloadRows (id : String) (nowMs : Int) : StoredRun where
  id := id
  lease := { nextWakeAt := nowMs - 1 }

/-- The statuses under which a run can still be dispatched. -/
def claimableStatus : RunStatus → Bool
  | .ready | .running => true
  | _ => false

/-- A run that is stopped has its defers to run first. A compacted run may have registered some
in the events that are gone. -/
def deferPhaseOwed (status : RunStatus) (hasDeferEvents compacted : Bool) : Bool :=
  if !claimableStatus status then false else hasDeferEvents || compacted

def StoredRun.hasDefers (run : StoredRun) : Bool := run.history.contains .defer

def StoredRun.compacted (run : StoredRun) : Bool := run.payload.compactionState.isSome

def StoredRun.owesDefers (run : StoredRun) : Bool :=
  deferPhaseOwed run.lease.status run.hasDefers run.compacted

def deferPhaseTimeoutMs : Int := 5 * 60 * 1000

/-- The operations of an administrator. -/
inductive AdminAction where
  | forceComplete | forceFail | reReplay
deriving DecidableEq, Repr

/-- The names under which the statuses are stored. -/
def statusName : RunStatus → String
  | .ready => "ready"
  | .running => "running"
  | .terminating => "terminating"
  | .done => "done"
  | .failed => "failed"
  | .deadLettered => "dead_lettered"
  | .terminated => "terminated"
  | .cancelled => "cancelled"

/-- Why a call changes nothing. -/
inductive StoreError where
  | notClaimed
  | fenceLost
  | alreadySettled (id : String) (status final : RunStatus)
  | finishedRun (action : AdminAction) (id : String) (status : RunStatus)
  | generationMismatch (action : AdminAction) (id : String) (stored requested : Nat)
  | notReplayable (id : String) (status : RunStatus)
  | unknownFinalStatus (name : String)
deriving DecidableEq, Repr

/-- The run that a call leaves, unless it is refused. -/
abbrev Committed := Except StoreError StoredRun

/-! ## Claims -/

/-- The lease names this worker under this generation. -/
def Lease.heldBy (lease : Lease) (worker : String) (generation : Nat) : Bool :=
  lease.assignedTo = some worker && lease.generation = generation

/-- The lease of a run that a worker claims. -/
def Lease.claimed (lease : Lease) (worker : String) (nowMs : Int) : Lease :=
  { lease with
    status := .running
    signalSeqAtClaim := lease.signalSeq
    signalConsumedAtClaim := lease.signalConsumedSeq
    promiseSeqAtClaim := lease.promiseSeq
    assignedTo := some worker
    heartbeatAt := some nowMs
    startedAt := some (lease.startedAt.getD nowMs)
    generation := lease.generation + 1 }

/-- A run that is due: it waits for a worker and its time has come. -/
def Lease.due (lease : Lease) (nowMs : Int) : Bool :=
  (lease.status = .ready || lease.status = .terminating) && lease.nextWakeAt ≤ nowMs

/-- Claim a run that is due. Which of the runs that are due are claimed, and whether one has to
wait for its concurrency key, is not decided here. -/
def claimWorkflow (nowMs : Int) (run : StoredRun) : Committed :=
  if run.lease.due nowMs then .ok { run with lease := run.lease.claimed worker nowMs }
  else .error .notClaimed

/-- Claim a run that prefers this worker. A run in its defer phase is not claimed this way. -/
def claimStickyWorkflow (nowMs : Int) (run : StoredRun) : Committed :=
  if run.lease.status = .ready && run.lease.nextWakeAt ≤ nowMs &&
      run.lease.stickyWorkerID = some worker then
    .ok { run with lease := run.lease.claimed worker nowMs }
  else .error .notClaimed

def heartbeat (nowMs : Int) (run : StoredRun) : Committed :=
  if run.lease.heldBy worker generation then
    .ok { run with lease := { run.lease with heartbeatAt := some nowMs } }
  else .error .fenceLost

/-! ## The end of a segment -/

/-- Settle the lease of the worker that holds it. -/
def completeLeaseRow (status : RunStatus) (generation : Nat) (lease : Lease) : Option Lease :=
  if lease.heldBy worker generation then
    some { lease with status := status, completedBy := lease.assignedTo, assignedTo := none }
  else none

def writeResultPayload (result queryState : String) (nowMs : Int) (payload : Payload) : Payload :=
  { payload with result := some result, queryState := some queryState, completedAt := some nowMs }

/-- A query state that was not given leaves the stored one. -/
def writeErrorPayload (errMsg errorCode errorOp : String) (queryState : Option String) (nowMs : Int)
    (payload : Payload) : Payload :=
  { payload with
    errorMsg := some errMsg
    errorCode := some errorCode
    errorOp := some errorOp
    queryState := queryState.or payload.queryState
    completedAt := some nowMs }

def completeWorkflow (result queryState : String) (nowMs : Int) (run : StoredRun) :
    Committed :=
  match completeLeaseRow worker .done generation run.lease with
  | none => .error .fenceLost
  | some lease =>
    .ok { run with
      lease := lease
      payload := writeResultPayload result queryState nowMs run.payload }

/-- Settle a run as one that went wrong. -/
def settleWithError (status : RunStatus) (worker : String) (generation : Nat)
    (errMsg errorCode errorOp : String) (queryState : Option String) (nowMs : Int)
    (run : StoredRun) : Committed :=
  match completeLeaseRow worker status generation run.lease with
  | none => .error .fenceLost
  | some lease =>
    .ok { run with
      lease := lease
      payload := writeErrorPayload errMsg errorCode errorOp queryState nowMs run.payload }

def failWorkflow (errMsg errorCode errorOp : String) (queryState : Option String) (nowMs : Int)
    (run : StoredRun) : Committed :=
  settleWithError .failed worker generation errMsg errorCode errorOp queryState nowMs run

def moveToDeadLetterQueue (errMsg errorCode errorOp : String) (queryState : Option String)
    (nowMs : Int) (run : StoredRun) : Committed :=
  settleWithError .deadLettered worker generation errMsg errorCode errorOp queryState nowMs run

/-- The run that is continued as a new one. -/
def continueAsNewRun (newEvents : List EventType) (result queryState : String) (nowMs : Int)
    (run : StoredRun) : Committed :=
  completeWorkflow worker generation result queryState nowMs
    { run with history := run.history ++ newEvents }

/-- How a segment ends. -/
inductive FinalStatus where
  | done | ready | suspended | other (name : String)
deriving DecidableEq, Repr

def FinalStatus.name : FinalStatus → String
  | .done => "done"
  | .ready => "ready"
  | .suspended => "suspended"
  | .other name => name

def validFinalStatus : FinalStatus → Bool
  | .done | .ready | .suspended => true
  | .other _ => false

/-- A run that was woken while it was executed is due at once. -/
def Lease.wakeAt (lease : Lease) (nowMs wakeAtMs : Int) : Int :=
  if lease.signalSeq ≠ lease.signalSeqAtClaim ∨
      lease.signalConsumedSeq ≠ lease.signalConsumedAtClaim ∨
      lease.promiseSeq ≠ lease.promiseSeqAtClaim then nowMs else wakeAtMs

/-- The stored procedure that ends a segment. The events of a run that is done are deleted. -/
def finalizeWorkflowStatus (final : FinalStatus) (result queryState : String) (wakeAtMs nowMs : Int)
    (run : StoredRun) : Committed :=
  match final with
  | .done =>
    match completeLeaseRow worker .done generation run.lease with
    | none => .error .fenceLost
    | some lease =>
      .ok { run with
        lease := lease
        payload := writeResultPayload result queryState nowMs run.payload
        history := [] }
  | .ready =>
    if run.lease.heldBy worker generation then
      .ok { run with
        lease := { run.lease with
          status := .ready
          assignedTo := none
          nextWakeAt := run.lease.wakeAt nowMs wakeAtMs }
        payload := { run.payload with queryState := some queryState } }
    else .error .fenceLost
  | _ => .error (.unknownFinalStatus final.name)

def finalizeWorkflowSegment (newEvents : List EventType) (final : FinalStatus)
    (result queryState : String) (wakeAtMs nowMs : Int) (run : StoredRun) : Committed :=
  if !validFinalStatus final then .error (.unknownFinalStatus final.name)
  else
    finalizeWorkflowStatus worker generation final result queryState wakeAtMs nowMs
      { run with history := run.history ++ newEvents }

/-- The status of a run that waits for a worker. -/
def Lease.waitingStatus (lease : Lease) : RunStatus :=
  if lease.pendingTerminalStatus.isSome then .terminating else .ready

def releaseWorkflow (wakeAtMs : Int) (run : StoredRun) : Committed :=
  if run.lease.heldBy worker generation then
    .ok { run with
      lease := { run.lease with
        status := run.lease.waitingStatus, assignedTo := none, nextWakeAt := wakeAtMs } }
  else .error .fenceLost

/-! ## Sweeps -/

/-- The worker of the run has not been heard of for too long. -/
def Lease.stale (lease : Lease) (timeoutMs nowMs : Int) : Bool :=
  lease.status = .running && lease.heartbeatAt.any fun heartbeatAt => heartbeatAt < nowMs - timeoutMs

/-- Take a run away from a worker that has not been heard of. -/
def reapStaleInstance (timeoutMs nowMs : Int) (run : StoredRun) : StoredRun :=
  if run.lease.stale timeoutMs nowMs then
    { run with
      lease := { run.lease with
        status := run.lease.waitingStatus
        assignedTo := none
        heartbeatAt := none
        generation := run.lease.generation + 1
        reclaimCount := run.lease.reclaimCount + 1 } }
  else run

/-! ## The two phases of a stop -/

/-- The lease of a run that is stopped and has its defers to run: the outcome is noted, the
worker loses the run, and the run is due at once. -/
def Lease.marked (lease : Lease) (outcome : RunStatus) (nowMs : Int) : Lease :=
  { lease with
    status := .terminating
    pendingTerminalStatus := some outcome
    deferPhaseDeadline := some (nowMs + deferPhaseTimeoutMs)
    nextWakeAt := nowMs
    assignedTo := none
    generation := lease.generation + 1 }

/-- The lease of a run that is stopped at once. A note of another outcome is taken back. -/
def Lease.stopped (lease : Lease) (outcome : RunStatus) : Lease :=
  { lease with
    status := outcome
    completedBy := lease.assignedTo
    assignedTo := none
    generation := lease.generation + 1
    pendingTerminalStatus := none
    deferPhaseDeadline := none }

/-- Apply the outcome that was noted, for the worker that ran the defers. -/
def finalizeDeferPhase (newEvents : List EventType) (nowMs : Int) (run : StoredRun) :
    Committed :=
  match run.lease.pendingTerminalStatus with
  | none => .error .fenceLost
  | some outcome =>
    if run.lease.heldBy worker generation then
      .ok { run with
        lease := { run.lease with
          status := outcome
          pendingTerminalStatus := none
          deferPhaseDeadline := none
          assignedTo := none }
        payload := { run.payload with completedAt := some nowMs }
        history := run.history ++ newEvents }
    else .error .fenceLost

/-- Apply the outcome that was noted if the deadline has passed. The sweep looks at the note
alone. -/
def expireDeferPhase (nowMs : Int) (run : StoredRun) : StoredRun :=
  match run.lease.pendingTerminalStatus, run.lease.deferPhaseDeadline with
  | some outcome, some deadlineMs =>
    if deadlineMs < nowMs then
      { run with
        lease := { run.lease with
          status := outcome
          pendingTerminalStatus := none
          deferPhaseDeadline := none
          assignedTo := none
          generation := run.lease.generation + 1 }
        payload := { run.payload with completedAt := some nowMs } }
    else run
  | _, _ => run

/-- Stop a run from outside. A run that has settled is left as it is, except that a run is taken
off the dead letter queue by terminating it. -/
def preemptivelySettle (reason : String) (final : RunStatus) (nowMs : Int) (run : StoredRun) :
    Committed :=
  if run.lease.status.settled &&
      !(final = .terminated && run.lease.status = .deadLettered) then
    .error (.alreadySettled run.id run.lease.status final)
  else if run.owesDefers then
    .ok { run with
      lease := run.lease.marked final nowMs
      payload := { run.payload with errorMsg := some reason } }
  else
    .ok { run with
      lease := run.lease.stopped final
      payload := { run.payload with errorMsg := some reason, completedAt := some nowMs } }

def terminateWorkflow (reason : String) (nowMs : Int) (run : StoredRun) :
    Committed :=
  preemptivelySettle reason .terminated nowMs run

def cancelWorkflow (reason : String) (nowMs : Int) (run : StoredRun) :
    Committed :=
  preemptivelySettle reason .cancelled nowMs run

/-- What an administrator forces a run to. -/
inductive AdminForce where
  | complete (result : String)
  | fail (errorMsg errorCode : String)
deriving DecidableEq, Repr

def AdminForce.action : AdminForce → AdminAction
  | .complete _ => .forceComplete
  | .fail _ _ => .forceFail

def AdminForce.outcome : AdminForce → RunStatus
  | .complete _ => .done
  | .fail _ _ => .failed

def AdminForce.write (payload : Payload) : AdminForce → Payload
  | .complete result =>
    { payload with
      result := some result, errorMsg := none, errorCode := none, errorOp := none }
  | .fail errorMsg errorCode =>
    { payload with
      errorMsg := some errorMsg
      errorCode := some errorCode
      errorOp := some "admin_force_fail" }

/-- Force a run to an outcome. The operation is recorded among the run's events. -/
def adminForceResolve (generation : Nat) (force : AdminForce) (nowMs : Int) (run : StoredRun) :
    Committed :=
  if run.lease.status.settled then
    .error (.finishedRun force.action run.id run.lease.status)
  else if run.lease.generation ≠ generation then
    .error (.generationMismatch force.action run.id run.lease.generation generation)
  else if run.owesDefers then
    .ok { run with
      lease := run.lease.marked force.outcome nowMs
      payload := force.write run.payload
      history := run.history ++ [.adminAction] }
  else
    .ok { run with
      lease := run.lease.stopped force.outcome
      payload := { force.write run.payload with completedAt := some nowMs }
      history := run.history ++ [.adminAction] }

/-! ## The close of the parent -/

/-- The error columns of a child that is stopped because its parent has closed. -/
def parentClosePayload (outcomeMsg : String) (payload : Payload) : Payload :=
  { payload with
    errorMsg := some outcomeMsg, errorOp := some "parent_close", errorCode := none }

/-- The statement that stops the children without defers. The defers are those that the
statement sees: it reads the status again when it has the lock of a row, but the events as they
were when it began. -/
def closeTerminated (seesDefers seesCompaction : Bool) (outcomeMsg : String) (nowMs : Int)
    (run : StoredRun) : StoredRun :=
  if !run.lease.status.settled &&
      !deferPhaseOwed run.lease.status seesDefers seesCompaction then
    { run with
      lease := run.lease.stopped .terminated
      payload := { parentClosePayload outcomeMsg run.payload with completedAt := some nowMs } }
  else run

/-- The statement that marks the children with defers. -/
def closeIntoDeferPhase (seesDefers seesCompaction : Bool) (outcomeMsg : String) (nowMs : Int)
    (run : StoredRun) : StoredRun :=
  if !run.lease.status.settled &&
      deferPhaseOwed run.lease.status seesDefers seesCompaction then
    { run with
      lease := run.lease.marked .terminated nowMs
      payload := parentClosePayload outcomeMsg run.payload }
  else run

/-- The statement that asks the children to cancel themselves. -/
def closeRequestingCancel (run : StoredRun) : StoredRun :=
  if !run.lease.status.settled then
    { run with lease := { run.lease with cancellationRequested := true } }
  else run

/-! ## Reopening -/

/-- Take a run off the dead letter queue. Other runs are left as they are. -/
def retryWorkflow (nowMs : Int) (run : StoredRun) : StoredRun :=
  if run.lease.status = .deadLettered then
    { run with
      lease := { run.lease with
        status := .ready
        completedBy := run.lease.assignedTo
        assignedTo := none
        heartbeatAt := none
        nextWakeAt := nowMs }
      payload := { run.payload with errorMsg := none, errorCode := none, errorOp := none } }
  else run

def reReplayableStatuses : List RunStatus := [.failed, .terminated, .deadLettered]

def adminReReplay (generation : Nat) (nowMs : Int) (run : StoredRun) :
    Committed :=
  if run.lease.generation ≠ generation then
    .error (.generationMismatch .reReplay run.id run.lease.generation generation)
  else if !reReplayableStatuses.contains run.lease.status then
    .error (.notReplayable run.id run.lease.status)
  else
    .ok { run with
      lease := { run.lease with
        status := .ready
        assignedTo := none
        heartbeatAt := none
        nextWakeAt := nowMs
        generation := run.lease.generation + 1 }
      payload := { run.payload with
        errorMsg := none, errorCode := none, errorOp := none, completedAt := none }
      history := run.history ++ [.adminAction] }

/-! ## Events, signals and cancellation -/

/-- Events of a segment that are stored while it executes. The flush asks for the claim in a
transaction of its own, which renews the heartbeat and is over when the events are inserted, and
the insertion itself asks for nothing. -/
def appendEvents (newEvents : List EventType) (run : StoredRun) : StoredRun :=
  { run with history := run.history ++ newEvents }

/-- Fold the first events of a run into a summary. -/
def compactHistory (generation folded : Nat) (compactionState : String) (run : StoredRun) :
    Committed :=
  if run.lease.generation = generation then
    .ok { run with
      payload := { run.payload with compactionState := some compactionState }
      history := run.history.drop folded }
  else .error .fenceLost

/-- A run that waits is due when something arrives for it. -/
def Lease.woken (lease : Lease) (nowMs : Int) : Lease :=
  { lease with nextWakeAt := if lease.status = .ready then nowMs else lease.nextWakeAt }

def bumpLeaseSignalSeqAndWake (nowMs : Int) (run : StoredRun) : StoredRun :=
  { run with
    lease := { run.lease.woken nowMs with signalSeq := run.lease.signalSeq + 1 } }

def bumpLeaseSignalConsumedSeq (run : StoredRun) : StoredRun :=
  { run with
    lease := { run.lease with signalConsumedSeq := run.lease.signalConsumedSeq + 1 } }

def bumpLeasePromiseSeqAndWake (nowMs : Int) (run : StoredRun) : StoredRun :=
  { run with
    lease := { run.lease.woken nowMs with promiseSeq := run.lease.promiseSeq + 1 } }

def setLeaseCancellation (reason : Option String) (run : StoredRun) : StoredRun :=
  { run with
    lease := { run.lease with cancellationRequested := true, cancellationReason := reason } }

end Cleat.Store
