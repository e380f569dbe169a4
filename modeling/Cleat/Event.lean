import Mathlib.Algebra.Group.Nat.Defs

/-!
# Recorded events

A workflow run is stored as a sequence of event records, one per step. The record
type is shared by all host calls: each kind of event uses some of the fields and
leaves the others at their zero values, which is how the store writes them.

Strings are text and lengths are counted in bytes of their UTF-8 encoding.
-/
namespace Cleat

/-- The kinds of event a session or an operator can record. -/
inductive EventType where
  | call | callAttemptFailed | awaitSignals | signalReceived | defer | childWorkflow
  | awaitChild | continueAsNew | heartbeat | awaitAllChildren | pluginCall | createPromise
  | awaitPromise | promiseResolved | promiseRejected | updateHandler | updateReceived
  | updateCompleted | stateMutation | runDetached | pluginCallStreamChunk | durableLog
  | acquireLock | releaseLock | sideEffect | scopeAcquired | durableSend
  | durableScheduleInvoke | fetch | pollChild | awaitAnyChild | adminAction | scheduleCron
  | deleteCron | listCrons
deriving DecidableEq, Repr

/-- The name under which an event type is stored and reported. -/
def EventType.name : EventType → String
  | call => "call"
  | callAttemptFailed => "call_attempt_failed"
  | awaitSignals => "await_signals"
  | signalReceived => "signal_received"
  | defer => "defer"
  | childWorkflow => "child_workflow"
  | awaitChild => "await_child"
  | continueAsNew => "continue_as_new"
  | heartbeat => "heartbeat"
  | awaitAllChildren => "await_all_children"
  | pluginCall => "plugin_call"
  | createPromise => "create_promise"
  | awaitPromise => "await_promise"
  | promiseResolved => "promise_resolved"
  | promiseRejected => "promise_rejected"
  | updateHandler => "update_handler"
  | updateReceived => "update_received"
  | updateCompleted => "update_completed"
  | stateMutation => "state_mutation"
  | runDetached => "run_detached"
  | pluginCallStreamChunk => "plugin_call_stream_chunk"
  | durableLog => "durable_log"
  | acquireLock => "acquire_lock"
  | releaseLock => "release_lock"
  | sideEffect => "side_effect"
  | scopeAcquired => "scope_acquired"
  | durableSend => "durable_send"
  | durableScheduleInvoke => "durable_schedule_invoke"
  | fetch => "fetch"
  | pollChild => "poll_child"
  | awaitAnyChild => "await_any_child"
  | adminAction => "admin_action"
  | scheduleCron => "schedule_cron"
  | deleteCron => "delete_cron"
  | listCrons => "list_crons"

/-- One recorded event. Times are milliseconds since the epoch. `createdAt` is the
time a row was created, and is absent from a record that has not been stored. -/
structure EventRecord where
  step : Nat
  eventType : EventType
  timestampMs : Int := 0
  createdAt : Option Int := none
  service : String := ""
  op : String := ""
  request : String := ""
  response : String := ""
  err : String := ""
  errNonRetryable : Bool := false
  errCode : String := ""
  retriesExhausted : Bool := false
  resolvedBy : String := ""
  pending : Bool := false
  durationMs : Int := 0
  signalNames : String := ""
  timeoutMs : Int := 0
  signalName : String := ""
  signalPayload : String := ""
  deferDescription : String := ""
  deferID : String := ""
  inDeferPhase : Bool := false
  promiseName : String := ""
  promiseID : String := ""
  promiseResult : String := ""
  promiseError : String := ""
  childName : String := ""
  childInput : String := ""
  runID : String := ""
  parentWorkflowID : String := ""
  parentClosePolicy : String := ""
  newInput : String := ""
  newVersion : Int := 0
  pluginName : String := ""
  pluginFunc : String := ""
  pluginInput : String := ""
  pluginOutput : String := ""
  pluginError : String := ""
  idempotent : Bool := false
  sameValueOnReplay : Bool := false
  streamChunkIndex : Int := 0
  streamFinish : Bool := false
  streamErrCode : Int := 0
  updateHandlerName : String := ""
  updatePayload : String := ""
  updateResponse : String := ""
  updateError : String := ""
  updateRequestID : String := ""
  stateKey : String := ""
  stateValue : String := ""
  stateDelta : Int := 0
  stateOp : String := ""
  stateKeys : String := ""
  fetchMethod : String := ""
  fetchURL : String := ""
  fetchHeaders : String := ""
  fetchBody : String := ""
  fetchResponse : String := ""
  cronWorkflowName : String := ""
  cronExpr : String := ""
  cronTimezone : String := ""
  cronInput : String := ""
  cronScheduleID : String := ""
  cronResult : String := ""
  detachedName : String := ""
  detachedInput : String := ""
  detachedRunID : String := ""
  lockKey : String := ""
  lockTTLMs : Int := 0
  lockAcquired : Int := 0
  lockNotHeld : Bool := false
  replacedStatus : String := ""
  replacedErrorMsg : String := ""
  replacedErrorCode : String := ""
  replacedErrorOp : String := ""
  replacedCompletedAt : String := ""
  attempt : Int := 0
  sideEffectResult : String := ""
  scopeKey : String := ""
  message : String := ""
  logLevel : String := ""
  logKV : String := ""
deriving DecidableEq, Repr

/-- The events of a workflow in the order of their steps. -/
abbrev History := List EventRecord

/-- A write-ahead intent whose call has no recorded outcome yet. -/
def EventRecord.isPendingIntent (record : EventRecord) : Bool := record.pending

end Cleat
