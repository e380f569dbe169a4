import Cleat.Event

/-!
# Typed events

Beside the record that all events share there is a type for each kind of event, with the fields of
that kind only. Events are turned into records and back at the boundary of the database.

An action of an operator can say which outcome of the run it has replaced. The record has fields
for that outcome, which are written and never read back.
-/
namespace Cleat

/-- The outcome of a run that an action of an operator has erased. -/
structure AdminReplacedOutcome where
  status : String := ""
  errorMsg : String := ""
  errorCode : String := ""
  errorOp : String := ""
  completedAt : String := ""
deriving DecidableEq, Repr

/-- There was nothing to record. The status alone does not count. -/
def AdminReplacedOutcome.isEmpty (o : AdminReplacedOutcome) : Bool :=
  o.errorMsg = "" && o.errorCode = "" && o.errorOp = "" && o.completedAt = ""

/-- The kinds of event that have a type, each with its fields. -/
inductive EventFields where
  | call (service op request response err : String)
  | awaitSignals (signalNames : String) (timeoutMs : Int)
  | signalReceived (signalName signalPayload : String)
  | defer (description deferID : String)
  | childWorkflow (defName input childID parentWorkflowID : String)
  | awaitChild (runID response err : String)
  | awaitAllChildren (runIDsJSON outcomesJSON : String)
  | continueAsNew (newInput : String)
  | heartbeat
  | pluginCall (pluginName funcName input output err : String) (idempotent sameValueOnReplay : Bool)
  | pluginCallStreamChunk (pluginName funcName input output : String) (chunkIndex errCode : Int)
      (finish : Bool)
  | createPromise (promiseName promiseID : String)
  | awaitPromise (promiseID : String)
  | promiseResolved (promiseID result : String)
  | promiseRejected (promiseID err : String)
  | updateHandler (handlerName : String)
  | stateMutation (key value : String) (delta : Int) (op : String)
  | runDetached
  | adminAction (action operator reason : String) (replaced : Option AdminReplacedOutcome)
deriving DecidableEq, Repr

/-- A typed event. -/
structure TypedEvent where
  step : Nat
  fields : EventFields
deriving DecidableEq, Repr

/-- The record of an event. The fields of a pattern are named as the record names them. -/
def eventRecordFromEvent (e : TypedEvent) : EventRecord :=
  let record (eventType : EventType) : EventRecord := { step := e.step, eventType }
  match e.fields with
  | .call service op request response err =>
    { record .call with service, op, request, response, err }
  | .awaitSignals signalNames timeoutMs => { record .awaitSignals with signalNames, timeoutMs }
  | .signalReceived signalName signalPayload =>
    { record .signalReceived with signalName, signalPayload }
  | .defer deferDescription deferID => { record .defer with deferDescription, deferID }
  | .childWorkflow childName childInput runID parentWorkflowID =>
    { record .childWorkflow with childName, childInput, runID, parentWorkflowID }
  | .awaitChild runID response err => { record .awaitChild with runID, response, err }
  | .awaitAllChildren request response => { record .awaitAllChildren with request, response }
  | .continueAsNew newInput => { record .continueAsNew with newInput }
  | .heartbeat => record .heartbeat
  | .pluginCall pluginName pluginFunc pluginInput pluginOutput pluginError idempotent
      sameValueOnReplay =>
    { record .pluginCall with
      pluginName, pluginFunc, pluginInput, pluginOutput, pluginError, idempotent,
      sameValueOnReplay }
  | .pluginCallStreamChunk pluginName pluginFunc pluginInput pluginOutput streamChunkIndex
      streamErrCode streamFinish =>
    { record .pluginCallStreamChunk with
      pluginName, pluginFunc, pluginInput, pluginOutput, streamChunkIndex, streamFinish,
      streamErrCode }
  | .createPromise promiseName promiseID => { record .createPromise with promiseName, promiseID }
  | .awaitPromise promiseID => { record .awaitPromise with promiseID }
  | .promiseResolved promiseID promiseResult =>
    { record .promiseResolved with promiseID, promiseResult }
  | .promiseRejected promiseID promiseError =>
    { record .promiseRejected with promiseID, promiseError }
  | .updateHandler updateHandlerName => { record .updateHandler with updateHandlerName }
  | .stateMutation stateKey stateValue stateDelta stateOp =>
    { record .stateMutation with stateKey, stateValue, stateDelta, stateOp }
  | .runDetached => record .runDetached
  | .adminAction op service err replaced =>
    let action := { record .adminAction with service, op, err }
    match replaced with
    | none => action
    | some outcome =>
      if outcome.isEmpty then action
      else
        { action with
          replacedStatus := outcome.status, replacedErrorMsg := outcome.errorMsg,
          replacedErrorCode := outcome.errorCode, replacedErrorOp := outcome.errorOp,
          replacedCompletedAt := outcome.completedAt }

def fieldsFromRecord (r : EventRecord) : Option EventFields :=
  match r.eventType with
  | .call => some (.call r.service r.op r.request r.response r.err)
  | .awaitSignals => some (.awaitSignals r.signalNames r.timeoutMs)
  | .signalReceived => some (.signalReceived r.signalName r.signalPayload)
  | .defer => some (.defer r.deferDescription r.deferID)
  | .childWorkflow => some (.childWorkflow r.childName r.childInput r.runID r.parentWorkflowID)
  | .awaitChild => some (.awaitChild r.runID r.response r.err)
  | .awaitAllChildren => some (.awaitAllChildren r.request r.response)
  | .continueAsNew => some (.continueAsNew r.newInput)
  | .heartbeat => some .heartbeat
  | .pluginCall => some (.pluginCall r.pluginName r.pluginFunc r.pluginInput r.pluginOutput
      r.pluginError r.idempotent r.sameValueOnReplay)
  | .pluginCallStreamChunk => some (.pluginCallStreamChunk r.pluginName r.pluginFunc r.pluginInput
      r.pluginOutput r.streamChunkIndex r.streamErrCode r.streamFinish)
  | .createPromise => some (.createPromise r.promiseName r.promiseID)
  | .awaitPromise => some (.awaitPromise r.promiseID)
  | .promiseResolved => some (.promiseResolved r.promiseID r.promiseResult)
  | .promiseRejected => some (.promiseRejected r.promiseID r.promiseError)
  | .updateHandler => some (.updateHandler r.updateHandlerName)
  | .stateMutation => some (.stateMutation r.stateKey r.stateValue r.stateDelta r.stateOp)
  | .runDetached => some .runDetached
  | .adminAction => some (.adminAction r.op r.service r.err none)
  | _ => none

/-- The typed event of a record, if its kind has a type. -/
def eventFromRecord (r : EventRecord) : Option TypedEvent :=
  (fieldsFromRecord r).map fun fields => ⟨r.step, fields⟩

/-- The outcome that an event says it has replaced. -/
def TypedEvent.replaced (e : TypedEvent) : Option AdminReplacedOutcome :=
  match e.fields with
  | .adminAction _ _ _ replaced => replaced
  | _ => none

/-- An event comes back from its record exactly if it has replaced no outcome. -/
theorem eventFromRecord_eventRecordFromEvent_iff (e : TypedEvent) :
    eventFromRecord (eventRecordFromEvent e) = some e ↔ e.replaced = none := by
  obtain ⟨step, fields⟩ := e
  cases fields with
  | adminAction action operator reason replaced =>
    have back : eventFromRecord (eventRecordFromEvent
        ⟨step, .adminAction action operator reason replaced⟩) =
          some ⟨step, .adminAction action operator reason none⟩ := by
      cases replaced with
      | none => rfl
      | some outcome =>
        simp only [eventRecordFromEvent]
        split <;> rfl
    rw [back]
    simp [TypedEvent.replaced, eq_comm]
  | _ => exact iff_of_true rfl rfl

/-- An operator replays a failed run once more, and the event does not come back with the failure
that was erased. -/
theorem replaced_outcome_lost :
    ¬ ∀ e : TypedEvent, eventFromRecord (eventRecordFromEvent e) = some e := by
  intro inverse
  have back := inverse ⟨0, .adminAction "re_replay" "operator" "" (some { errorMsg := "timeout" })⟩
  revert back
  decide

end Cleat
