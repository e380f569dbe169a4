import Cleat.Session

/-!
# Stored events

A record of the history as its storage sees it: the kind of the event, its step, its time
and the values of its fields. Texts are byte strings here, since a guest may pass bytes
that are no text and storage does not treat all bytes alike.

Two fields are not kept here: the time a row was created and the mark of an unfinished call
belong to the row.
-/
namespace Cleat

/-- The fields that hold text. -/
inductive TextField where
  | service | op | request | response | err | errCode | resolvedBy | signalNames | signalName
  | signalPayload | deferDescription | deferID | promiseName | promiseID | promiseResult
  | promiseError | childName | childInput | runID | parentWorkflowID | parentClosePolicy
  | newInput | pluginName | pluginFunc | pluginInput | pluginOutput | pluginError
  | updateHandlerName | updatePayload | updateResponse | updateError | updateRequestID | stateKey
  | stateValue | stateOp | stateKeys | fetchMethod | fetchURL | fetchHeaders | fetchBody
  | fetchResponse | cronWorkflowName | cronExpr | cronTimezone | cronInput | cronScheduleID
  | cronResult | detachedName | detachedInput | detachedRunID | lockKey | replacedStatus
  | replacedErrorMsg | replacedErrorCode | replacedErrorOp | replacedCompletedAt
  | sideEffectResult | scopeKey | message | logLevel | logKV
deriving DecidableEq, Repr

/-- The fields that hold numbers. -/
inductive NumberField where
  | durationMs | timeoutMs | newVersion | streamChunkIndex | streamErrCode | stateDelta
  | lockTTLMs | lockAcquired | attempt
deriving DecidableEq, Repr

/-- The fields that hold a flag. -/
inductive FlagField where
  | errNonRetryable | retriesExhausted | inDeferPhase | idempotent | sameValueOnReplay
  | streamFinish | lockNotHeld
deriving DecidableEq, Repr

/-- An event with the values of its fields. -/
@[ext] structure StoredEvent where
  step : Nat
  eventType : EventType
  timestampMs : Int := 0
  text : TextField → Bytes := fun _ => []
  number : NumberField → Int := fun _ => 0
  flag : FlagField → Bool := fun _ => false

/-- The text of a field of a session's record. -/
def EventRecord.textOf (record : EventRecord) : TextField → String
  | .service => record.service
  | .op => record.op
  | .request => record.request
  | .response => record.response
  | .err => record.err
  | .errCode => record.errCode
  | .resolvedBy => record.resolvedBy
  | .signalNames => record.signalNames
  | .signalName => record.signalName
  | .signalPayload => record.signalPayload
  | .deferDescription => record.deferDescription
  | .deferID => record.deferID
  | .promiseName => record.promiseName
  | .promiseID => record.promiseID
  | .promiseResult => record.promiseResult
  | .promiseError => record.promiseError
  | .childName => record.childName
  | .childInput => record.childInput
  | .runID => record.runID
  | .parentWorkflowID => record.parentWorkflowID
  | .parentClosePolicy => record.parentClosePolicy
  | .newInput => record.newInput
  | .pluginName => record.pluginName
  | .pluginFunc => record.pluginFunc
  | .pluginInput => record.pluginInput
  | .pluginOutput => record.pluginOutput
  | .pluginError => record.pluginError
  | .updateHandlerName => record.updateHandlerName
  | .updatePayload => record.updatePayload
  | .updateResponse => record.updateResponse
  | .updateError => record.updateError
  | .updateRequestID => record.updateRequestID
  | .stateKey => record.stateKey
  | .stateValue => record.stateValue
  | .stateOp => record.stateOp
  | .stateKeys => record.stateKeys
  | .fetchMethod => record.fetchMethod
  | .fetchURL => record.fetchURL
  | .fetchHeaders => record.fetchHeaders
  | .fetchBody => record.fetchBody
  | .fetchResponse => record.fetchResponse
  | .cronWorkflowName => record.cronWorkflowName
  | .cronExpr => record.cronExpr
  | .cronTimezone => record.cronTimezone
  | .cronInput => record.cronInput
  | .cronScheduleID => record.cronScheduleID
  | .cronResult => record.cronResult
  | .detachedName => record.detachedName
  | .detachedInput => record.detachedInput
  | .detachedRunID => record.detachedRunID
  | .lockKey => record.lockKey
  | .replacedStatus => record.replacedStatus
  | .replacedErrorMsg => record.replacedErrorMsg
  | .replacedErrorCode => record.replacedErrorCode
  | .replacedErrorOp => record.replacedErrorOp
  | .replacedCompletedAt => record.replacedCompletedAt
  | .sideEffectResult => record.sideEffectResult
  | .scopeKey => record.scopeKey
  | .message => record.message
  | .logLevel => record.logLevel
  | .logKV => record.logKV

def EventRecord.numberOf (record : EventRecord) : NumberField → Int
  | .durationMs => record.durationMs
  | .timeoutMs => record.timeoutMs
  | .newVersion => record.newVersion
  | .streamChunkIndex => record.streamChunkIndex
  | .streamErrCode => record.streamErrCode
  | .stateDelta => record.stateDelta
  | .lockTTLMs => record.lockTTLMs
  | .lockAcquired => record.lockAcquired
  | .attempt => record.attempt

def EventRecord.flagOf (record : EventRecord) : FlagField → Bool
  | .errNonRetryable => record.errNonRetryable
  | .retriesExhausted => record.retriesExhausted
  | .inDeferPhase => record.inDeferPhase
  | .idempotent => record.idempotent
  | .sameValueOnReplay => record.sameValueOnReplay
  | .streamFinish => record.streamFinish
  | .lockNotHeld => record.lockNotHeld

/-- A session's record as storage sees it. -/
def EventRecord.stored (record : EventRecord) : StoredEvent where
  step := record.step
  eventType := record.eventType
  timestampMs := record.timestampMs
  text field := bytesOf (record.textOf field)
  number := record.numberOf
  flag := record.flagOf

end Cleat
