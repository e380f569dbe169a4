import Cleat.Session

/-!
# Durable service calls

`durableCall` is the host call behind a workflow's service calls. Executed fresh it
asks whether it may start, sends the request to the service and records the outcome
as a `call` event. Replayed it returns the outcome recorded at its step.

An operation declared write-ahead commits a pending row before the request is sent
and completes it afterwards. A replay that finds the row still pending cannot know
whether the service acted; it tries to find out, and reports the call as ambiguous
when it cannot.
-/
namespace Cleat

variable (engine : Engine) (s : ExecSession) (service operation request : String)

def cancelledCallError : String := "workflow cancelled"

def eventCapCallError : String := "event cap reached; workflow continuing as new"

def heartbeatPresumedLostCallError : String :=
  "worker heartbeat presumed lost; refusing to start new work until it recovers"

def shutdownCallError : String := "worker shutting down; this call was interrupted"

def shutdownSuspendReason : String := "worker shutdown"

/-- The name an operation is declared under. -/
def intentOpKey (service operation : String) : String := service ++ "." ++ operation

def Engine.callSemantics (service operation : String) : CallSemantics :=
  if engine.intentOps.contains (intentOpKey service operation) then .writeAheadIntent
  else .atLeastOnce

/-- The key under which a service recognises a repeated request of one step. -/
def durableCallIdempotencyKey (workflowID runID : String) (step : Nat) : String :=
  engine.keyDigest (bytesOf workflowID ++ [0] ++ bytesOf runID ++ [0] ++ bytesOf (toString step))

/-- Send a request to the service, with the step's idempotency key if the caller
honours one. A worker's run is identified by its workflow instance. -/
def callService (service operation request : String) (step : Nat) :
    Work ServiceAnswer :=
  ask (.callService service operation request step
    (if engine.idempotentCaller then
      some (durableCallIdempotencyKey engine engine.workflowID engine.workflowID step)
    else none))

/-- The event of a finished call. -/
def callEvent (step : Nat) (service operation request response err : String) : EventRecord where
  step := step
  eventType := .call
  service := service
  op := operation
  request := request
  response := response
  err := err

/-- Record that the run continues as a new one, and suspend the session. Only the fresh
half of the host call is needed here. -/
def continueAsNew (newInput : String) : Work ExecSession := do
  let (_, s) ← recordEvent engine s
    { step := s.stepCount, eventType := .continueAsNew, newInput := newInput }
  pure { s with suspendErr := some { reason := "continue_as_new", newInput := newInput } }

/-- Append an event that has already been written. -/
def recordEventPersisted (s : ExecSession) (record : EventRecord) (checksum : String) :
    Work ExecSession := do
  let clockMs ← recordTime record
  pure { appendEvent s { record with timestampMs := clockMs } with lastChecksum := checksum }

/-- The text and the response of a call's outcome, as they are recorded. -/
def outcomeErr : ServiceAnswer → String
  | .ok _ => ""
  | .error failure => failure.message

def outcomeResponse : ServiceAnswer → String
  | .ok response => response
  | .error failure => failure.response

/-- The error of a write-ahead call on an engine that cannot write intents. -/
def intentUnusableError (service operation reason : String) : String :=
  s!"call {service}.{operation} is declared write-ahead-intent but this engine cannot honour " ++
    s!"it: {reason}"

/-- A call of a write-ahead operation. It persists its event itself, so a session whose
completing write failed has not moved. -/
def freshCallWithIntent (step : Nat) : Work (Except String String × ExecSession) :=
  match engine.intentStoreError with
  | some reason => pure (.error (intentUnusableError service operation reason), s)
  | none => do
      let intent := { callEvent step service operation request "" "" with
        inDeferPhase := s.inDeferPhase }
      match ← ask (.writeCallIntent intent) with
      | .error reason =>
        pure (.error
          s!"write-ahead intent for {service}.{operation} at step {step}: {reason}", s)
      | .ok _ => do
          let outcome ← callService engine service operation request step
          let clockMs ← ask .now
          let record := { intent with
            response := outcomeResponse outcome
            err := outcomeErr outcome
            timestampMs := clockMs }
          let checksum := engine.computeEventChecksum record s.lastChecksum
          match ← ask (.completeCallIntent record checksum) with
          | .error reason =>
            pure (.error (s!"completing write-ahead intent for {service}.{operation} at step " ++
              s!"{step}: {reason}"), s)
          | .ok _ => do
              let s ← recordEventPersisted s record checksum
              pure (outcome.mapError CallFailure.message, s)

/-- Send the request of an ordinary operation and record the outcome. A call that was
aborted by the worker's hard stop is not recorded: the session suspends. -/
def dispatchCall (buffer : OutBuf) : Work Replied := do
  match ← callService engine service operation request s.stepCount with
  | .ok response => do
      let (_, s) ← recordEvent engine s
        (callEvent s.stepCount service operation request response "")
      pure (callSucceeded buffer (bytesOf response), s)
  | .error failure => do
      if ← ask .hardStopObserved then
        pure (callFailed buffer (bytesOf shutdownCallError) callFailureCode,
          { s with suspendErr := some { reason := shutdownSuspendReason } })
      else do
        let (_, s) ← recordEvent engine s
          (callEvent s.stepCount service operation request failure.response failure.message)
        pure (callFailed buffer (bytesOf failure.message) callFailureCode, s)

/-- The reply for a write-ahead call's result. -/
def intentReply (buffer : OutBuf) : Except String String → Reply
  | .error message => callFailed buffer (bytesOf message) callFailureCode
  | .ok response => callSucceeded buffer (bytesOf response)

/-- The run has recorded as many call events as it may and has not yet been told to
continue as a new one. -/
def Engine.eventCapReached : Bool :=
  0 < engine.maxEventsPerWorkflow && engine.maxEventsPerWorkflow ≤ s.eventCount &&
    !s.autoContinueAsNewTriggered

/-- Whether the run has been cancelled. A failed poll counts as not cancelled. -/
def pollCancelled : Work Bool :=
  if engine.signalStore then do
    match ← ask .pollCancellation with
    | .ok cancelled => pure cancelled
    | .error _ => pure false
  else pure false

/-- Execute a service call that is not in the history. It is refused without a record
when the run is cancelled, when the worker may not start work, and when the event cap is
reached. -/
def freshCall (buffer : OutBuf) : Work Replied := do
  if ← pollCancelled engine then
    pure (callFailed buffer (bytesOf cancelledCallError) callErrorUnknown, s)
  else if !(← ask .canStartNewWork) then
    pure (callFailed buffer (bytesOf heartbeatPresumedLostCallError) callFailureCode, s)
  else if engine.eventCapReached s then do
    let s ← continueAsNew engine { s with autoContinueAsNewTriggered := true } s.originalInput
    pure (callFailed buffer (bytesOf eventCapCallError) callErrorUnknown, s)
  else
    let s := { s with eventCount := s.eventCount + 1 }
    match engine.callSemantics service operation with
    | .writeAheadIntent => do
        let (result, s) ← freshCallWithIntent engine s service operation request s.stepCount
        pure (intentReply buffer result, s)
    | .atLeastOnce => dispatchCall engine s service operation request buffer

def maxPayloadLen : Nat := 4096

/-- A payload shortened for a message, with a digest of the whole. -/
def truncateWithHash (text : String) : Bytes :=
  if (bytesOf text).length ≤ maxPayloadLen then bytesOf text
  else (bytesOf text).take maxPayloadLen ++ bytesOf "... [sha256=" ++
    bytesOf (engine.payloadDigest (bytesOf text)) ++ bytesOf "]"

/-- What the report of a divergence ends with. -/
def vetHint : String :=
  "\nRun 'cleat vet' on your workflow code to check for common non-determinism issues " ++
    "(time.Now(), random values, map iteration, goroutines)."

/-- The report of a replayed call that does not match the record at its step. -/
def divergenceMessage (detail request : String) (record : EventRecord) : Bytes :=
  bytesOf s!"replay divergence at step {record.step}: {detail}.\n  actual request: " ++
    truncateWithHash engine request ++ bytesOf "\n  expected request: " ++
    truncateWithHash engine record.request ++ bytesOf vetHint

def idempotencyReplayMaxAttempts : Nat := 3

/-- Repeat a request under its original key while the service asks to retry later. -/
def replayAttempts (record : EventRecord) (key : String) : Nat → Work (Option String)
  | 0 => pure none
  | left + 1 => do
      match ← ask (.replayUnderOriginalKey record.service record.op record.request key) with
      | .error _ => pure none
      | .ok (response, .resolved) => pure (some response)
      | .ok (_, .cannotSay) => pure none
      | .ok (_, .retryLater) =>
        if left = 0 then pure none
        else do
          if ← ask .replayBackoff then replayAttempts record key left else pure none

def defaultIdempotencyKeyRetentionMs : Int := 24 * 60 * 60 * 1000

/-- How long a service is expected to remember a key. -/
def Engine.keyRetentionMs : Int :=
  if engine.idempotencyKeyRetentionMs ≤ 0 then defaultIdempotencyKeyRetentionMs
  else engine.idempotencyKeyRetentionMs

/-- Ask the service for the outcome of a pending call by sending it again under the key
it was first sent with, while the service can be expected to remember that key. -/
def replayUnderOriginalKey (record : EventRecord) : Work (Option String) :=
  if !engine.idempotencyKeyReplayer ||
      !engine.idempotencyKeyOps.contains (intentOpKey record.service record.op) then pure none
  else match record.createdAt with
    | none => pure none
    | some createdAt =>
      if !engine.intentClock then pure none
      else do
        match ← ask .serverNow with
        | .error _ => pure none
        | .ok nowMs =>
          if nowMs - createdAt > engine.keyRetentionMs then pure none
          else
            let key :=
              durableCallIdempotencyKey engine engine.workflowID engine.workflowID record.step
            replayAttempts record key idempotencyReplayMaxAttempts

/-- The record of a pending call with the outcome found for it. -/
def resolvedRecord (record : EventRecord) (clockMs : Int) (response errMsg errCode : String) :
    EventRecord :=
  { record with
    pending := false
    timestampMs := clockMs
    response := response
    err := errMsg
    errCode := errCode
    errNonRetryable := false }

/-- Write the outcome found for a pending call. A call whose outcome cannot be written
is still ambiguous. -/
def persistAmbiguityResolution (record : EventRecord) (response errMsg errCode : String) :
    Work (Option String) :=
  if !engine.intentResolver then pure none
  else do
    let clockMs ← recordTime record
    match ← ask (.resolveCallIntent (resolvedRecord record clockMs response errMsg errCode)) with
    | .ok _ => pure (some response)
    | .error _ => pure none

def resolveAmbiguityViaKeyReplay (record : EventRecord) : Work (Option String) := do
  match ← replayUnderOriginalKey engine record with
  | some response => persistAmbiguityResolution engine record response "" ""
  | none => pure none

def ambiguityNotSentMessage : String :=
  "call outcome resolved: the service has no record of this call -- it never arrived, and " ++
    "retrying is safe"

/-- Ask a resolver for the outcome of a pending call. -/
def resolveAmbiguity (record : EventRecord) : Work (String × AmbiguityOutcome) :=
  if !engine.ambiguityResolver then pure ("", .cannotSay)
  else do
    let key := durableCallIdempotencyKey engine engine.workflowID engine.workflowID record.step
    match ← ask (.resolveCall record.service record.op key) with
    | .error _ => pure ("", .cannotSay)
    | .ok (_, .cannotSay) => pure ("", .cannotSay)
    | .ok (response, .resolved) => do
        match ← persistAmbiguityResolution engine record response "" "" with
        | some response => pure (response, .resolved)
        | none => pure ("", .cannotSay)
    | .ok (_, .notSent) => do
        match ← persistAmbiguityResolution engine record "" ambiguityNotSentMessage "transient" with
        | some response => pure (response, .notSent)
        | none => pure ("", .cannotSay)

/-- The first ambiguous call of a session is kept for the classification of a failure. -/
def recordAmbiguity (s : ExecSession) (record : EventRecord) : ExecSession :=
  match s.ambiguity with
  | some _ => s
  | none => { s with ambiguity := some ⟨record.step, record.service, record.op⟩ }

def ambiguousCallError (record : EventRecord) : String :=
  s!"[AMBIGUOUS] call outcome unknown at step {record.step}: the external call to " ++
    s!"{record.service}.{record.op} was dispatched but the response was not recorded before a " ++
    "crash. Check the external service before retrying."

/-- Replay a call whose intent is still pending. -/
def replayPendingIntent (record : EventRecord) (buffer : OutBuf) : Work Replied := do
  match ← resolveAmbiguityViaKeyReplay engine record with
  | some response => pure (callSucceeded buffer (bytesOf response), s)
  | none => do
      match ← resolveAmbiguity engine record with
      | (response, .resolved) => pure (callSucceeded buffer (bytesOf response), s)
      | (_, .notSent) =>
        pure (callFailed buffer (bytesOf ambiguityNotSentMessage) callFailureCode, s)
      | (_, .cannotSay) =>
        pure (callFailed buffer (bytesOf (ambiguousCallError record)) callErrorUnknown,
          recordAmbiguity s record)

/-- The reply a recorded call is replayed with. -/
def recordedReply (buffer : OutBuf) (record : EventRecord) : Reply :=
  if record.err ≠ "" then
    callFailed buffer (bytesOf record.err) (recordedFailureCode record.errNonRetryable)
  else callSucceeded buffer (bytesOf record.response)

/-- Replay a service call. Past the end of the history it is executed fresh. -/
def replayCall (buffer : OutBuf) : Work Replied :=
  match s.current with
  | none => freshCall engine (exitReplay s) service operation request buffer
  | some record =>
    let s := advanceReplayStep engine s record
    if record.eventType ≠ .call then
      pure (callFailed buffer (divergenceMessage engine
        s!"expected call event, got {record.eventType.name}" request record) callErrorUnknown, s)
    else if record.service ≠ service ∨ record.op ≠ operation then
      pure (callFailed buffer (divergenceMessage engine
        s!"workflow called {service}.{operation} but history has {record.service}.{record.op}"
        request record) callErrorUnknown, s)
    else if record.isPendingIntent then replayPendingIntent engine s record buffer
    else pure (recordedReply buffer record, s)

/-- The host call. -/
def durableCall (buffer : OutBuf) : Work Replied := do
  if s.isReplay then replayCall engine s service operation request buffer
  else if ← stopBeforeNewWork engine s then pure (suspendReply, s)
  else freshCall engine s service operation request buffer

end Cleat
