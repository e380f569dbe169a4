import Cleat.Session

/-!
# Promises and side effects

A promise is created by the workflow and settled from outside. An await asks the
promise store. A settled promise is recorded with its outcome and returned. A pending
one is recorded as an `await_promise` event and suspends the run; the wake replays that
event, leaves replay there, and asks the store again. It records the outcome of a
promise that has been settled meanwhile in a second event, returns a time-out without
an event when the recorded deadline has passed, and suspends again otherwise.

Settling a promise from inside a workflow is not modelled.
-/
namespace Cleat

variable (engine : Engine) (s : ExecSession)

def errNoPromiseStore : String :=
  "no promise store configured on this engine (engine.WithPromiseStore was never called); " ++
    "a durable promise cannot be created, awaited or settled without one"

/-- Record a new promise and create it in the store. A store failure is reported to the
guest, but the event stays. -/
def freshCreatePromise (name : String) (buffer : OutBuf) : Work Replied := do
  let generated ← ask .newUUID
  let promiseID := match generated with
    | .ok id => id
    | .error _ => s!"prom-{engine.workflowID}-{s.stepCount}"
  let (_, s) ← recordEvent engine s
    { step := s.stepCount, eventType := .createPromise, promiseName := name,
      promiseID := promiseID }
  if !engine.promiseStore then pure (simpleFailed buffer (bytesOf errNoPromiseStore), s)
  else do
    match ← ask (.createPromise name promiseID) with
    | .error reason => pure (simpleFailed buffer (bytesOf reason), s)
    | .ok _ => pure (simpleValue buffer (bytesOf promiseID), s)

/-- The host call that creates a promise. A record of another kind ends the replay. -/
def createPromise (name : String) (buffer : OutBuf) : Work Replied :=
  if s.isReplay then
    match s.current with
    | some record =>
      if record.eventType = .createPromise then
        pure (simpleValue buffer (bytesOf record.promiseID), advanceReplayStep engine s record)
      else freshCreatePromise engine (exitReplay s) name buffer
    | none => freshCreatePromise engine (exitReplay s) name buffer
  else freshCreatePromise engine s name buffer

/-- Result words of an await on a promise: length, time-out flag and error code. -/
def packAwaitPromiseResult (resultLen : Nat) (timedOut : Bool) (errCode : UInt8) : UInt64 :=
  UInt64.ofNat resultLen <<< 32 ||| (if timedOut then (1 : UInt64) else 0) <<< 16 ||| errCode.toUInt64

/-- Result words of an await on signals: both lengths, time-out flag and error code. -/
def packAwaitSignalsResult (sigNameLen payloadLen : Nat) (timedOut : Bool) (errCode : UInt8) :
    UInt64 :=
  UInt64.ofNat sigNameLen <<< 48 ||| UInt64.ofNat payloadLen <<< 32 |||
    (if timedOut then (1 : UInt64) else 0) <<< 16 ||| errCode.toUInt64

/-- What an await that has just suspended the run returns. While the host drains the
guest's defers it must not stop the guest. -/
def suspendingAwaitResult (s : ExecSession) : Reply :=
  if s.inDeferDrain then ⟨packAwaitSignalsResult 0 0 true 0, []⟩ else suspendReply

/-- The reply of an await on a resolved promise. -/
def promiseResolved (buffer : OutBuf) (result : String) : Reply :=
  let (written, errCode) := writeOut buffer (bytesOf result)
  ⟨packAwaitPromiseResult written.length false errCode, [written]⟩

/-- The reply of an await on a rejected promise, and of one that cannot be made. -/
def promiseRejected (buffer : OutBuf) (reason : String) : Reply :=
  let written := (writeResult buffer (bytesOf reason)).1
  ⟨packAwaitPromiseResult written.length false 1, [written]⟩

/-- The reply of an await whose deadline has passed. -/
def promiseTimedOut : Reply := ⟨packAwaitPromiseResult 0 true 0, []⟩

/-- The deadline of a recorded await. -/
def awaitDeadlineMs (record : EventRecord) : Int := int64 (record.timestampMs + record.timeoutMs)

/-- Suspend an await until a time given in nanoseconds. -/
def suspendAwait (s : ExecSession) (reason : String) (until_ : Int) : Replied :=
  let s := { s with suspendErr := some { reason := reason, until_ := some until_ } }
  (suspendingAwaitResult s, s)

def awaitPromiseReason (promiseID : String) : String := s!"await_promise({promiseID})"

/-- An await on a promise that is still pending: one that is resumed from its record
times out at the recorded deadline, and one that begins is recorded. -/
def awaitPending (promiseID : String) (timeoutMs : Int) (resumed : Option EventRecord) :
    Work Replied :=
  match resumed with
  | some record =>
    if record.timeoutMs ≤ 0 then do
      let clockMs ← ask .now
      pure (suspendAwait s (awaitPromiseReason promiseID)
        (unixMilli clockMs + durationOfMs timeoutMs))
    else do
      let clockMs ← ask .now
      if clockMs ≥ awaitDeadlineMs record then pure (promiseTimedOut, s)
      else pure (suspendAwait s (awaitPromiseReason promiseID)
        (unixMilli (awaitDeadlineMs record)))
  | none => do
      let (_, s) ← recordEvent engine s
        { step := s.stepCount, eventType := .awaitPromise, promiseID := promiseID,
          timeoutMs := timeoutMs }
      pure (suspendAwait s (awaitPromiseReason promiseID)
        (unixMilli s.nowMs + durationOfMs timeoutMs))

/-- Ask the store for the promise, and record the outcome of a settled one. -/
def awaitStore (promiseID : String) (timeoutMs : Int) (resumed : Option EventRecord)
    (buffer : OutBuf) : Work Replied :=
  if !engine.promiseStore then pure (promiseRejected buffer errNoPromiseStore, s)
  else do
    match ← ask (.getPromise promiseID) with
    | .ok (.resolved result) => do
        let (_, s) ← recordEvent engine s
          { step := s.stepCount, eventType := .promiseResolved, promiseID := promiseID,
            promiseResult := result }
        pure (promiseResolved buffer result, s)
    | .ok (.rejected reason) => do
        let (_, s) ← recordEvent engine s
          { step := s.stepCount, eventType := .promiseRejected, promiseID := promiseID,
            promiseError := reason }
        pure (promiseRejected buffer reason, { s with awaitRejected := true })
    | .ok .pending => awaitPending engine s promiseID timeoutMs resumed
    | .error _ => awaitPending engine s promiseID timeoutMs resumed

/-- The host call that awaits a promise. Replaying the record of a suspended await ends
the replay; a record of a kind that no await writes does not, and is not consumed. -/
def awaitPromise (promiseID : String) (timeoutMs : Int) (buffer : OutBuf) :
    Work Replied :=
  let s := { s with awaitRejected := false }
  if s.isReplay then
    match s.current with
    | none => awaitStore engine (exitReplay s) promiseID timeoutMs none buffer
    | some record =>
      if record.eventType = .promiseResolved then
        pure (promiseResolved buffer record.promiseResult, advanceReplayStep engine s record)
      else if record.eventType = .promiseRejected then
        pure (promiseRejected buffer record.promiseError,
          { advanceReplayStep engine s record with awaitRejected := true })
      else if record.eventType = .awaitPromise then
        awaitStore engine (exitReplay (advanceReplayStep engine s record)) promiseID timeoutMs
          (some record) buffer
      else awaitStore engine s promiseID timeoutMs none buffer
  else awaitStore engine s promiseID timeoutMs none buffer

/-- Record a value the guest computed. -/
def freshSideEffect (computedResult : String) (buffer : OutBuf) : Work Replied := do
  let (_, s) ← recordEvent engine s
    { step := s.stepCount, eventType := .sideEffect, sideEffectResult := computedResult }
  pure (simpleValue buffer (bytesOf computedResult), s)

/-- The report of a replayed value that differs from the recorded one. -/
def sideEffectMismatch (record : EventRecord) (computedResult : String) : String :=
  s!"replay divergence at step {record.step}: SideEffect produced " ++
    s!"{engine.quoteString computedResult} but history recorded " ++
    s!"{engine.quoteString record.sideEffectResult}. Your workflow may have a " ++
    "non-determinism bug (time.Now(), random values, map iteration, goroutines). " ++
    "Run 'cleat vet' to check for common issues."

def replaySideEffect (computedResult : String) (buffer : OutBuf) : Work Replied :=
  match s.current with
  | none => freshSideEffect engine (exitReplay s) computedResult buffer
  | some record =>
    let s := advanceReplayStep engine s record
    if record.eventType ≠ .sideEffect then
      pure (simpleFailed buffer (bytesOf (s!"replay divergence at step {record.step}: " ++
        s!"expected side_effect event, got {record.eventType.name}")), s)
    else if record.sideEffectResult ≠ computedResult then
      pure (simpleFailed buffer (bytesOf (sideEffectMismatch engine record computedResult)), s)
    else pure (simpleValue buffer (bytesOf record.sideEffectResult), s)

/-- The host call that records a value the guest computed outside the workflow. -/
def sideEffect (computedResult : String) (buffer : OutBuf) : Work Replied := do
  if s.isReplay then replaySideEffect engine s computedResult buffer
  else if ← stopBeforeNewWork engine s then pure (suspendReply, s)
  else freshSideEffect engine s computedResult buffer

end Cleat
