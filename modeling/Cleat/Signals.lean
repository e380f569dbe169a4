import Cleat.Promises

/-!
# Signals

`durableAwaitSignals` looks for a stored signal under one of the given names. A signal
that is there is recorded as `signal_received`, consumed and returned. Otherwise an await
with a positive time-out is recorded as `await_signals` and suspends the run, and one
without returns a time-out at once and leaves no record.

Replayed, an await takes a `signal_received` record at its step, or one right after its
own `await_signals` record. If the history goes on with something else, the await had
timed out. If it ends there, the store is asked again.

`signalWorkflow` sends a signal to another run and records it, also as
`signal_received`.
-/
namespace Cleat

variable (engine : Engine) (s : ExecSession)

/-- Split a list of names at its commas. -/
def splitSignalNames (names : String) : List String :=
  if names = "" then [] else (names.toList.splitOn ',').map String.ofList

/-- The names a guest awaits: a JSON array, or a list separated by commas. -/
def parseSignalNames (names : String) : List String :=
  (engine.unmarshalStrings names).getD (splitSignalNames names)

/-- The first non-zero of two error codes. -/
def firstNonZero (first second : UInt8) : UInt8 := if first ≠ 0 then first else second

/-- The reply of an await that received a signal. -/
def signalReceived (nameBuffer payloadBuffer : OutBuf) (name payload : String) : Reply :=
  let (written, writtenEC) := writeOut nameBuffer (bytesOf name)
  let (payloadWritten, payloadEC) := writeOut payloadBuffer (bytesOf payload)
  ⟨packAwaitSignalsResult written.length payloadWritten.length false
    (firstNonZero writtenEC payloadEC), [written, payloadWritten]⟩

/-- The reply of an await that timed out. -/
def signalsTimedOut : Reply := ⟨packAwaitSignalsResult 0 0 true 0, []⟩

/-- The first of the names that has a signal in the store. A failed poll is passed over. -/
def pollSignals : List String → Work (Option (String × SignalDelivery))
  | [] => pure none
  | name :: names => do
      match ← ask (.pollSignal name) with
      | .ok (some delivery) => pure (some (name, delivery))
      | .ok none => pollSignals names
      | .error _ => pollSignals names

/-- Look for a signal; without a signal store there is none. -/
def findSignal (signalNames : String) : Work (Option (String × SignalDelivery)) :=
  if engine.signalStore then pollSignals (parseSignalNames engine signalNames) else pure none

/-- Record a signal and then consume it. A failed consumption is only logged. -/
def receiveSignal (name : String) (delivery : SignalDelivery) (nameBuffer payloadBuffer : OutBuf) :
    Work Replied := do
  let (_, s) ← recordEvent engine s
    { step := s.stepCount, eventType := .signalReceived, signalName := name,
      signalPayload := delivery.payload }
  let _ ← ask (.consumeSignal delivery.id)
  pure (signalReceived nameBuffer payloadBuffer name delivery.payload, s)

/-- Whether the deadline of a recorded await has passed. -/
def awaitExpired (record : EventRecord) (clockMs : Int) : Bool :=
  0 < record.timestampMs && 0 < record.timeoutMs && awaitDeadlineMs record ≤ clockMs

/-- Resume the await whose record is the last of the history. -/
def resumeAwaitSignals (record : EventRecord) (nameBuffer payloadBuffer : OutBuf) :
    Work Replied := do
  match ← findSignal engine record.signalNames with
  | some (name, delivery) => receiveSignal engine s name delivery nameBuffer payloadBuffer
  | none => do
      -- One reading of the clock serves both the comparison and the fallback deadline.
      let clockMs ← ask .now
      if awaitExpired record clockMs then pure (signalsTimedOut, s)
      else
        let deadline :=
          if record.timestampMs = 0 ∨ record.timeoutMs ≤ 0 then int64 (clockMs + record.timeoutMs)
          else awaitDeadlineMs record
        pure (suspendAwait s
          s!"await_signals({record.signalNames}, {record.timeoutMs}ms) [replayed]"
          (unixMilli deadline))

/-- An await that is not in the history. A session that is already suspended does not
begin another. -/
def freshAwaitSignals (signalNames : String) (timeoutMs : Int) (nameBuffer payloadBuffer : OutBuf) :
    Work Replied := do
  if ← stopBeforeNewWork engine s then pure (suspendReply, s)
  else if s.suspendErr.isSome && !s.inDeferDrain then pure (suspendReply, s)
  else do
    match ← findSignal engine signalNames with
    | some (name, delivery) => receiveSignal engine s name delivery nameBuffer payloadBuffer
    | none =>
      if timeoutMs ≤ 0 then pure (signalsTimedOut, s)
      else do
        let (_, s) ← recordEvent engine s
          { step := s.stepCount, eventType := .awaitSignals, signalNames := signalNames,
            timeoutMs := timeoutMs }
        pure (suspendAwait s s!"await_signals({signalNames}, {timeoutMs}ms)"
          (unixMilli s.nowMs + durationOfMs timeoutMs))

/-- Replay the record of an await that suspended, given the record that follows it. -/
def replayAwaitSignals (record : EventRecord) (nameBuffer payloadBuffer : OutBuf) :
    Work Replied :=
  let s := advanceReplayStep engine s record
  match s.current with
  | some next =>
    if next.eventType = .signalReceived then
      pure (signalReceived nameBuffer payloadBuffer next.signalName next.signalPayload,
        advanceReplayStep engine s next)
    else pure (signalsTimedOut, s)
  | none => resumeAwaitSignals engine (exitReplay s) record nameBuffer payloadBuffer

/-- The host call that awaits a signal. -/
def durableAwaitSignals (signalNames : String) (timeoutMs : Int)
    (nameBuffer payloadBuffer : OutBuf) : Work Replied :=
  if s.isReplay then
    match s.current with
    | some record =>
      if record.eventType = .signalReceived then
        pure (signalReceived nameBuffer payloadBuffer record.signalName record.signalPayload,
          advanceReplayStep engine s record)
      else if record.eventType = .awaitSignals then
        replayAwaitSignals engine s record nameBuffer payloadBuffer
      else
        freshAwaitSignals engine (exitReplay s) signalNames timeoutMs nameBuffer payloadBuffer
    | none =>
      freshAwaitSignals engine (exitReplay s) signalNames timeoutMs nameBuffer payloadBuffer
  else freshAwaitSignals engine s signalNames timeoutMs nameBuffer payloadBuffer

/-- The word that refuses a signal the caller is not authorized to send. -/
def errSignalAuthRequired : UInt64 := 0xFFFFFFFF00000002

/-- Send a signal and record it. The record is made before the delivery, whose failure is
only logged. -/
def freshSignalWorkflow (targetRunID signalName : String) (payload : String) :
    Work Replied := do
  let (_, s) ← recordEvent engine s
    { step := s.stepCount, eventType := .signalReceived, signalName := signalName,
      signalPayload := payload, runID := targetRunID }
  if engine.signalStore then do
    let _ ← ask (.deliverSignal targetRunID signalName payload)
    pure (⟨0, []⟩, s)
  else pure (⟨0, []⟩, s)

/-- Whether the caller may signal the target. -/
def signalAuthorized (targetRunID : String) : Work Bool :=
  if engine.requireSignalAuth then do
    match ← ask (.signalAuthCheck targetRunID) with
    | .ok _ => pure true
    | .error _ => pure false
  else pure true

/-- Send a signal that is not in the history, unless no new work may start or the caller
is not authorized. -/
def beginSignalWorkflow (targetRunID signalName : String) (payload : String) :
    Work Replied := do
  if ← stopBeforeNewWork engine s then pure (suspendReply, s)
  else if ← signalAuthorized engine targetRunID then
    freshSignalWorkflow engine s targetRunID signalName payload
  else pure (⟨errSignalAuthRequired, []⟩, s)

/-- The host call that signals another run. Any `signal_received` record at its step is
taken for its own. -/
def signalWorkflow (targetRunID signalName : String) (payload : String) :
    Work Replied :=
  if s.isReplay then
    match s.current with
    | some record =>
      if record.eventType = .signalReceived then
        pure (⟨0, []⟩, advanceReplayStep engine s record)
      else beginSignalWorkflow engine (exitReplay s) targetRunID signalName payload
    | none => beginSignalWorkflow engine (exitReplay s) targetRunID signalName payload
  else beginSignalWorkflow engine s targetRunID signalName payload

end Cleat
