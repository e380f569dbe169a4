import Cleat.DurableCalls

/-!
# Plugin calls

`pluginCall` calls a function of a plugin in the worker's process and records its result.
Replayed it returns the recorded result, or calls the function again where its registration
allows that.

`pluginCallStreaming` collects the chunks that a plugin function sends and records each of them
as an event. Nothing marks where a call's chunks begin or end: a replay takes all stream events
that follow one another, and takes a single finished chunk for a failure of the stream.

The publication of chunks to live readers is left out, since no host call reads it. Encoding a
list of chunks as JSON cannot fail.
-/
namespace Cleat

variable (engine : Engine) (s : ExecSession) (pluginName functionName input : String) (buffer : OutBuf)

/-- The event of a plugin call. -/
def pluginEvent (step : Nat) (pluginName functionName input output err : String)
    (policy : ReplayPolicy) : EventRecord where
  step := step
  eventType := .pluginCall
  pluginName := pluginName
  pluginFunc := functionName
  pluginInput := input
  pluginOutput := output
  pluginError := err
  idempotent := policy.idempotent
  sameValueOnReplay := policy.sameValueOnReplay

/-- A function's registration, if the worker has a registry and the function is in it. -/
def Engine.lookupPlugin (pluginName functionName : String) : Option PluginRegistration :=
  match engine.pluginRegistry with
  | none => none
  | some lookup => lookup pluginName functionName

/-- An input that has not been recorded, without the fields that must not be shown. -/
def redactedLiveInput (pluginName functionName input : String) : String :=
  match engine.lookupPlugin pluginName functionName with
  | none => input
  | some registration => engine.redactSecretOnlyFields registration.secretOnlyFields input

/-- The report of a plugin call that does not match the record at its step. -/
def pluginDivergence (detail pluginName functionName input : String) (record : EventRecord) :
    Bytes :=
  bytesOf s!"replay divergence at step {record.step}: {detail}.\n  actual input: " ++
    truncateWithHash engine (redactedLiveInput engine pluginName functionName input) ++
    bytesOf "\n  expected (cached) input: " ++ truncateWithHash engine record.pluginInput ++
    bytesOf "\n  expected (cached) output: " ++ truncateWithHash engine record.pluginOutput ++
    bytesOf ("\nRun 'cleat vet' on your workflow code to check for common non-determinism " ++
      "issues (time.Now(), random values, map iteration, goroutines).")

/-- Whether one plugin may call another. Only calls that a plugin makes are checked. -/
def checkPluginCall (pluginName : String) : Work (Except String Unit) :=
  if engine.pluginCallGuard && engine.callerPluginName ≠ "" then
    ask (.checkPluginCall engine.callerPluginName pluginName)
  else pure (.ok ())

/-- Call a plugin function, or say why it is not called. -/
def invokePlugin (registered : Option PluginRegistration) : Work (String × Option String) :=
  match registered with
  | none =>
    pure ("", some (s!"plugin function {pluginName}/{functionName} not registered. Check that " ++
      "the plugin is deployed and its version satisfies the workflow's plugin_deps."))
  | some registration => do
      match ← checkPluginCall engine pluginName with
      | .error reason => pure ("", some reason)
      | .ok _ =>
        let violation := engine.checkSecretOnlyFields registration.secretOnlyFields input
        if violation ≠ "" then
          pure ("", some s!"plugin function {pluginName}/{functionName}: {violation}")
        else ask (.callPlugin pluginName functionName input s.stepCount)

/-- The reply to a plugin call. -/
def pluginReply (buffer : OutBuf) (output : String) : Option String → Reply
  | some reason => callFailed buffer (bytesOf reason) callFailureCode
  | none => callSucceeded buffer (bytesOf output)

/-- Call a plugin function, and record the result unless the event is in the history already.
The event is written once more after it has been recorded. -/
def freshPluginCallInternal (records : Bool) : Work Replied :=
  if engine.pluginRegistry.isNone then
    let message := s!"plugin function {pluginName}/{functionName} not available: no plugin " ++
      "registry configured. Check that the plugin is deployed and its version satisfies the " ++
      "workflow's plugin_deps."
    pure (callFailed buffer (bytesOf message) callErrorUnknown, s)
  else do
    let registered := engine.lookupPlugin pluginName functionName
    let (output, failure) ← invokePlugin engine s pluginName functionName input registered
    if !records then pure (pluginReply buffer output failure, s)
    else do
      let registration := registered.getD {}
      let recordedInput :=
        if failure.isSome then engine.redactSecretOnlyFields registration.secretOnlyFields input
        else input
      let record := pluginEvent s.stepCount pluginName functionName recordedInput output
        (failure.getD "") registration.policy
      let (_, s) ← recordEvent engine s record
      if engine.db then
        let _ ← ask (.flushEvent record (engine.computeEventChecksum record s.lastChecksum))
        pure (pluginReply buffer output failure, s)
      else pure (pluginReply buffer output failure, s)

def freshPluginCall : Work Replied :=
  freshPluginCallInternal engine s pluginName functionName input buffer true

/-- Call a function whose event is in the history. -/
def freshPluginCallWithHistory : Work Replied :=
  freshPluginCallInternal engine s pluginName functionName input buffer false

/-- A replayed call is made again: by what was recorded, or by what is registered now. A
function that has secret fields is never called again. -/
def reInvokes (pluginName functionName : String) (record : EventRecord) : Bool :=
  let registered := engine.lookupPlugin pluginName functionName
  let secret := match registered with
    | none => []
    | some registration => registration.secretOnlyFields
  secret.isEmpty &&
    ((record.idempotent && record.sameValueOnReplay) ||
      match registered with
      | none => false
      | some registration => registration.policy.mayReInvokeOnReplay)

/-- Replay a plugin call. Past the end of the history it is executed fresh. -/
def replayPluginCall : Work Replied :=
  match s.current with
  | none => freshPluginCall engine (exitReplay s) pluginName functionName input buffer
  | some record =>
    let s := advanceReplayStep engine s record
    if record.eventType ≠ .pluginCall then
      pure (callFailed buffer (pluginDivergence engine
        s!"expected plugin_call event, got {record.eventType.name}" pluginName functionName input
        record) callErrorUnknown, s)
    else if record.pluginName ≠ pluginName ∨ record.pluginFunc ≠ functionName then
      let called := s!"workflow called {pluginName}/{functionName} but history has " ++
        s!"{record.pluginName}/{record.pluginFunc}"
      pure (callFailed buffer (pluginDivergence engine called pluginName functionName input
        record) callErrorUnknown, s)
    else if reInvokes engine pluginName functionName record then
      freshPluginCallWithHistory engine s pluginName functionName input buffer
    else if record.pluginError ≠ "" then
      pure (callFailed buffer (bytesOf record.pluginError) callFailureCode, s)
    else pure (callSucceeded buffer (bytesOf record.pluginOutput), s)

/-- The host call. -/
def pluginCall : Work Replied := do
  if s.isReplay then replayPluginCall engine s pluginName functionName input buffer
  else if ← stopBeforeNewWork engine s then pure (suspendReply, s)
  else freshPluginCall engine s pluginName functionName input buffer

/-- The event of one chunk. -/
def chunkEvent (step : Nat) (pluginName functionName input output : String) (index : Int)
    (finish : Bool) (errCode : Int) : EventRecord where
  step := step
  eventType := .pluginCallStreamChunk
  pluginName := pluginName
  pluginFunc := functionName
  pluginInput := input
  pluginOutput := output
  streamChunkIndex := index
  streamFinish := finish
  streamErrCode := errCode

/-- Record a failure of the whole stream as one finished chunk, and report it. -/
def streamFailure (pluginName functionName input message : String) (code : UInt8)
    (buffer : OutBuf) : Work Replied := do
  let (_, s) ← recordEvent engine s
    (chunkEvent s.stepCount pluginName functionName input message 0 true code.toNat)
  pure (callFailed buffer (bytesOf message) code, s)

/-- Collect so many chunks, recording each under the number of chunks before it. -/
def collectChunks (pluginName functionName input : String) :
    Nat → List StreamEvent → ExecSession → Work (List StreamEvent × ExecSession)
  | 0, collected, s => pure (collected, s)
  | left + 1, collected, s => do
      let chunk ← ask .nextChunk
      let (_, s) ← recordEvent engine s (chunkEvent s.stepCount pluginName functionName input
        chunk.content collected.length chunk.finish 0)
      collectChunks pluginName functionName input left (collected ++ [chunk]) s

/-- The reply to a stream that was collected. -/
def streamReply (buffer : OutBuf) (collected : List StreamEvent) : Reply :=
  callSucceeded buffer (bytesOf (engine.marshalChunks collected))

/-- Open a stream and collect its chunks. -/
def freshPluginCallStreaming : Work Replied :=
  match engine.pluginStreamRegistry with
  | none =>
    streamFailure engine s pluginName functionName input
      "plugin_call_streaming: no plugin stream registry configured" callErrorUnknown buffer
  | some lookup =>
    match lookup pluginName functionName with
    | none =>
      let message := s!"plugin stream function {pluginName}/{functionName} not registered. " ++
        "Check that the plugin is deployed and its version satisfies the workflow's plugin_deps."
      streamFailure engine s pluginName functionName input message callFailureCode buffer
    | some secretOnlyFields => do
        let redacted := engine.redactSecretOnlyFields secretOnlyFields input
        match ← checkPluginCall engine pluginName with
        | .error reason =>
          streamFailure engine s pluginName functionName redacted reason callFailureCode buffer
        | .ok _ =>
          let violation := engine.checkSecretOnlyFields secretOnlyFields input
          if violation ≠ "" then
            streamFailure engine s pluginName functionName redacted
              s!"plugin stream function {pluginName}/{functionName}: {violation}"
              callFailureCode buffer
          else do
            match ← ask (.openStream pluginName functionName input s.stepCount) with
            | .error reason =>
              streamFailure engine s pluginName functionName redacted
                s!"plugin_call_streaming {pluginName}/{functionName}: {reason}"
                callFailureCode buffer
            | .ok length => do
                let (collected, s) ← collectChunks engine pluginName functionName input length
                  [] s
                pure (streamReply engine buffer collected, s)

/-- What a replay found of a stream: the session past it, its chunks, and the error code of the
last one. -/
structure ReplayedStream where
  session : ExecSession
  collected : List StreamEvent
  errCode : UInt8

/-- The chunk that a record holds, after so many others. The first chunk of an unfinished stream
is numbered by its place. -/
def recordedChunk (record : EventRecord) (index : Int) : StreamEvent where
  index := if record.streamChunkIndex > 0 ∨ (record.streamChunkIndex = 0 ∧ record.streamFinish) then
    record.streamChunkIndex else index
  content := record.pluginOutput
  finish := record.streamFinish

/-- Consume the stream events at the head of the remaining history. -/
def replayStreamChunks : History → ReplayedStream → ReplayedStream
  | [], found => found
  | record :: rest, found =>
    if record.eventType ≠ .pluginCallStreamChunk then found
    else
      replayStreamChunks rest
        { session := advanceReplayStep engine found.session record
          collected := found.collected ++ [recordedChunk record found.collected.length]
          errCode := UInt8.ofInt record.streamErrCode }

/-- The reply to a replayed stream: a single finished chunk is a failure. -/
def replayedStreamReply (buffer : OutBuf) (found : ReplayedStream) : Reply :=
  match found.collected with
  | [chunk] =>
    if chunk.finish then callFailed buffer (bytesOf chunk.content) found.errCode
    else streamReply engine buffer found.collected
  | _ => streamReply engine buffer found.collected

/-- Replay a stream. Past the end of the history it is executed fresh. -/
def replayPluginCallStreaming : Work Replied :=
  if s.history.length ≤ s.stepCount then
    freshPluginCallStreaming engine (exitReplay s) pluginName functionName input buffer
  else
    let found := replayStreamChunks engine s.remaining ⟨s, [], 0⟩
    pure (replayedStreamReply engine buffer found, found.session)

/-- The host call. -/
def pluginCallStreaming : Work Replied := do
  if s.isReplay then replayPluginCallStreaming engine s pluginName functionName input buffer
  else if ← stopBeforeNewWork engine s then pure (suspendReply, s)
  else freshPluginCallStreaming engine s pluginName functionName input buffer

end Cleat
