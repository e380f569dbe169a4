import Cleat.Children
import Cleat.Locks
import Cleat.Promises

/-!
# Calls around a run's life

The remaining calls that leave an event: continuing as a new run, registering an update handler
or a defer, settling a promise, starting a run that is not awaited, fetching a URL, and deleting
and listing schedules.

They differ in what they do with a record of another kind. Some leave it and replay, some consume
it and report a divergence, and settling a promise consumes it, leaves replay and settles.
-/
namespace Cleat

variable (engine : Engine) (s : ExecSession)

/-- Replay the record at the session's step if it is of this type. A record of another type is
not consumed and ends the replay. -/
def replayOrLeave (eventType : EventType) (replayed : EventRecord → ExecSession → Replied)
    (fresh : ExecSession → Work Replied) : Work Replied :=
  if s.isReplay then
    match s.current with
    | some record =>
      if record.eventType = eventType then pure (replayed record (advanceReplayStep engine s record))
      else fresh (exitReplay s)
    | none => fresh (exitReplay s)
  else fresh s

/-- Suspend the session so that a new run continues it. -/
def suspendToContinue (s : ExecSession) (newInput : String) (newVersion : Int) :
    Replied :=
  let suspension : SuspendError := ⟨"continue_as_new", none, newInput, newVersion⟩
  (⟨0, []⟩, { s with suspendErr := some suspension })

/-- Record that a new run continues this one. -/
def recordContinueAsNew (newInput : String) (newVersion : Int) : Work Replied := do
  let (_, s) ← recordEvent engine s
    { step := s.stepCount, eventType := .continueAsNew, newInput := newInput,
      newVersion := newVersion }
  pure (suspendToContinue s newInput newVersion)

/-- The host call that continues as a new run. Replayed, it takes the recorded input and no
version. -/
def continueAsNewCall (newInput : String) : Work Replied :=
  replayOrLeave engine s .continueAsNew (fun record s => suspendToContinue s record.newInput 0)
    fun s => recordContinueAsNew engine s newInput 0

/-- The host call that continues as a new run of a given version. -/
def continueAsNewWithVersion (newInput : String) (newVersion : Int) : Work Replied :=
  replayOrLeave engine s .continueAsNew
    (fun record s => suspendToContinue s record.newInput record.newVersion)
    fun s => recordContinueAsNew engine s newInput newVersion

/-- The host call that registers a handler for updates. -/
def registerUpdateHandler (name : String) : Work Replied :=
  replayOrLeave engine s .updateHandler (fun _ s => (⟨0, []⟩, s)) fun s => do
    let (_, s) ← recordEvent engine s
      { step := s.stepCount, eventType := .updateHandler, updateHandlerName := name }
    pure (⟨0, []⟩, s)

/-- Keep a defer's description under its name. -/
def registerDeferral (s : ExecSession) (deferID description : String) : ExecSession :=
  { s with deferrals := s.deferrals.filter (·.1 ≠ deferID) ++ [(deferID, description)] }

/-- The host call that registers a defer. A record without a name or a description stands for
the name of its step and for the description that is given. -/
def durableDefer (description : String) (buffer : OutBuf) : Work Replied :=
  replayOrLeave engine s .defer
    (fun record advanced =>
      let deferID := if record.deferID = "" then s!"defer-{s.stepCount}" else record.deferID
      let described :=
        if record.deferDescription = "" then description else record.deferDescription
      (simpleValue buffer (bytesOf deferID), registerDeferral advanced deferID described))
    fun s => do
      let deferID := s!"defer-{s.stepCount}"
      let (_, s) ← recordEvent engine s
        { step := s.stepCount, eventType := .defer, deferDescription := description,
          deferID := deferID }
      pure (simpleValue buffer (bytesOf deferID), registerDeferral s deferID description)

/-- Settle a promise and record that. A record of another type at the step is consumed before
the promise is settled. -/
def settlePromise (event : EventRecord) (settle : Query) (failed : Answer settle → Bool) :
    Work Replied :=
  let fresh (s : ExecSession) : Work Replied := do
    let (_, s) ← recordEvent engine s { event with step := s.stepCount }
    if !engine.promiseStore then pure (⟨packSimpleResult 1 0, []⟩, s)
    else do
      let answer ← ask settle
      pure (⟨if failed answer then packSimpleResult 1 0 else 0, []⟩, s)
  if s.isReplay then
    match s.current with
    | some record =>
      let s := advanceReplayStep engine s record
      if record.eventType = event.eventType then pure (⟨0, []⟩, s) else fresh (exitReplay s)
    | none => fresh (exitReplay s)
  else fresh s

/-- The host call that resolves a promise. -/
def resolvePromise (promiseID value : String) : Work Replied :=
  settlePromise engine s
    { step := 0, eventType := .promiseResolved, promiseID := promiseID, promiseResult := value }
    (.resolvePromise (bytesOf promiseID) value) fun answer => !answer.isOk

/-- The host call that rejects a promise. -/
def rejectPromise (promiseID errMsg : String) : Work Replied :=
  settlePromise engine s
    { step := 0, eventType := .promiseRejected, promiseID := promiseID, promiseError := errMsg }
    (.rejectPromise (bytesOf promiseID) errMsg) fun answer => !answer.isOk

/-- A request to a URL. -/
structure FetchRequest where
  method : String
  url : String
  headersJSON : String
  body : String
deriving DecidableEq, Repr

/-- The report of a fetch that does not match the record at its step. -/
def fetchDivergence (request : FetchRequest) (record : EventRecord) : Bytes :=
  bytesOf (s!"replay divergence at step {record.step}: Fetch mismatch.\n  workflow: " ++
      s!"{request.method} {request.url}\n  history: {record.fetchMethod} {record.fetchURL}\n" ++
      "  actual body: ") ++
    truncateWithHash engine request.body ++ bytesOf "\n  expected body: " ++
    truncateWithHash engine record.fetchBody ++ bytesOf "\n  expected response: " ++
    truncateWithHash engine record.fetchResponse ++ bytesOf vetHint

/-- Why a worker without a fetcher does not fetch. -/
def fetchDisabled (request : FetchRequest) : String :=
  "cleat_fetch is disabled: this engine has no Fetcher. A cleat-worker serves cleat_fetch only " ++
    "when started with --enable-workflow-fetch (off by default; " ++
    "docs/operations/egress-policy.md); an embedding host supplies engine.WithFetcher(...). " ++
    s!"Workflow {engine.workflowID} attempted {request.method} {request.url}"

/-- The response to a request, and its error. -/
def fetchURL (request : FetchRequest) : Work (String × Option String) :=
  if engine.fetcher then ask (.fetch request.method request.url request.headersJSON request.body)
  else pure ("", some (fetchDisabled engine request))

/-- Fetch a URL and record the outcome, unless the segment may not start new work. -/
def freshFetch (request : FetchRequest) (buffer : OutBuf) : Work Replied := do
  if ← stopBeforeNewWork engine s then pure (suspendReply, s)
  else do
    let (response, failure) ← fetchURL engine request
    let (_, s) ← recordEvent engine s
      { step := s.stepCount, eventType := .fetch, fetchMethod := request.method,
        fetchURL := request.url, fetchHeaders := request.headersJSON, fetchBody := request.body,
        fetchResponse := response, err := failure.getD "" }
    match failure with
    | some reason => pure (simpleFailed buffer (bytesOf reason), s)
    | none => pure (simpleValue buffer (bytesOf response), s)

/-- The host call that fetches a URL. -/
def fetch (request : FetchRequest) (buffer : OutBuf) : Work Replied :=
  if s.isReplay then
    match s.current with
    | none => freshFetch engine (exitReplay s) request buffer
    | some record =>
      let s := advanceReplayStep engine s record
      if record.eventType ≠ .fetch ∨ record.fetchMethod ≠ request.method ∨
          record.fetchURL ≠ request.url ∨ record.fetchBody ≠ request.body then
        pure (simpleFailed buffer (fetchDivergence engine request record), s)
      else if record.err ≠ "" then pure (simpleFailed buffer (bytesOf record.err), s)
      else pure (simpleValue buffer (bytesOf record.fetchResponse), s)
  else freshFetch engine s request buffer

/-- Delete a schedule, or say why it is not deleted. One that is not there is deleted. -/
def deleteSchedule (scheduleID : String) : Work (Option String) :=
  if engine.workflowStore then do
    match ← ask (.deleteSchedule scheduleID) with
    | .ok _ => pure none
    | .error reason => pure (some reason)
  else
    let quoted := engine.quoteString scheduleID
    pure (some (s!"no workflow store configured: workflow {engine.workflowID} cannot delete " ++
      s!"schedule {quoted}"))

/-- Delete a schedule and record the outcome. -/
def freshDeleteCron (scheduleID : String) : Work Replied := do
  let failure ← deleteSchedule engine scheduleID
  let (_, s) ← recordEvent engine s
    { step := s.stepCount, eventType := .deleteCron, cronScheduleID := scheduleID,
      err := failure.getD "" }
  pure (⟨packSimpleResult (if failure.isSome then 1 else 0) 0, []⟩, s)

/-- The host call that deletes a schedule. -/
def deleteCron (scheduleID : String) : Work Replied :=
  if s.isReplay then
    match s.current with
    | none => freshDeleteCron engine (exitReplay s) scheduleID
    | some record =>
      let s := advanceReplayStep engine s record
      if record.eventType ≠ .deleteCron ∨ record.cronScheduleID ≠ scheduleID ∨ record.err ≠ "" then
        pure (⟨packSimpleResult 1 0, []⟩, s)
      else pure (⟨packSimpleResult 0 0, []⟩, s)
  else freshDeleteCron engine s scheduleID

/-- The schedules as they are encoded for the guest. -/
def listCronSchedules : Work (Except String String) :=
  if engine.workflowStore then do
    match ← ask .listSchedules with
    | .error reason => pure (.error s!"list_crons: {reason}")
    | .ok schedules => pure (.ok (engine.marshalSchedules schedules))
  else
    pure (.error s!"no workflow store configured: workflow {engine.workflowID} cannot list schedules")

/-- List the schedules and record the list. -/
def freshListCrons (buffer : OutBuf) : Work Replied := do
  let listed ← listCronSchedules engine
  match listed with
  | .error reason => do
      let (_, s) ← recordEvent engine s
        { step := s.stepCount, eventType := .listCrons, err := reason }
      pure (simpleFailed buffer (bytesOf reason), s)
  | .ok listJSON => do
      let (_, s) ← recordEvent engine s
        { step := s.stepCount, eventType := .listCrons, cronResult := listJSON }
      pure (simpleValue buffer (bytesOf listJSON), s)

/-- The host call that lists the schedules. -/
def listCrons (buffer : OutBuf) : Work Replied :=
  if s.isReplay then
    match s.current with
    | none => freshListCrons engine (exitReplay s) buffer
    | some record =>
      let s := advanceReplayStep engine s record
      if record.eventType ≠ .listCrons then
        pure (simpleFailed buffer (bytesOf (s!"replay divergence at step {record.step}: " ++
          s!"ListCrons mismatch.\n  history has: {record.eventType.name}" ++ vetHint)), s)
      else if record.err ≠ "" then pure (simpleFailed buffer (bytesOf record.err), s)
      else pure (simpleValue buffer (bytesOf record.cronResult), s)
  else freshListCrons engine s buffer

/-- What a call that starts a detached run has written, and its code. -/
structure Detached where
  written : Bytes := []
  code : UInt64 := 0

/-- The name of a run that is not awaited. A start that fails has a name of its own. -/
def detachedRunID (name input : String) : Work String := do
  let version ← resolveChildVersion engine name 0
  if engine.childWfStore then do
    match ← ask (.startChildWorkflow engine.workflowID name input version) with
    | .ok runID => pure (if runID = "" then s!"detached-{name}-{s.stepCount}" else runID)
    | .error _ => pure s!"detached-{name}-{s.stepCount}"
  else pure s!"detached-{name}-{s.stepCount}"

/-- Start a run that is not awaited and record it, unless the segment may not start new work. -/
def freshRunDetached (name input : String) (buffer : OutBuf) (wantID : Bool) :
    Work (Detached × ExecSession) := do
  if ← stopBeforeNewWork engine s then pure ({ code := callSuspendSentinel }, s)
  else do
    let runID ← detachedRunID engine s name input
    let (_, s) ← recordEvent engine s
      { step := s.stepCount, eventType := .runDetached, detachedName := name,
        detachedInput := input, detachedRunID := runID }
    pure ({ written := if wantID then (writeResult buffer (bytesOf runID)).1 else [] }, s)

/-- The report of a detached start that does not match the record at its step. -/
def detachedDivergence (name : String) (record : EventRecord) : String :=
  s!"replay divergence at step {record.step}: expected run_detached {engine.quoteString name}, " ++
    s!"got {record.eventType.name} {engine.quoteString record.detachedName}." ++ vetHint

/-- What both calls that start a detached run do. A record that does not match is not consumed. -/
def startDetachedRun (name input : String) (buffer : OutBuf) (wantID : Bool) :
    Work (Detached × ExecSession) :=
  if s.isReplay then
    match s.current with
    | none => freshRunDetached engine (exitReplay s) name input buffer wantID
    | some record =>
      if record.eventType ≠ .runDetached ∨ record.detachedName ≠ name then
        pure ({ written := (writeResult buffer (bytesOf (detachedDivergence engine name record))).1,
                code := 1 }, s)
      else
        let written :=
          if wantID then (writeResult buffer (bytesOf record.detachedRunID)).1 else []
        pure ({ written := written }, advanceReplayStep engine s record)
  else freshRunDetached engine s name input buffer wantID

/-- The host call that starts a detached run. -/
def runDetached (name input : String) : Work Replied := do
  let (result, s) ← startDetachedRun engine s name input ⟨0, 0⟩ false
  pure (⟨result.code, []⟩, s)

/-- The host call that starts a detached run and returns its name. -/
def startDetached (name input : String) (buffer : OutBuf) : Work Replied := do
  let (result, s) ← startDetachedRun engine s name input buffer true
  pure (⟨if result.code ≠ 0 then result.code else packSimpleResult 0 result.written.length,
    [result.written]⟩, s)

end Cleat
