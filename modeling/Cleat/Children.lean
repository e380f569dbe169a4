import Cleat.DurableCalls

/-!
# Child workflows

`childWorkflow` starts a child: the store creates the child's run and the parent's event in one
transaction, and the session appends the event to its history itself.

Three calls wait for children. Each records that it waits, without a response, and asks again in
the next segment. `awaitChild` and `awaitAllChildren` complete that event in place, and
`awaitAnyChild` records its answer behind it. `pollChild` does not wait and records nothing: it
compares the time at which the child settled with the session's clock.

The check for children without an event only reports what it finds and is left out.
-/
namespace Cleat

variable (engine : Engine) (s : ExecSession)

/-- What is left of a policy that names a tag. -/
def tagOf (policy : String) : Option String :=
  match policy.toList with
  | 't' :: 'a' :: 'g' :: ':' :: tag => some (String.ofList tag)
  | _ => none

/-- The version that a tag stands for, if it can be found. -/
def versionByTag (name tag : String) : Work (Option Int) :=
  if engine.childWfStore then do
    match ← ask (.resolveVersionByTag name tag) with
    | .ok version => pure (if 0 < version then some version else none)
    | .error _ => pure none
  else pure none

/-- The policy that binds a child's name to a version, where none is configured. -/
def effectiveBindingPolicy (pinned : String → Option Int) (name : String) : String :=
  if engine.childBindingPolicy = "" then
    if (pinned name).isSome then "frozen" else "latest"
  else engine.childBindingPolicy

/-- The version under the policy of the guest's metadata. Zero lets the store choose. -/
def versionByPolicy (name : String) : Work Int :=
  match engine.childVersions with
  | none => pure 0
  | some pinned =>
    let policy := effectiveBindingPolicy engine pinned name
    if policy = "frozen" then
      match pinned name with
      | some version => pure (if 0 < version then version else 0)
      | none => pure 0
    else if policy = "stable" then do
      let version ← versionByTag engine name "stable"
      pure (version.getD 0)
    else if policy = "latest" then pure 0
    else match tagOf policy with
      | some tag => do
          let version ← versionByTag engine name tag
          pure (version.getD 0)
      | none => pure 0

/-- The version of a child: the one asked for, the worker's override, or the policy's. -/
def resolveChildVersion (name : String) (explicitVersion : Int) : Work Int :=
  if 0 < explicitVersion then pure explicitVersion
  else if engine.childBindingOverride = "latest" then pure 0
  else match tagOf engine.childBindingOverride with
    | some tag => do
        match ← versionByTag engine name tag with
        | some version => pure version
        | none => versionByPolicy engine name
    | none => versionByPolicy engine name

/-- What is asked of a new child. -/
structure ChildRequest where
  name : String
  input : String
  version : Int := 0
  priority : Int := 0
  parentClosePolicy : String := ""
deriving DecidableEq, Repr

/-- The policies that say what becomes of a child when its parent closes. -/
def validParentClosePolicy (policy : String) : Bool :=
  policy = "" || policy = "ABANDON" || policy = "TERMINATE" || policy = "REQUEST_CANCEL"

/-- An error in the simple layout, under a code of its own. -/
def simpleFailedWith (buffer : OutBuf) (message : Bytes) (errCode : UInt8) : Reply :=
  let written := (writeResult buffer message).1
  ⟨packSimpleResult errCode written.length, [written]⟩

/-- The event of a child's start. -/
def childEvent (step : Nat) (child : ChildRequest) (runID : String) (timestampMs : Int) :
    EventRecord where
  step := step
  eventType := .childWorkflow
  timestampMs := timestampMs
  childName := child.name
  childInput := child.input
  runID := runID
  parentWorkflowID := engine.workflowID
  parentClosePolicy := child.parentClosePolicy

/-- The check of the quota of children, where there is one. -/
def checkChildQuota : Work (Option String) :=
  if 0 < engine.maxQuotaChildren && engine.workflowStore then do
    match ← ask .getChildCount with
    | .error reason =>
      pure (some s!"workflow {engine.workflowID}: failed to check child quota: {reason}")
    | .ok count =>
      if engine.maxQuotaChildren ≤ count then
        pure (some (s!"workflow {engine.workflowID}: child workflow quota exceeded (current " ++
          s!"{count}, max {engine.maxQuotaChildren})"))
      else pure none
  else pure none

/-- Start a child through the store. The session's clock is set to the event's time as it is. -/
def startChildInStore (child : ChildRequest) (version : Int) (buffer : OutBuf) :
    Work Replied := do
  let parentID :=
    if engine.workflowID = "" then s!"unknown-{child.name}-{s.stepCount}" else engine.workflowID
  match ← checkChildQuota engine with
  | some reason => pure (simpleFailedWith buffer (bytesOf reason) 4, s)
  | none => do
      let clockMs ← ask .now
      match ← ask (.startChildWorkflowAtomic parentID child.name child.input version
          child.parentClosePolicy (childEvent engine s.stepCount child "" clockMs)
          child.priority) with
      | .error reason =>
        let message :=
          s!"child workflow {engine.quoteString child.name}: start failed: {reason}"
        pure (simpleFailedWith buffer (bytesOf message) 3, s)
      | .ok runID =>
        let record := childEvent engine s.stepCount child runID clockMs
        pure (simpleValue buffer (bytesOf runID), { appendEvent s record with
          lastChecksum := engine.computeEventChecksum record s.lastChecksum })

/-- Start a child that is not in the history. A close policy that is not known is refused before
anything else. -/
def beginChildWorkflow (child : ChildRequest) (buffer : OutBuf) : Work Replied := do
  if !validParentClosePolicy child.parentClosePolicy then
    let message := s!"child workflow {engine.quoteString child.name}: " ++
      engine.parentClosePolicyError child.parentClosePolicy
    pure (simpleFailedWith buffer (bytesOf message) 4, s)
  else if ← stopBeforeNewWork engine s then pure (suspendReply, s)
  else do
    let version ← resolveChildVersion engine child.name child.version
    if engine.childWfStore then startChildInStore engine s child version buffer
    else do
      let runID := s!"child-{child.name}-{s.stepCount}"
      let (_, s) ← recordEvent engine s (childEvent engine s.stepCount child runID 0)
      pure (simpleValue buffer (bytesOf runID), s)

/-- The report of a start that finds another event at its step. -/
def childDivergence (child : ChildRequest) (record : EventRecord) : Bytes :=
  bytesOf (s!"replay divergence at step {record.step}: expected child_workflow, got " ++
    s!"{record.eventType.name}.\n  child name: {child.name}" ++ vetHint)

/-- The host call that starts a child. A record of another kind is not consumed. -/
def childWorkflow (child : ChildRequest) (buffer : OutBuf) : Work Replied :=
  if s.isReplay then
    match s.current with
    | none => beginChildWorkflow engine (exitReplay s) child buffer
    | some record =>
      if record.eventType = .childWorkflow then
        pure (simpleValue buffer (bytesOf record.runID), advanceReplayStep engine s record)
      else pure (simpleFailed buffer (childDivergence child record), s)
  else beginChildWorkflow engine s child buffer

/-- What became of a child. -/
structure ChildOutcome where
  completed : Bool := false
  failed : Bool := false
  result : String := ""
  error : String := ""
deriving DecidableEq, Repr

def nonEmptyChildError (message : String) : String :=
  if message = "" then "child failed with no error message recorded" else message

/-- The outcome that a child's row stands for. A child without a row, or with one that has not
settled, has none. -/
def childOutcome : Option ChildRow → ChildOutcome
  | none => {}
  | some row =>
    let message := row.errMsg.getD ""
    match row.status with
    | .done =>
      let result := row.result.getD "\x7b\x7d"
      { completed := true, result := (engine.compactJSON result).getD result }
    | .failed | .deadLettered =>
      { completed := true, failed := true, error := nonEmptyChildError message }
    | .terminated => { completed := true, failed := true, error := "[TERMINATED] " ++ message }
    | .cancelled => { completed := true, failed := true, error := "[CANCELLED] " ++ message }
    | .ready | .running | .terminating => {}

/-- Ask the store for a child's outcome. -/
def getChildResult (runID : String) : Work (Except String ChildOutcome) := do
  match ← ask (.getChildResult runID) with
  | .error reason => pure (.error reason)
  | .ok row => pure (.ok (childOutcome engine row))

/-- The word that tells a guest to stop because the child it waits for is not done. -/
def packAwaitChildResultSuspend : UInt64 := (1 : UInt64) <<< 62

/-- Suspend a wait for children. -/
def suspendForChild (s : ExecSession) (reason : String) : Replied :=
  (⟨packAwaitChildResultSuspend, []⟩, { s with suspendErr := some { reason := reason } })

/-- The event of a wait for one child. -/
def awaitChildEvent (step : Nat) (runID response err : String) : EventRecord where
  step := step
  eventType := .awaitChild
  runID := runID
  response := response
  err := err

/-- Look for a child's outcome, and record it or that there is none. An error of the store is
recorded as the child's. -/
def freshAwaitChild (runID : String) (buffer : OutBuf) : Work Replied := do
  let suspend : Work Replied := do
    let (_, s) ← recordEvent engine s (awaitChildEvent s.stepCount runID "" "")
    pure (suspendForChild s s!"await_child({runID})")
  let failed (message : String) : Work Replied := do
    let (_, s) ← recordEvent engine s (awaitChildEvent s.stepCount runID "" message)
    pure (simpleFailed buffer (bytesOf message), s)
  if engine.childWfStore then do
    match ← getChildResult engine runID with
    | .error reason => failed reason
    | .ok outcome =>
      if outcome.failed then failed outcome.error
      else if outcome.completed then do
        let (_, s) ← recordEvent engine s (awaitChildEvent s.stepCount runID outcome.result "")
        pure (simpleValue buffer (bytesOf outcome.result), s)
      else suspend
  else suspend

/-- The report of a wait that finds another event at its step. -/
def awaitChildDivergence (runID : String) (record : EventRecord) : Bytes :=
  bytesOf (s!"replay divergence at step {record.step}: expected await_child, got " ++
    s!"{record.eventType.name}.\n  run ID: {runID}" ++ vetHint)

/-- The host call that waits for a child. A wait without an outcome is asked again at its own
step, outside replay. -/
def awaitChild (runID : String) (buffer : OutBuf) : Work Replied :=
  if s.isReplay then
    match s.current with
    | none => freshAwaitChild engine (exitReplay s) runID buffer
    | some record =>
      if record.eventType = .awaitChild then
        if record.response ≠ "" ∨ record.err ≠ "" then
          let s := advanceReplayStep engine s record
          if record.err ≠ "" then pure (simpleFailed buffer (bytesOf record.err), s)
          else pure (simpleValue buffer (bytesOf record.response), s)
        else freshAwaitChild engine (exitReplay s) runID buffer
      else pure (simpleFailed buffer (awaitChildDivergence runID record), s)
  else freshAwaitChild engine s runID buffer

/-- An optional field of a JSON object, left out when it is empty. -/
def omitEmptyField (name value : String) : String :=
  if value = "" then "" else s!",\"{name}\":{engine.marshalString value}"

/-- A child's outcome as it is encoded for the guest. -/
def marshalOutcome (runID result error : String) : String :=
  "\x7b\"run_id\":" ++ engine.marshalString runID ++ omitEmptyField engine "result" result ++
    omitEmptyField engine "error" error ++ "\x7d"

/-- Two recorded requests name the same children, in any order. -/
def sameRunIDSet (one other : String) : Bool :=
  match engine.unmarshalStrings one, engine.unmarshalStrings other with
  | some ids, some otherIDs => ids.mergeSort (· ≤ ·) = otherIDs.mergeSort (· ≤ ·)
  | _, _ => one = other

/-- The event of a wait for any of several children. -/
def awaitAnyEvent (step : Nat) (runIDsJSON response : String) : EventRecord where
  step := step
  eventType := .awaitAnyChild
  request := runIDsJSON
  response := response

/-- Ask for the children in turn and return the encoded outcome of the first that has one. An
error of the store counts as an outcome. -/
def firstSettled : List String → Work (Option String)
  | [] => pure none
  | runID :: rest => do
      match ← getChildResult engine runID with
      | .error reason => pure (some (marshalOutcome engine runID "" reason))
      | .ok outcome =>
        if outcome.completed then
          pure (some (if outcome.failed then marshalOutcome engine runID "" outcome.error
            else marshalOutcome engine runID outcome.result ""))
        else firstSettled rest

/-- The first of the children in order that has an outcome. Without a store none has. -/
def anyOutcome (runIDs : List String) : Work (Option String) :=
  if engine.childWfStore then firstSettled engine (runIDs.mergeSort (· ≤ ·)) else pure none

/-- Look for a child that has settled. A call that has recorded its wait does not record it
again. -/
def freshAwaitAnyChild (runIDsJSON : String) (buffer : OutBuf) (resumedFromSuspend : Bool) :
    Work Replied :=
  match engine.unmarshalStrings runIDsJSON with
  | none =>
    let message := "\x7b\"error\":\"invalid runIDs: " ++ engine.unmarshalStringsError runIDsJSON ++
      "\"\x7d"
    pure (simpleFailed buffer (bytesOf message), s)
  | some runIDs => do
      let reason := s!"await_any_child({runIDsJSON})"
      match ← anyOutcome engine runIDs with
      | some outcome => do
          let (_, s) ← recordEvent engine s (awaitAnyEvent s.stepCount runIDsJSON outcome)
          pure (simpleValue buffer (bytesOf outcome), s)
      | none =>
        if resumedFromSuspend then pure (suspendForChild s reason)
        else do
          let (_, s) ← recordEvent engine s (awaitAnyEvent s.stepCount runIDsJSON "")
          pure (suspendForChild s reason)

/-- Consume the records of a wait that follow its first one, up to one with a response. -/
def replayAnyAnswer (request : String) :
    History → ExecSession → Option String × ExecSession
  | [], s => (none, s)
  | record :: rest, s =>
    if record.eventType ≠ .awaitAnyChild || !sameRunIDSet engine record.request request then
      (none, s)
    else
      let s := advanceReplayStep engine s record
      if record.response ≠ "" then (some record.response, s)
      else replayAnyAnswer request rest s

/-- The host call that waits for any of several children. A session that is about to suspend
starts no other wait. -/
def awaitAnyChild (runIDsJSON : String) (buffer : OutBuf) : Work Replied :=
  if s.suspendErr.isSome && !s.inDeferDrain then pure (⟨packAwaitChildResultSuspend, []⟩, s)
  else if s.isReplay then
    match s.current with
    | none => freshAwaitAnyChild engine (exitReplay s) runIDsJSON buffer false
    | some record =>
      if record.eventType = .awaitAnyChild then
        let s := advanceReplayStep engine s record
        if record.response ≠ "" then pure (simpleValue buffer (bytesOf record.response), s)
        else
          let (answer, s) := replayAnyAnswer engine record.request s.remaining s
          match answer with
          | some response => pure (simpleValue buffer (bytesOf response), s)
          | none => freshAwaitAnyChild engine (exitReplay s) runIDsJSON buffer true
      else
        let message := s!"replay divergence at step {record.step}: expected await_any_child, " ++
          s!"got {record.eventType.name}"
        pure (simpleFailed buffer (bytesOf message), s)
  else freshAwaitAnyChild engine s runIDsJSON buffer false

/-- The event of a wait for all of several children. -/
def awaitAllEvent (step : Nat) (runIDsJSON response : String) : EventRecord where
  step := step
  eventType := .awaitAllChildren
  request := runIDsJSON
  response := response

/-- Ask for all children: the encoded outcome of each, or its name while it has none. The
questions are put one after the other; each is answered by itself. -/
def allOutcomes : List String → Work (List (Except String String))
  | [] => pure []
  | runID :: rest => do
      let outcome ← if engine.childWfStore then do
          match ← getChildResult engine runID with
          | .error reason => pure (.ok (marshalOutcome engine runID "" reason))
          | .ok outcome =>
            if outcome.failed then pure (.ok (marshalOutcome engine runID "" outcome.error))
            else if outcome.completed then
              pure (.ok (marshalOutcome engine runID outcome.result ""))
            else pure (.error runID)
        else pure (.error runID)
      let outcomes ← allOutcomes rest
      pure (outcome :: outcomes)

/-- The first child that is not done. -/
def firstPending : List (Except String String) → Option String
  | [] => none
  | .error runID :: _ => some runID
  | .ok _ :: rest => firstPending rest

/-- The outcomes of all children as they are encoded for the guest. -/
def marshalOutcomes (outcomes : List (Except String String)) : String :=
  "[" ++ ",".intercalate (outcomes.filterMap Except.toOption) ++ "]"

/-- Look for the outcomes of all children, and record them or that one is missing. -/
def freshAwaitAllChildren (runIDsJSON : String) (buffer : OutBuf) : Work Replied :=
  match engine.unmarshalStrings runIDsJSON with
  | none =>
    let message := "[\x7b\"error\":\"invalid runIDs: " ++
      engine.unmarshalStringsError runIDsJSON ++ "\"\x7d]"
    pure (simpleFailed buffer (bytesOf message), s)
  | some runIDs => do
      let outcomes ← allOutcomes engine runIDs
      match firstPending outcomes with
      | some runID => do
          let (_, s) ← recordEvent engine s (awaitAllEvent s.stepCount runIDsJSON "")
          pure (suspendForChild s s!"await_all_children({runID})")
      | none => do
          let response := marshalOutcomes outcomes
          let (_, s) ← recordEvent engine s (awaitAllEvent s.stepCount runIDsJSON response)
          pure (simpleValue buffer (bytesOf response), s)

/-- The report of a wait for all children that does not match the record at its step. -/
def awaitAllDivergence (detail runIDsJSON : String) (record : EventRecord) : Bytes :=
  bytesOf s!"replay divergence at step {record.step}: {detail}.\n  actual run IDs: " ++
    truncateWithHash engine runIDsJSON ++ bytesOf "\n  expected run IDs: " ++
    truncateWithHash engine record.request ++ bytesOf vetHint

/-- Replay a wait for all children. One without a response is asked again at its own step. -/
def replayAwaitAllChildren (runIDsJSON : String) (buffer : OutBuf) : Work Replied :=
  match s.current with
  | none => freshAwaitAllChildren engine (exitReplay s) runIDsJSON buffer
  | some record =>
    if record.eventType = .awaitAllChildren ∧ record.response = "" then
      freshAwaitAllChildren engine (exitReplay s) runIDsJSON buffer
    else
      let s := advanceReplayStep engine s record
      if record.eventType ≠ .awaitAllChildren then
        pure (simpleFailed buffer (awaitAllDivergence engine
          s!"expected await_all_children, got {record.eventType.name}" runIDsJSON record), s)
      else if runIDsJSON ≠ record.request then
        pure (simpleFailed buffer (awaitAllDivergence engine
          "await_all_children run IDs mismatch" runIDsJSON record), s)
      else pure (simpleValue buffer (bytesOf record.response), s)

/-- The host call that waits for all of several children. -/
def awaitAllChildren (runIDsJSON : String) (buffer : OutBuf) : Work Replied :=
  if s.isReplay then replayAwaitAllChildren engine s runIDsJSON buffer
  else freshAwaitAllChildren engine s runIDsJSON buffer

/-- A poll's answer as it is encoded for the guest. -/
def marshalPoll (status result error : String) : String :=
  "\x7b\"status\":" ++ engine.marshalString status ++ omitEmptyField engine "result" result ++
    omitEmptyField engine "error" error ++ "\x7d"

def noCompletionTimestamp : String :=
  "child is complete but has no completion timestamp, so poll_child cannot answer " ++
    "deterministically; if this child was terminated by a parent close policy before the #864 " ++
    "fix, its completed_at is permanently NULL -- see #867"

/-- The host call that looks at a child without waiting: a child that settled after the
session's time is still running. -/
def pollChild (runID : String) (buffer : OutBuf) : Work Replied := do
  let answer (status result error : String) : Work Replied :=
    pure (simpleValue buffer (bytesOf (marshalPoll engine status result error)), s)
  let failed (reason : String) : Work Replied :=
    pure (simpleFailed buffer (bytesOf ("poll_child: " ++ reason)), s)
  if !engine.childWfStore then answer "failed" "" "no child workflow store"
  else do
    match ← getChildResult engine runID with
    | .error reason => failed reason
    | .ok outcome =>
      if !outcome.completed && !outcome.failed then answer "running" "" ""
      else do
        match ← ask (.getChildCompletedAtMs runID) with
        | .error reason => failed reason
        | .ok none => answer "failed" "" noCompletionTimestamp
        | .ok (some completedAtMs) =>
          if completedAtMs > s.nowMs then answer "running" "" ""
          else if outcome.failed then answer "failed" "" outcome.error
          else answer "completed" outcome.result ""

end Cleat
