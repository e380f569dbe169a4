import Cleat.DurableCalls

/-!
# Locks and schedules

`acquireLock` takes a key of the concurrency-key store for a time and records whether it got
it; `releaseLock` gives it back. `scheduleCron` registers a recurring trigger under a name that
is derived from the run and the step, so that the call of an earlier execution that was lost is
found again.
-/
namespace Cleat

variable (engine : Engine) (s : ExecSession)

/-- Result words of a lock call: whether it was acquired, and an error code. -/
def packAcquireLockResult (acquired : Bool) (errCode : UInt8) : UInt64 :=
  (if acquired then (1 : UInt64) else 0) <<< 8 ||| errCode.toUInt64

/-- The reply to a lock call. -/
def lockReply (acquired : Bool) (errCode : UInt8) : Reply :=
  ⟨packAcquireLockResult acquired errCode, []⟩

/-- The event of a lock call. -/
def lockEvent (step : Nat) (key : String) (ttlMs : Int) (acquired : Bool) (err : String) :
    EventRecord where
  step := step
  eventType := .acquireLock
  lockKey := key
  lockTTLMs := ttlMs
  lockAcquired := if acquired then 1 else 0
  err := err

/-- Record the outcome of a lock call. -/
def recordLock (key : String) (ttlMs : Int) (acquired : Bool) (err : Option String) :
    Work Replied := do
  let (_, s) ← recordEvent engine s
    (lockEvent s.stepCount key ttlMs acquired (err.getD ""))
  pure (lockReply acquired (if err.isSome then 1 else 0), s)

/-- Why a run may not take another key. -/
def lockQuotaError (count : Int) : String :=
  s!"workflow {engine.workflowID}: concurrency key quota exceeded (current {count}, max " ++
    s!"{engine.maxQuotaConcurrencyKeys})"

/-- The check of the quota of keys, where there is one. -/
def checkLockQuota : Work (Option String) :=
  if 0 < engine.maxQuotaConcurrencyKeys && engine.workflowStore then do
    match ← ask .getConcurrencyKeyCount with
    | .error reason => pure (some reason)
    | .ok count =>
      if engine.maxQuotaConcurrencyKeys ≤ count then pure (some (lockQuotaError engine count))
      else pure none
  else pure none

def freshAcquireLock (key : String) (ttlMs : Int) : Work Replied :=
  if engine.concurrencyKeyStore then do
    match ← checkLockQuota engine with
    | some reason => recordLock engine s key ttlMs false (some reason)
    | none => do
        match ← ask (.acquireLockKey key ttlMs) with
        | .error reason => recordLock engine s key ttlMs false (some reason)
        | .ok acquired => recordLock engine s key ttlMs acquired none
  else recordLock engine s key ttlMs false none

/-- Replay a lock call. Past the end of the history it is executed fresh. -/
def replayAcquireLock (key : String) (ttlMs : Int) : Work Replied :=
  match s.current with
  | none => freshAcquireLock engine (exitReplay s) key ttlMs
  | some record =>
    let s := advanceReplayStep engine s record
    if record.eventType ≠ .acquireLock then pure (lockReply false 1, s)
    else if record.err ≠ "" then pure (lockReply false 1, s)
    else pure (lockReply (record.lockAcquired ≠ 0) 0, s)

/-- The host call. -/
def acquireLock (key : String) (ttlMs : Int) : Work Replied := do
  if s.isReplay then replayAcquireLock engine s key ttlMs
  else if ← stopBeforeNewWork engine s then pure (suspendReply, s)
  else freshAcquireLock engine s key ttlMs

/-- The event of a release. -/
def releaseEvent (step : Nat) (key : String) (notHeld : Bool) (err : String) : EventRecord where
  step := step
  eventType := .releaseLock
  lockKey := key
  lockNotHeld := notHeld
  err := err

/-- Release a key. A key that the run does not hold is a success. -/
def freshReleaseLock (key : String) : Work Replied :=
  if engine.concurrencyKeyStore then do
    match ← ask (.releaseConcurrencyKey key) with
    | .error reason => do
        let (_, s) ← recordEvent engine s (releaseEvent s.stepCount key false reason)
        pure (⟨1, []⟩, s)
    | .ok released => do
        let (_, s) ← recordEvent engine s (releaseEvent s.stepCount key (!released) "")
        pure (⟨0, []⟩, s)
  else do
    let (_, s) ← recordEvent engine s (releaseEvent s.stepCount key false "")
    pure (⟨0, []⟩, s)

/-- The host call that releases a lock. A defer segment may release. -/
def releaseLock (key : String) : Work Replied :=
  if s.isReplay then
    match s.current with
    | none => freshReleaseLock engine (exitReplay s) key
    | some record =>
      let s := advanceReplayStep engine s record
      if record.eventType ≠ .releaseLock ∨ record.err ≠ "" then pure (⟨1, []⟩, s)
      else pure (⟨0, []⟩, s)
  else freshReleaseLock engine s key

/-- A schedule as a guest asks for it. -/
structure CronRequest where
  workflowName : String
  cronExpr : String
  timezone : String
  input : String
deriving DecidableEq, Repr

/-- The name of the schedule that a step creates. -/
def scheduleIDFor (step : Nat) : String :=
  "cron-" ++ engine.scheduleDigest
    (bytesOf engine.tenantID ++ [0] ++ bytesOf engine.workflowID ++ [0] ++ bytesOf (toString step))

def defaultScheduleTimezone : String := "UTC"

/-- Why the arguments of a schedule are refused. -/
def cronArgumentError (cron : CronRequest) : Option String :=
  let tz := if cron.timezone = "" then defaultScheduleTimezone else cron.timezone
  let named := s!"schedule_cron {engine.quoteString cron.workflowName}: "
  if cron.workflowName = "" then some "schedule_cron: workflow name is empty"
  else match engine.validateCronExpr cron.cronExpr with
    | some reason => some (named ++ reason)
    | none => match engine.validateTimezone tz with
      | some reason => some (named ++ reason)
      | none =>
        if engine.locationFallsBack tz then
          some (named ++ s!"timezone {engine.quoteString tz} could not be loaded")
        else if !engine.validJSON (if cron.input = "" then "\x7b\x7d" else cron.input) then
          some (named ++ "input is not valid JSON")
        else if !engine.workflowStore then
          some (s!"no workflow store configured: workflow {engine.workflowID} cannot schedule " ++
            engine.quoteString cron.workflowName)
        else none

/-- Create a schedule, or find the one that an earlier execution of this step has created. -/
def createCronSchedule (cron : CronRequest) : Work (Except String String) :=
  let named := s!"schedule_cron {engine.quoteString cron.workflowName}: "
  match cronArgumentError engine cron with
  | some reason => pure (.error reason)
  | none => do
      let scheduleID := scheduleIDFor engine s.stepCount
      match ← ask .listSchedules with
      | .error reason => pure (.error (named ++ s!"list schedules: {reason}"))
      | .ok existing =>
        if existing.any (·.name = scheduleID) then pure (.ok scheduleID)
        else if 0 < engine.maxQuotaSchedules && engine.maxQuotaSchedules ≤ existing.length then
          pure (.error (named ++ s!"schedule quota exceeded (current {existing.length}, max " ++
            s!"{engine.maxQuotaSchedules})"))
        else do
          match ← ask (.createSchedule scheduleID cron.workflowName cron.cronExpr
            (if cron.input = "" then "\x7b\x7d" else cron.input)
            (if cron.timezone = "" then defaultScheduleTimezone else cron.timezone)) with
          | .error reason => pure (.error (named ++ reason))
          | .ok _ => pure (.ok scheduleID)

/-- The event of a schedule. -/
def cronEvent (step : Nat) (cron : CronRequest) (outcome : Except String String) : EventRecord where
  step := step
  eventType := .scheduleCron
  cronWorkflowName := cron.workflowName
  cronExpr := cron.cronExpr
  cronTimezone := cron.timezone
  cronInput := cron.input
  cronScheduleID := match outcome with
    | .ok scheduleID => scheduleID
    | .error _ => ""
  err := match outcome with
    | .ok _ => ""
    | .error reason => reason

/-- The record's schedule is another one. -/
def cronMismatch (cron : CronRequest) (record : EventRecord) : Bool :=
  record.eventType ≠ .scheduleCron || record.cronWorkflowName ≠ cron.workflowName ||
    record.cronExpr ≠ cron.cronExpr || record.cronTimezone ≠ cron.timezone ||
    record.cronInput ≠ cron.input

/-- The report of a schedule that does not match the record at its step. -/
def cronReplayDivergence (cron : CronRequest) (record : EventRecord) : Bytes :=
  bytesOf (s!"replay divergence at step {record.step}: ScheduleCron mismatch.\n  workflow: " ++
      s!"{cron.workflowName} {engine.quoteString cron.cronExpr} tz=" ++
      s!"{engine.quoteString cron.timezone} input=") ++
    truncateWithHash engine cron.input ++
    bytesOf (s!"\n  history:  {record.cronWorkflowName} {engine.quoteString record.cronExpr} tz=" ++
      s!"{engine.quoteString record.cronTimezone} input=") ++
    truncateWithHash engine record.cronInput ++ bytesOf vetHint

/-- Create a schedule and record the outcome, unless the segment may not start new work. -/
def beginScheduleCron (cron : CronRequest) (buffer : OutBuf) : Work Replied := do
  if ← stopBeforeNewWork engine s then pure (suspendReply, s)
  else do
    let outcome ← createCronSchedule engine s cron
    let (_, s) ← recordEvent engine s (cronEvent s.stepCount cron outcome)
    match outcome with
    | .error reason => pure (simpleFailed buffer (bytesOf reason), s)
    | .ok scheduleID => pure (simpleValue buffer (bytesOf scheduleID), s)

/-- The host call. -/
def scheduleCron (cron : CronRequest) (buffer : OutBuf) : Work Replied :=
  if s.isReplay then
    match s.current with
    | none => beginScheduleCron engine (exitReplay s) cron buffer
    | some record =>
      let s := advanceReplayStep engine s record
      if cronMismatch cron record then
        pure (simpleFailed buffer (cronReplayDivergence engine cron record), s)
      else if record.err ≠ "" then pure (simpleFailed buffer (bytesOf record.err), s)
      else pure (simpleValue buffer (bytesOf record.cronScheduleID), s)
  else beginScheduleCron engine s cron buffer

end Cleat
