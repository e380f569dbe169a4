import Cleat.DurableCalls

/-!
# Calls with a retry policy and calls with heartbeats

`durableCallWithRetry` runs a retry policy on the host. Each failed attempt that is to
be followed by another is recorded as `call_attempt_failed`, and the end of the policy
as a `call` event; all attempts carry the idempotency key of the policy's first step.
A policy too long for one segment is refused without a record. Replayed, the policy
consumes its attempts and then its outcome, and resumes if the history ends between
them. A replay that finds neither goes to the single-attempt path of an ordinary call.

`durableCallWithHeartbeat` records a heartbeat at every tick while the call runs.

The two floating-point computations on intervals are the engine's parameters.
-/
namespace Cleat

variable (engine : Engine) (s : ExecSession) (service operation request : String)

/-- A retry policy as the guest passes it. -/
structure RetryPolicy where
  maxAttempts : Int
  initialIntervalMs : Int
  backoffCoefficient100x : Int
  maxIntervalMs : Int
  nonRetryableErrorsJSON : String
deriving DecidableEq, Repr

def maxRetryAttempts : Int := 100

/-- The worker's ceiling on the attempts of one policy. -/
def Engine.retryCeiling : Int :=
  if 0 < engine.maxRetries && engine.maxRetries < maxRetryAttempts then engine.maxRetries
  else maxRetryAttempts

/-- The attempts a policy gets. -/
def Engine.allowedAttempts (maxAttempts : Int) : Int :=
  if maxAttempts > engine.retryCeiling then engine.retryCeiling else maxAttempts

/-- A limit lowered by a tenant. A limit that is not positive is none. -/
def clampToCeiling (tenant ceiling : Int) : Int :=
  if tenant ≤ 0 then ceiling
  else if ceiling ≤ 0 then tenant
  else if tenant < ceiling then tenant
  else ceiling

def defaultHostRetryBudget : Int := 60 * 1000000000

/-- The longest a policy may wait in one segment. -/
def Engine.hostRetryBudget : Int :=
  let operator :=
    if engine.hostRetryBudgetCeiling ≤ 0 then defaultHostRetryBudget
    else engine.hostRetryBudgetCeiling
  clampToCeiling engine.runHostRetryBudget (clampToCeiling engine.tenantHostRetryBudget operator)

/-- Add up the waits that are left of a policy while they stay within the budget. -/
def backoffsFit (policy : RetryPolicy) (budget : Int) : Nat → Int → Int → Bool
  | 0, _, _ => true
  | left + 1, interval, total =>
    let maxInterval := durationOfMs policy.maxIntervalMs
    let interval := if 0 < maxInterval && maxInterval < interval then maxInterval else interval
    let total := int64 (total + interval)
    if total > budget then false
    else
      backoffsFit policy budget left
        (if policy.backoffCoefficient100x > 100 then
          engine.scaleInterval interval policy.backoffCoefficient100x
        else interval) total

/-- Whether the worst case of a policy fits into the budget. -/
def retryPolicyFitsBudget (policy : RetryPolicy) (budget : Int) : Bool :=
  if budget ≤ 0 then true
  else backoffsFit engine policy budget (policy.maxAttempts - 1).toNat
    (durationOfMs policy.initialIntervalMs) 0

/-- A failure that is not worth another attempt: it says so itself, or its service code
is one of those the policy names. -/
def isDefinitelyNonRetryable (failure : CallFailure) (nonRetryableCodes : List String) : Bool :=
  failure.retryable == some false ||
    (failure.serviceCode != "" && nonRetryableCodes.contains failure.serviceCode)

/-- The reply to a parameter that cannot be decoded. -/
def badParamDurableCall : Reply := ⟨packDurableCallResult 0 callErrorInvalidRequest 1, []⟩

/-- The codes a policy does not retry: none if it names none, undefined if its list cannot
be decoded. -/
def nonRetryableCodes (policy : RetryPolicy) : Option (List String) :=
  if policy.nonRetryableErrorsJSON = "" then some []
  else engine.unmarshalStrings policy.nonRetryableErrorsJSON

/-- The wait after a failed attempt, at least one millisecond. -/
def backoffMs (policy : RetryPolicy) (attempt : Int) : Int :=
  let grown := int64 (policy.initialIntervalMs *
    engine.powTrunc policy.backoffCoefficient100x (attempt - 1))
  let capped :=
    if 0 < policy.maxIntervalMs && policy.maxIntervalMs < grown then policy.maxIntervalMs
    else grown
  if capped < 1 then 1 else capped

/-- The event of an attempt that another one follows. -/
def attemptEvent (step : Nat) (service operation : String) (attempt : Int) (err : String) :
    EventRecord where
  step := step
  eventType := .callAttemptFailed
  service := service
  op := operation
  attempt := attempt
  err := err

/-- The text a policy ends with. -/
def retryErrMsg (failure : CallFailure) (exhausted : Bool) : String :=
  if exhausted then "retries exhausted: " ++ failure.message else failure.message

/-- Record the failure a policy ends with. -/
def finishRetry (failure : CallFailure) (exhausted : Bool) (buffer : OutBuf) :
    Work Replied := do
  let errMsg := retryErrMsg failure exhausted
  let (_, s) ← recordEvent engine s
    { callEvent s.stepCount service operation request "" errMsg with
      errNonRetryable := !exhausted, errCode := failure.errorClass,
      retriesExhausted := exhausted }
  pure (callFailed buffer (bytesOf errMsg) (recordedFailureCode (!exhausted)), s)

/-- Make the attempts that are left of a policy. A policy that has none left from the start
makes the host fail. -/
def retryAttempts (policy : RetryPolicy) (codes : List String) (service operation request : String)
    (retryStep : Nat) (buffer : OutBuf) :
    Nat → Int → ExecSession → Work Replied
  | 0, _, _ => do
      let never ← ask .hostPanic
      nomatch never
  | left + 1, attempt, s => do
      match ← callService engine service operation request retryStep with
      | .ok response => do
          let (_, s) ← recordEvent engine s
            (callEvent s.stepCount service operation request response "")
          pure (callSucceeded buffer (bytesOf response), s)
      | .error failure =>
        if isDefinitelyNonRetryable failure codes then
          finishRetry engine s service operation request failure false buffer
        else if left = 0 then
          finishRetry engine s service operation request failure true buffer
        else do
          let (_, s) ← recordEvent engine s
            (attemptEvent s.stepCount service operation attempt failure.message)
          match ← ask (.backoff (backoffMs engine policy attempt)) with
          | .contextDone reason => pure (callFailed buffer (bytesOf reason) callErrorUnknown, s)
          | .shutdownRequested => pure (suspendReply, s)
          | .elapsed =>
            retryAttempts policy codes service operation request retryStep buffer left (attempt + 1) s

/-- Run a policy, of which some attempts may have been spent by an earlier execution that
began at `resumeStep`. -/
def freshCallWithRetry (policy : RetryPolicy) (buffer : OutBuf) (attemptsSpent : Nat)
    (resumeStep : Option Nat) : Work Replied :=
  match nonRetryableCodes engine policy with
  | none => pure (badParamDurableCall, s)
  | some codes =>
    retryAttempts engine policy codes service operation request (resumeStep.getD s.stepCount)
      buffer (engine.allowedAttempts policy.maxAttempts - attemptsSpent).toNat
      (attemptsSpent + 1) s

/-- What a replay found of a policy: the session past the attempts, their number, the step
of the first, and whether the history ends with them. -/
structure ReplayedAttempts where
  session : ExecSession
  spent : Nat
  firstStep : Option Nat
  resume : Bool

/-- Consume the recorded attempts at the head of the remaining history. -/
def replayRetryAttempts (service operation : String) :
    History → ReplayedAttempts → ReplayedAttempts
  | [], found => { found with resume := 0 < found.spent }
  | record :: rest, found =>
    if record.eventType ≠ .callAttemptFailed then { found with resume := false }
    else if record.service ≠ service ∨ record.op ≠ operation then { found with resume := false }
    else
      replayRetryAttempts service operation rest
        { session := advanceReplayStep engine found.session record
          spent := found.spent + 1
          firstStep := some (found.firstStep.getD record.step)
          resume := false }

/-- The refusal of a policy that does not fit into one segment. -/
def retryPolicyRejected (buffer : OutBuf) : Reply :=
  let message := "retry policy rejected: worst-case backoff exceeds the " ++
    s!"{engine.durationString engine.hostRetryBudget} host-retry budget; run the policy in the " ++
    "guest, suspending between attempts"
  callFailed buffer (bytesOf message) callErrorRetryPolicyTooLong

/-- The host call with a retry policy. -/
def durableCallWithRetry (policy : RetryPolicy) (buffer : OutBuf) : Work Replied :=
  if s.isReplay then
    let found := replayRetryAttempts engine service operation s.remaining
      ⟨s, 0, none, false⟩
    if !found.resume then replayCall engine found.session service operation request buffer
    else do
      let s := exitReplay found.session
      if ← stopBeforeNewWork engine s then pure (suspendReply, s)
      else
        freshCallWithRetry engine s service operation request policy buffer found.spent
          found.firstStep
  else do
    if ← stopBeforeNewWork engine s then pure (suspendReply, s)
    else if !retryPolicyFitsBudget engine policy engine.hostRetryBudget then
      pure (retryPolicyRejected engine buffer, s)
    else freshCallWithRetry engine s service operation request policy buffer 0 none

/-- The event of one heartbeat. -/
def heartbeatEvent (step : Nat) (service operation : String) : EventRecord where
  step := step
  eventType := .heartbeat
  service := service
  op := operation

/-- Record the heartbeats of a running call, polling for a cancellation at each. -/
def beatHeart (service operation : String) : Nat → Bool → ExecSession → Work (Bool × ExecSession)
  | 0, cancelled, s => pure (cancelled, s)
  | ticks + 1, cancelled, s => do
      let (_, s) ← recordEvent engine s (heartbeatEvent s.stepCount service operation)
      let polled ← pollCancelled engine
      beatHeart service operation ticks (cancelled || polled) s

/-- The class of a failure as it is recorded. -/
def outcomeClass : ServiceAnswer → String
  | .ok _ => ""
  | .error failure => failure.errorClass

/-- Record the result of a call with heartbeats. A failure of a call that was cancelled by
the workflow is recorded as a cancellation. -/
def finishHeartbeat (outcome : ServiceAnswer) (cancelled : Bool) (buffer : OutBuf) :
    Work Replied := do
  let stopped := cancelled && !outcome.isOk
  let callErr := if stopped then cancelledCallError else outcomeErr outcome
  let (_, s) ← recordEvent engine s
    { callEvent s.stepCount service operation request (outcomeResponse outcome) callErr with
      errNonRetryable := stopped,
      errCode := if stopped then "cancelled" else outcomeClass outcome }
  match outcome with
  | .ok response => pure (callSucceeded buffer (bytesOf response), s)
  | .error _ => pure (callFailed buffer (bytesOf callErr) (recordedFailureCode stopped), s)

/-- A call with heartbeats that is not in the history. A ticker of no positive interval
makes the host fail after the call has started. -/
def freshCallWithHeartbeat (heartbeatIntervalMs : Int) (buffer : OutBuf) :
    Work Replied := do
  let outcome ← callService engine service operation request s.stepCount
  if durationOfMs heartbeatIntervalMs ≤ 0 then do
    let never ← ask .hostPanic
    nomatch never
  else do
    let ticks ← ask .heartbeatTicks
    let (cancelled, s) ← beatHeart engine service operation ticks false s
    finishHeartbeat engine s service operation request outcome cancelled buffer

/-- Consume the heartbeats at the head of the remaining history. -/
def replayHeartbeats : History → ExecSession → ExecSession
  | [], s => s
  | record :: rest, s =>
    if record.eventType = .heartbeat then
      replayHeartbeats rest (advanceReplayStep engine s record)
    else s

/-- Replay a call with heartbeats. Past the end of the history it is executed fresh. -/
def replayCallWithHeartbeat (heartbeatIntervalMs : Int) (buffer : OutBuf) :
    Work Replied :=
  let s := replayHeartbeats engine s.remaining s
  match s.current with
  | none =>
    freshCallWithHeartbeat engine (exitReplay s) service operation request heartbeatIntervalMs
      buffer
  | some record =>
    let s := advanceReplayStep engine s record
    if record.eventType ≠ .call then
      pure (callFailed buffer (divergenceMessage engine
        s!"expected call event, got {record.eventType.name}" request record) callErrorUnknown, s)
    else if record.service ≠ service ∨ record.op ≠ operation then
      pure (callFailed buffer (divergenceMessage engine
        s!"workflow called {service}.{operation} but history has {record.service}.{record.op}"
        request record) callErrorUnknown, s)
    else if record.isPendingIntent then
      pure (callFailed buffer (bytesOf (ambiguousCallError record)) callErrorUnknown,
        recordAmbiguity s record)
    else pure (recordedReply buffer record, s)

/-- The host call with heartbeats. -/
def durableCallWithHeartbeat (heartbeatIntervalMs : Int) (buffer : OutBuf) :
    Work Replied := do
  if s.isReplay then
    replayCallWithHeartbeat engine s service operation request heartbeatIntervalMs buffer
  else if ← stopBeforeNewWork engine s then pure (suspendReply, s)
  else
    freshCallWithHeartbeat engine s service operation request heartbeatIntervalMs buffer

end Cleat
