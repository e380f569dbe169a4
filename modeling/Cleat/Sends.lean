import Cleat.DurableCalls

/-!
# Requests that nobody waits for

`durableSend` records an event and sends a request in the background, and
`durableScheduleInvoke` does so after a delay. Neither looks at the outcome. Replayed, they
consume their record and send nothing.

The goroutine that sends the request is run to its end before the call returns. What it does
is not seen by the session, which goes on in either case.
-/
namespace Cleat

variable (engine : Engine) (s : ExecSession)

/-- The reply to a call that finds a record of another kind at its step. -/
def simpleDivergence : Reply := ⟨packSimpleResult 1 0, []⟩

/-- The reply to a call that has nothing to report. -/
def accepted : Reply := ⟨0, []⟩

/-- The event of a request that nobody waits for. -/
def sendEvent (eventType : EventType) (step : Nat) (service operation request : String)
    (delayMs : Int) : EventRecord where
  step := step
  eventType := eventType
  service := service
  op := operation
  request := request
  durationMs := delayMs

/-- Replay such a request, or record it and let the background work begin. -/
def sendInBackground (eventType : EventType) (service operation request : String) (delayMs : Int)
    (background : Work Unit) : Work Replied := do
  let fresh (s : ExecSession) : Work Replied := do
    if ← stopBeforeNewWork engine s then pure (suspendReply, s)
    else do
      let (_, s) ← recordEvent engine s
        (sendEvent eventType s.stepCount service operation request delayMs)
      background
      pure (accepted, s)
  if s.isReplay then
    match s.current with
    | some record =>
      if record.eventType ≠ eventType then pure (simpleDivergence, s)
      else pure (accepted, advanceReplayStep engine s record)
    | none => fresh (exitReplay s)
  else fresh s

/-- The host call that sends a request at once. A worker that shuts down does not send it. -/
def durableSend (service operation request : String) : Work Replied :=
  sendInBackground engine s .durableSend service operation request 0 do
    if ← ask .shutdownObserved then pure ()
    else do
      let _ ← callService engine service operation request s.stepCount
      pure ()

/-- The host call that sends a request after a delay. -/
def durableScheduleInvoke (service operation request : String) (delayMs : Int) :
    Work Replied :=
  sendInBackground engine s .durableScheduleInvoke service operation request delayMs do
    match ← ask (.backoff delayMs) with
    | .elapsed => do
        let _ ← callService engine service operation request s.stepCount
        pure ()
    | .contextDone _ => pure ()
    | .shutdownRequested => pure ()

end Cleat
