import Cleat.Session

/-!
# Virtual-object scopes

A workflow enters the scope of an object instance by acquiring its key from the
concurrency-key store, and holds it until it switches to another scope or clears its
scope. An acquisition is recorded as `scope_acquired`, also when it fails: then the
record carries the reason, the session is suspended and the guest is not told, since
the reply is that of a success or an error code that no guest reads.

Replaying a successful acquisition restores the scope without asking the store.
Replaying a failed one leaves replay and acquires again. Clearing a scope leaves no
record.
-/
namespace Cleat

variable (engine : Engine) (s : ExecSession) (objectType instanceKey : String)

/-- The key of an object instance. -/
def scopeKeyOf (objectType instanceKey : String) : String :=
  "vo:" ++ objectType ++ ":" ++ instanceKey

/-- Whether the session is in a scope. -/
def ExecSession.inScope (s : ExecSession) : Bool := s.scopeSet && s.scopePrefix != ""

/-- The key of the session's scope. -/
def ExecSession.scopeKey (s : ExecSession) : String := scopeKeyOf s.scopeObjType s.scopeInstKey

/-- Drop a key from the held set without releasing it. -/
def forgetHeldScope (s : ExecSession) (scopeKey : String) : ExecSession :=
  { s with heldScopes := s.heldScopes.erase scopeKey }

/-- The session without a scope. -/
def leaveScope (s : ExecSession) : ExecSession :=
  { s with scopeSet := false, scopePrefix := "", scopeObjType := "", scopeInstKey := "" }

/-- The session in the scope of an object instance. -/
def enterScope (s : ExecSession) (objectType instanceKey : String) : ExecSession :=
  { s with
    scopeSet := true
    scopeObjType := objectType
    scopeInstKey := instanceKey
    scopePrefix := scopeKeyOf objectType instanceKey ++ ":" }

/-- What forgetting the current scope's key leaves of the session. -/
def forgetCurrentScope (s : ExecSession) : ExecSession :=
  if s.inScope then forgetHeldScope s s.scopeKey else s

/-- Release and forget the current scope's key. A failed release is only logged. -/
def releaseCurrentScope : Work ExecSession :=
  if s.inScope then
    if engine.concurrencyKeyStore then do
      let _ ← ask (.releaseConcurrencyKey s.scopeKey)
      pure (forgetHeldScope s s.scopeKey)
    else pure (forgetHeldScope s s.scopeKey)
  else pure s

def clearScope : Work ExecSession := do
  let s ← releaseCurrentScope engine s
  pure (leaveScope s)

/-- The previous scope, as it is written for the guest. -/
def previousScope (s : ExecSession) (buffer : OutBuf) : Bytes × UInt8 :=
  if s.inScope then writeOut buffer (bytesOf s.scopePrefix) else ([], 0)

/-- The reply that hands the guest its previous scope. -/
def scopeReply (s : ExecSession) (buffer : OutBuf) : Reply :=
  let (written, errCode) := previousScope s buffer
  ⟨packSimpleResult errCode written.length, [written]⟩

/-- The reply of an acquisition the store could not answer. What was written of the
previous scope stays in the guest's buffer. -/
def scopeFailedReply (s : ExecSession) (buffer : OutBuf) : Reply :=
  ⟨packSimpleResult 1 0, [(previousScope s buffer).1]⟩

/-- Suspend the session for five seconds. -/
def suspendScope (s : ExecSession) (reason : String) : ExecSession :=
  { s with suspendErr := some { reason := reason, until_ := some (unixMilli s.nowMs + 5000000000) } }

/-- The event of an acquisition. -/
def scopeEvent (step : Nat) (scopeKey err : String) : EventRecord where
  step := step
  eventType := .scopeAcquired
  scopeKey := scopeKey
  err := err

def scopeHeldError : String := "scope held by another workflow"

/-- Record that a scope was acquired and enter it. -/
def recordScope (reply : Reply) : Work Replied := do
  let (_, s) ← recordEvent engine s (scopeEvent s.stepCount (scopeKeyOf objectType instanceKey) "")
  pure (reply, enterScope s objectType instanceKey)

/-- Acquire a scope for a session that has none. The replies were prepared from the scope
the guest was in before. -/
def acquireScope (reply failed : Reply) : Work Replied :=
  let scopeKey := scopeKeyOf objectType instanceKey
  if engine.concurrencyKeyStore then do
    match ← ask (.acquireConcurrencyKey scopeKey) with
    | .error reason => do
        let (_, s) ← recordEvent engine s (scopeEvent s.stepCount scopeKey reason)
        pure (failed,
          suspendScope s s!"virtual object scope {scopeKey} could not be acquired: {reason}")
    | .ok false => do
        let (_, s) ← recordEvent engine s (scopeEvent s.stepCount scopeKey scopeHeldError)
        pure (reply, suspendScope s s!"virtual object scope {scopeKey} held by another workflow")
    | .ok true =>
      recordScope engine { s with heldScopes := s.heldScopes ++ [scopeKey] } objectType
        instanceKey reply
  else recordScope engine s objectType instanceKey reply

/-- Set or clear the scope outside the history. -/
def freshSetScope (buffer : OutBuf) : Work Replied :=
  if objectType = "" && instanceKey = "" then do
    let cleared ← clearScope engine s
    pure (scopeReply s buffer, cleared)
  else do
    let released ← releaseCurrentScope engine s
    acquireScope engine released objectType instanceKey (scopeReply s buffer)
      (scopeFailedReply s buffer)

/-- Replay setting or clearing the scope. -/
def replaySetScope (buffer : OutBuf) : Work Replied :=
  if objectType = "" && instanceKey = "" then
    pure (scopeReply s buffer, leaveScope (forgetCurrentScope s))
  else match s.current with
    | none => freshSetScope engine (exitReplay s) objectType instanceKey buffer
    | some record =>
      let advanced := advanceReplayStep engine s record
      if record.eventType ≠ .scopeAcquired then
        pure (scopeFailedReply s buffer, advanced)
      else if record.err ≠ "" then
        freshSetScope engine (exitReplay advanced) objectType instanceKey buffer
      else
        let entered := enterScope (forgetCurrentScope advanced) objectType instanceKey
        pure (scopeReply s buffer,
          { entered with heldScopes := entered.heldScopes ++ [scopeKeyOf objectType instanceKey] })

/-- The host call that sets the scope, or clears it when both names are empty. -/
def setScope (buffer : OutBuf) : Work Replied :=
  if s.isReplay then replaySetScope engine s objectType instanceKey buffer
  else freshSetScope engine s objectType instanceKey buffer

end Cleat
