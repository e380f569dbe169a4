import Cleat.Session

/-!
# The session's clock and what is read against it

A session's time is that of the last event it recorded or replayed, advanced by its sleeps. A
sleep records nothing: whether it is over is decided by comparing the time it ends at with the
worker's clock.

Two polls record nothing either. A poll for a signal returns the oldest delivery of that name if
it arrived before the session's time, and a poll for a cancellation asks the store outside
replay.
-/
namespace Cleat

/-- The guest's time: the session's, or that of the last event behind its position if that is
later. -/
def nowValue (s : ExecSession) : Int :=
  if 0 < s.stepCount then
    match s.history[s.stepCount - 1]? with
    | some record => if record.timestampMs > s.nowMs then record.timestampMs else s.nowMs
    | none => s.nowMs
  else s.nowMs

/-- The host call that reads the clock. -/
def now (s : ExecSession) : Work Replied :=
  pure (⟨UInt64.ofInt (nowValue s), []⟩, s)

/-- Result words of a sleep: a status, and how long the run is suspended. -/
def packSleepResult (status : UInt8) (durationMs : Int) : UInt64 :=
  status.toUInt64 <<< 56 ||| (UInt64.ofInt durationMs &&& 0x00FFFFFFFFFFFFFF)

def sleepStatusCompleted : UInt8 := 0

def sleepStatusSuspend : UInt8 := 1

/-- The time a sleep is counted from: the guest's, or the worker's where the session has none. -/
def sleepAnchor (s : ExecSession) : Work Int :=
  let anchor := if nowValue s > s.nowMs then nowValue s else s.nowMs
  if anchor ≤ 0 then ask .now else pure anchor

/-- The host call that sleeps. The session's time moves to the end of the sleep, and the run is
suspended if that lies ahead of the worker's clock. -/
def durableSleep (s : ExecSession) (durationMs : Int) : Work Replied := do
  let anchor ← sleepAnchor s
  let s := { s with nowMs := int64 (anchor + durationMs) }
  let realNowMs ← ask .now
  if s.nowMs ≤ realNowMs then pure (⟨packSleepResult sleepStatusCompleted 0, []⟩, s)
  else
    let suspension : SuspendError :=
      ⟨s!"cleat_sleep({durationMs}ms)", some (unixMilli s.nowMs), "", 0⟩
    pure (⟨packSleepResult sleepStatusSuspend durationMs, []⟩, { s with suspendErr := some suspension })

/-- The wait of a guest that sleeps through its language's own library: how long the host is to
block, in nanoseconds. The session is not suspended. -/
def serveWasiSleep (s : ExecSession) (durationMs : Int) : Work (Int × ExecSession) :=
  if durationMs ≤ 0 then pure (0, s)
  else do
    let anchor ← sleepAnchor s
    let s := { s with nowMs := int64 (anchor + durationMs) }
    let realNowMs ← ask .now
    let remainingMs := int64 (s.nowMs - realNowMs)
    pure (if remainingMs ≤ 0 then 0 else durationOfMs remainingMs, s)

/-- A delivery that had arrived at the session's time. A delivery without a time is visible. -/
def signalIsVisibleNow (s : ExecSession) (delivery : SignalDelivery) : Bool :=
  delivery.deliveredAtMs = 0 || delivery.deliveredAtMs ≤ s.nowMs

/-- The reply to a poll that found something. -/
def foundReply (buffer : OutBuf) (payload : Bytes) (flags : UInt64) : Reply :=
  let written := (writeResult buffer payload).1
  ⟨UInt64.ofNat written.length <<< 32 ||| flags, [written]⟩

/-- The reply to a poll that found nothing. -/
def notFoundReply : Reply := ⟨0, []⟩

def foundFlag : UInt64 := 0x0100

/-- The host call that looks for a signal without waiting. -/
def pollSignal (engine : Engine) (s : ExecSession) (signalName : String) (buffer : OutBuf) :
    Work Replied :=
  if engine.signalStore then do
    match ← ask (.pollSignal signalName) with
    | .ok (some delivery) =>
      if signalIsVisibleNow s delivery then
        pure (foundReply buffer (bytesOf delivery.payload) foundFlag, s)
      else pure (notFoundReply, s)
    | .ok none => pure (notFoundReply, s)
    | .error _ => pure (notFoundReply, s)
  else pure (notFoundReply, s)

/-- The host call that asks whether the run is cancelled. A session that replays is not. -/
def pollCancellation (engine : Engine) (s : ExecSession) (buffer : OutBuf) :
    Work Replied :=
  if s.isReplay then pure (notFoundReply, s)
  else if engine.signalStore then do
    match ← ask .pollCancellationReason with
    | .ok (true, reason) => pure (foundReply buffer (bytesOf reason) 1, s)
    | .ok (false, _) => pure (notFoundReply, s)
    | .error _ => pure (notFoundReply, s)
  else pure (notFoundReply, s)

end Cleat
