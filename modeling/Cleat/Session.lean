import Cleat.Environment

/-!
# Execution sessions

A session is one execution or replay of a workflow: the history it was loaded with
and has extended, the step it stands at, and whether it is still replaying. This
module has the operations every host call is made of. A call returns a 64-bit word
to the guest, whose fields depend on the call, and writes bytes into the output
buffers the guest supplied.

A session is passed explicitly and returned with each result. The step callback of
an interactive replay is not modelled; a worker installs none.
-/
namespace Cleat

/-- Bytes as they are copied into guest memory. -/
abbrev Bytes := List UInt8

/-- The UTF-8 encoding of a text. -/
def bytesOf (text : String) : Bytes := text.toUTF8.data.toList

theorem bytesOf_injective : Function.Injective bytesOf := by
  intro text other same
  have arrays : text.toUTF8 = other.toUTF8 := by
    apply ByteArray.ext
    exact Array.toList_inj.mp same
  rwa [String.toUTF8_eq_toByteArray, String.toUTF8_eq_toByteArray, String.toByteArray_inj] at arrays

/-- An output buffer: the capacity the guest declared, and how many bytes of its
linear memory there are from the buffer's address on. -/
structure OutBuf where
  maxLen : Nat
  room : Nat
deriving DecidableEq, Repr

/-- A host call's result: the packed word, and what was written to each buffer. -/
structure Reply where
  word : UInt64
  out : List Bytes := []
deriving DecidableEq, Repr

/-- How a write into guest memory can fall short. -/
inductive WriteError where
  | truncated | failed
deriving DecidableEq, Repr

/-- Write a value, cut to the buffer's capacity. Nothing is written when what is left
of it does not fit into the guest's memory. -/
def writeResult (buffer : OutBuf) (value : Bytes) : Bytes × Option WriteError :=
  let data := value.take buffer.maxLen
  if data.length > buffer.room then ([], some .failed)
  else if value.length > buffer.maxLen then (data, some .truncated)
  else (data, none)

def errCodeOutputTruncated : UInt8 := 7

def errCodeOutputWriteFailed : UInt8 := 8

/-- `writeResult` with its failure turned into an error code. -/
def writeOut (buffer : OutBuf) (value : Bytes) : Bytes × UInt8 :=
  match writeResult buffer value with
  | (written, none) => (written, 0)
  | (written, some .truncated) => (written, errCodeOutputTruncated)
  | (_, some .failed) => ([], errCodeOutputWriteFailed)

/-- The word that tells a guest to stop and unwind. -/
def callSuspendSentinel : UInt64 := (1 : UInt64) <<< 31

abbrev suspendReply : Reply := ⟨callSuspendSentinel, []⟩

/-- Result words of the durable-call family: length, error class and error code. -/
def packDurableCallResult (responseLen : Nat) (callErrorCode errCode : UInt8) : UInt64 :=
  UInt64.ofNat responseLen <<< 40 ||| callErrorCode.toUInt64 <<< 8 ||| errCode.toUInt64

/-- Result words that hold a length and an error code. -/
def packSimpleResult (errCode : UInt8) (extra : Nat) : UInt64 :=
  UInt64.ofNat extra <<< 32 ||| errCode.toUInt64

/-- A decoder's test for the suspend word, which every fallible call's decoder makes
before it reads any other field. -/
def Reply.suspends (reply : Reply) : Bool := reply.word &&& callSuspendSentinel != 0

def callErrorUnknown : UInt8 := 0
def callErrorUnavailable : UInt8 := 2
def callErrorInvalidRequest : UInt8 := 4
def callErrorRetryPolicyTooLong : UInt8 := 6
def callErrorOutputTruncated : UInt8 := 7
def callErrorOutputWriteFailed : UInt8 := 8

/-- The error class a failed service call is reported under. -/
def callFailureCode : UInt8 := callErrorUnavailable

/-- The error class of a failed write, and none for a successful one. -/
def writeErrorClass (errCode : UInt8) : UInt8 :=
  if errCode = errCodeOutputTruncated then callErrorOutputTruncated
  else if errCode = errCodeOutputWriteFailed then callErrorOutputWriteFailed
  else 0

/-- The error class a recorded failure is replayed under. -/
def recordedFailureCode (nonRetryable : Bool) : UInt8 :=
  if nonRetryable then callErrorUnknown else callFailureCode

/-- A refused or failed call of the durable-call family, with its message. -/
def callFailed (buffer : OutBuf) (message : Bytes) (callErrorCode : UInt8) : Reply :=
  let written := (writeResult buffer message).1
  ⟨packDurableCallResult written.length callErrorCode 1, [written]⟩

/-- A successful call of the durable-call family, with its response. -/
def callSucceeded (buffer : OutBuf) (response : Bytes) : Reply :=
  let (written, errCode) := writeOut buffer response
  ⟨packDurableCallResult written.length (writeErrorClass errCode) errCode, [written]⟩

/-- The error code of a result word. -/
def Reply.errCode (reply : Reply) : UInt8 := reply.word.toUInt8

/-- A value returned in the simple layout. -/
def simpleValue (buffer : OutBuf) (value : Bytes) : Reply :=
  let (written, errCode) := writeOut buffer value
  ⟨packSimpleResult errCode written.length, [written]⟩

/-- An error returned in the simple layout, with its message. -/
def simpleFailed (buffer : OutBuf) (message : Bytes) : Reply :=
  let written := (writeResult buffer message).1
  ⟨packSimpleResult 1 written.length, [written]⟩

/-- Signed 64-bit arithmetic wraps around. -/
def int64 (value : Int) : Int := value.bmod (2 ^ 64)

/-- A number of milliseconds as a duration in nanoseconds. -/
def durationOfMs (milliseconds : Int) : Int := int64 (milliseconds * 1000000)

/-- A time in milliseconds since the epoch, in nanoseconds. -/
def unixMilli (milliseconds : Int) : Int := milliseconds * 1000000

/-- Why and until when a session is suspended, in nanoseconds since the epoch, and the
input and version of the run that is to continue it, if one is. -/
structure SuspendError where
  reason : String
  until_ : Option Int := none
  newInput : String := ""
  newVersion : Int := 0
deriving DecidableEq, Repr

/-- The first replayed call whose outcome could not be determined. -/
structure AmbiguousCall where
  step : Nat
  service : String
  op : String
deriving DecidableEq, Repr

/-- One execution of a workflow. -/
structure ExecSession where
  history : History
  stepCount : Nat := 0
  isReplay : Bool
  nowMs : Int
  suspendErr : Option SuspendError := none
  inDeferPhase : Bool := false
  inDeferDrain : Bool := false
  awaitRejected : Bool := false
  scopePrefix : String := ""
  scopeObjType : String := ""
  scopeInstKey : String := ""
  scopeSet : Bool := false
  heldScopes : List String := []
  originalInput : String := ""
  autoContinueAsNewTriggered : Bool := false
  eventCount : Nat := 0
  ambiguity : Option AmbiguousCall := none
  lastChecksum : String := ""
  deferrals : List (String × String) := []
deriving DecidableEq, Repr

/-- The record at the step of a session, if it has one. -/
abbrev ExecSession.current (s : ExecSession) : Option EventRecord := s.history[s.stepCount]?

/-- The records from the step of a session on. -/
abbrev ExecSession.remaining (s : ExecSession) : History := s.history.drop s.stepCount

/-- What a host call returns: the reply to the guest and the session behind it. -/
abbrev Replied := Reply × ExecSession

/-- The session clock's anchor before the first event: the run's start time, or the
first event's, or the worker's cached clock. -/
def Engine.seedNowMs (engine : Engine) (cachedNowMs : Int) (history : History) : Int :=
  if engine.workflowStartMs > 0 then engine.workflowStartMs
  else match history with
    | first :: _ => if first.timestampMs > 0 then first.timestampMs else cachedNowMs
    | [] => cachedNowMs

/-- What an execution is started with beside its history: the worker's cached clock, the
run's input and the number of events counted towards its cap. -/
structure Opening where
  cachedNowMs : Int := 0
  originalInput : String := ""
  initialEventCount : Nat := 0

/-- The session an execution starts with, over the history it is given. -/
def Engine.openSession (engine : Engine) (opening : Opening) (history : History) :
    ExecSession where
  history := history
  isReplay := !history.isEmpty
  nowMs := engine.seedNowMs opening.cachedNowMs history
  originalInput := opening.originalInput
  eventCount := opening.initialEventCount

/-- A call the workflow's body must not start: it is in a defer segment, or the worker
is shutting down. The flag is read only when the first test does not decide. -/
def stopBeforeNewWork (engine : Engine) (s : ExecSession) : Work Bool :=
  if engine.deferPhase && !s.inDeferDrain then pure true
  else ask .shutdownObserved

/-- Leave replay for forward execution. -/
def exitReplay (s : ExecSession) : ExecSession := { s with isReplay := false }

/-- Consume one recorded event during replay. -/
def advanceReplayStep (engine : Engine) (s : ExecSession) (record : EventRecord) : ExecSession :=
  { s with
    stepCount := s.stepCount + 1
    nowMs := if record.timestampMs > 0 then record.timestampMs else s.nowMs
    lastChecksum := engine.computeEventChecksum record s.lastChecksum }

theorem current_of_remaining {s : ExecSession} {rest : History} (left : s.remaining = rest) :
    s.current = rest.head? :=
  List.head?_drop.symm.trans (congrArg List.head? left)

theorem drop_of_remaining {s : ExecSession} {rest : History} (left : s.remaining = rest) :
    s.history.drop (s.stepCount + 1) = rest.tail :=
  List.tail_drop.symm.trans (congrArg List.tail left)

/-- The record as it enters the history: stamped with the clock, never behind the
session's own time, and marked if the guest is draining its defers. -/
def stampEvent (s : ExecSession) (record : EventRecord) (clockMs : Int) : EventRecord :=
  { record with
    timestampMs := max clockMs s.nowMs
    inDeferPhase := record.inDeferPhase || s.inDeferPhase }

/-- The session after an event has been appended to its history. -/
def appendEvent (s : ExecSession) (record : EventRecord) : ExecSession :=
  { s with
    nowMs := record.timestampMs
    history := s.history ++ [record]
    stepCount := s.stepCount + 1 }

/-- The time of a record: its own if it has one, and the clock's otherwise. -/
def recordTime (record : EventRecord) : Work Int :=
  if record.timestampMs = 0 then ask .now else pure record.timestampMs

/-- Append a fresh event to the history and write it to the store. The checksum chain
moves only past an event whose write was not refused. -/
def recordEvent (engine : Engine) (s : ExecSession) (record : EventRecord) :
    Work (EventPersistence × ExecSession) := do
  let clockMs ← recordTime record
  let stamped := stampEvent s record clockMs
  let appended := appendEvent s stamped
  if engine.db && !s.isReplay then
    let checksum := engine.computeEventChecksum stamped s.lastChecksum
    let outcome ← ask (.flushEvent stamped checksum)
    if outcome = .flushFailed then
      pure (outcome, appended)
    else
      pure (outcome, { appended with lastChecksum := checksum })
  else
    pure (.notAttempted, appended)

section Questions

variable {Kind : Query → Prop}

theorem every_ask {query : Query} (kind : Kind query) : (ask query).Every Kind :=
  ⟨kind, fun _ => trivial⟩

theorem every_pure {α : Type} (value : α) : (pure value : Work α).Every Kind :=
  trivial

/-- Recording an event reads the clock and writes. -/
theorem every_recordEvent (engine : Engine) (s : ExecSession) (record : EventRecord)
    (clock : Kind .now) (write : ∀ record checksum, Kind (.flushEvent record checksum)) :
    (recordEvent engine s record).Every Kind := by
  refine .bind (.ite (every_ask clock) (every_pure _)) fun clockMs => .ite ?_ (every_pure _)
  exact .bind (every_ask (write _ _)) fun outcome => .ite (every_pure _) (every_pure _)

theorem every_stopBeforeNewWork (engine : Engine) (s : ExecSession)
    (shutdown : Kind .shutdownObserved) : (stopBeforeNewWork engine s).Every Kind := by
  exact .ite (every_pure _) (every_ask shutdown)

end Questions

end Cleat
