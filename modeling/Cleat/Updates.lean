import Cleat.Clock

/-!
# Updates

`durablePollUpdate` delivers the next request to update a workflow, and `durableCompleteUpdate`
records what the handler made of it and settles the request. A poll that delivers records an
event, so that the request is delivered at the same poll in every replay; a poll that finds
nothing records nothing. The request stays in its queue until it is settled.

A request is named to the guest by a key that packs the names of the update, of the request and
of the promise of its caller. Keys are taken apart byte by byte.
-/
namespace Cleat

variable (engine : Engine) (s : ExecSession)

/-- A text with its length in front. -/
def lengthPrefixed (text : String) : String := toString (bytesOf text).length ++ ":" ++ text

/-- The key of a request: its update's name, its own, and its promise's. -/
def updateRequestKey (request : UpdateRequestInfo) : String :=
  "u3:" ++ lengthPrefixed request.updateName ++ lengthPrefixed request.requestID ++
    request.promiseID

/-- A number in decimal digits. -/
def decimal : Bytes → Nat → Option Nat
  | [], value => some value
  | byte :: rest, value =>
    if 48 ≤ byte && byte ≤ 57 then decimal rest (10 * value + (byte.toNat - 48)) else none

/-- The number that a length stands for. A sign is accepted, and a negative number is not a
length. -/
def lengthOf : Bytes → Option Nat
  | [] => none
  | byte :: rest =>
    if byte = 43 then if rest.isEmpty then none else decimal rest 0
    else if byte = 45 then
      match rest, decimal rest 0 with
      | _ :: _, some 0 => some 0
      | _, _ => none
    else decimal (byte :: rest) 0

/-- Take a text with its length in front off the beginning. -/
def cutLengthPrefixed (key : Bytes) : Option (Bytes × Bytes) :=
  match key.dropWhile (· ≠ 58) with
  | [] => none
  | _ :: rest =>
    match lengthOf (key.takeWhile (· ≠ 58)) with
    | none => none
    | some length => if length ≤ rest.length then some (rest.take length, rest.drop length) else none

/-- The place behind a text whose length is in front of a colon, as a number of 64 bits. -/
def cutEnd (colon length : Nat) : Int := int64 (colon + 1 + length)

/-- Whether the host fails on taking a text off the beginning: its length is a number of 64 bits,
the place behind it passes the check, and it lies before the text. -/
def cutPanics (key : Bytes) : Bool :=
  let colon := (key.takeWhile (· ≠ 58)).length
  match key.dropWhile (· ≠ 58), lengthOf (key.takeWhile (· ≠ 58)) with
  | _ :: _, some length =>
    length < 2 ^ 63 && cutEnd colon length ≤ key.length && cutEnd colon length < colon + 1
  | _, _ => false

/-- A key taken apart. -/
structure UpdateKey where
  updateName : Bytes
  requestID : Bytes
  promiseID : Bytes
deriving DecidableEq, Repr

/-- Take a key apart, in the current form or one of the two that came before it. -/
def splitUpdateRequestKey (key : Bytes) : UpdateKey :=
  if key.contains 0 then
    ⟨key.takeWhile (· ≠ 0), [], (key.dropWhile (· ≠ 0)).drop 1⟩
  else if key.take 3 = [117, 51, 58] then
    match cutLengthPrefixed (key.drop 3) with
    | none => ⟨key, [], []⟩
    | some (name, rest) =>
      match cutLengthPrefixed rest with
      | none => ⟨key, [], []⟩
      | some (requestID, promiseID) => ⟨name, requestID, promiseID⟩
  else
    match cutLengthPrefixed key with
    | none => ⟨key, [], []⟩
    | some (name, promiseID) => ⟨name, [], promiseID⟩

/-- Whether the host fails on taking a key apart. -/
def splitPanics (key : Bytes) : Bool :=
  if key.contains 0 then false
  else if key.take 3 = [117, 51, 58] then
    cutPanics (key.drop 3) ||
      match cutLengthPrefixed (key.drop 3) with
      | none => false
      | some (_, rest) => cutPanics rest
  else cutPanics key

/-- The text that bytes encode. -/
def textOf (bytes : Bytes) : String := (String.fromUTF8? ⟨bytes.toArray⟩).getD ""

/-- The envelope of a delivery. -/
def marshalDelivery (name payload requestID : String) : String :=
  "\x7b\"name\":" ++ engine.marshalString name ++ ",\"payload\":" ++ engine.marshalString payload ++
    ",\"request_id\":" ++ engine.marshalString requestID ++ "\x7d"

/-- The reply to a poll that delivers a request. -/
def updateDelivered (buffer : OutBuf) (name payload requestID : String) : Reply :=
  foundReply buffer (bytesOf (marshalDelivery engine name payload requestID)) foundFlag

/-- The event of a delivery. -/
def updateReceivedEvent (step : Nat) (request : UpdateRequestInfo) : EventRecord where
  step := step
  eventType := .updateReceived
  updateHandlerName := request.updateName
  updatePayload := request.payload
  updateRequestID := updateRequestKey request

/-- Deliver the oldest pending request. An error of the store counts as none. -/
def freshPollUpdate (buffer : OutBuf) : Work Replied := do
  if !engine.updateStore then pure (notFoundReply, s)
  else if ← stopBeforeNewWork engine s then pure (suspendReply, s)
  else do
    match ← ask .getPendingUpdateRequests with
    | .error _ => pure (notFoundReply, s)
    | .ok [] => pure (notFoundReply, s)
    | .ok (request :: _) => do
        let (_, s) ← recordEvent engine s (updateReceivedEvent s.stepCount request)
        pure (updateDelivered engine buffer request.updateName request.payload
          (updateRequestKey request), s)

/-- The host call that polls for an update. A record of another kind says that none was
delivered here. -/
def durablePollUpdate (buffer : OutBuf) : Work Replied :=
  if s.isReplay then
    match s.current with
    | none => freshPollUpdate engine (exitReplay s) buffer
    | some record =>
      if record.eventType = .updateReceived then
        pure (updateDelivered engine buffer record.updateHandlerName record.updatePayload
          record.updateRequestID, advanceReplayStep engine s record)
      else pure (notFoundReply, s)
  else freshPollUpdate engine s buffer

/-- The event of an update that is done. The name is that of the key as it was given. -/
def updateCompletedEvent (step : Nat) (name requestID result errMsg : String) : EventRecord where
  step := step
  eventType := .updateCompleted
  updateHandlerName := name
  updateRequestID := requestID
  updateResponse := result
  updateError := errMsg

/-- Settle a request and the promise of its caller. Failures are only logged. -/
def settleUpdate (key : UpdateKey) (result errMsg : String) : Work Unit := do
  let rowID := if key.requestID = [] then key.updateName else key.requestID
  let _ ← ask (.completeUpdateRequest rowID result errMsg)
  if key.promiseID = [] then pure ()
  else if errMsg ≠ "" then do
    let _ ← ask (.rejectPromise key.promiseID errMsg)
    pure ()
  else do
    let _ ← ask (.resolvePromise key.promiseID result)
    pure ()

/-- Record what became of an update and settle it. The key is the guest's, and some keys make the
host fail. -/
def freshCompleteUpdate (requestID result errMsg : String) : Work Replied := do
  if ← stopBeforeNewWork engine s then pure (suspendReply, s)
  else if splitPanics (bytesOf requestID) then do
    let never ← ask .hostPanic
    nomatch never
  else do
    let key := splitUpdateRequestKey (bytesOf requestID)
    let (_, s) ← recordEvent engine s (updateCompletedEvent s.stepCount
      (textOf key.updateName) requestID result errMsg)
    if engine.updateStore then do
      settleUpdate key result errMsg
      pure (notFoundReply, s)
    else pure (notFoundReply, s)

/-- The host call that completes an update. A replayed completion settles nothing again. -/
def durableCompleteUpdate (requestID result errMsg : String) : Work Replied :=
  if s.isReplay then
    match s.current with
    | some record =>
      if record.eventType = .updateCompleted then
        pure (notFoundReply, advanceReplayStep engine s record)
      else freshCompleteUpdate engine (exitReplay s) requestID result errMsg
    | none => freshCompleteUpdate engine (exitReplay s) requestID result errMsg
  else freshCompleteUpdate engine s requestID result errMsg

end Cleat
