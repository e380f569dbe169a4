import Cleat.Durable.Fields
import Cleat.Encoding.Base64
import Cleat.Encoding.Float64
import Cleat.Encoding.Utf8
import Cleat.StoredEvent
import Mathlib

/-!
# The payload of an event

The fields of an event are stored together in one JSON document, and the checksum of the
event is taken over that document. Each event type has an arm in the encoder, which says
under which key a field is written and when it is left out, and an arm in the decoder, which
reads the keys back. Requests and responses are written in base64.

JSON text is UTF-8, so bytes that are not are replaced. The decoder reads numbers as
doubles. Both follow the documented rules of the JSON library, which is a parameter here.
-/
namespace Cleat

open Durable Encoding List

/-- The keys of a payload. Those without `B64` for a request or a response are only read. -/
inductive PayloadKey where
  | service | operation | attempt | error | requestB64 | responseB64 | request | response
  | errorNonRetryable | errorCode | retriesExhausted | resolvedBy | durationMs | signalNames
  | timeoutMs | signalName | signalPayload | deferDescription | deferID | childName | childInput
  | runID | parentWorkflowID | parentClosePolicy | newInput | newVersion | pluginName | pluginFunc
  | pluginInput | pluginOutput | pluginError | promiseName | promiseID | promiseResult
  | promiseError | updateHandlerName | updateRequestID | updatePayload | updateResponse
  | updateError | stateKey | stateValue | stateDelta | stateOp | stateKeys | detachedName
  | detachedInput | detachedRunID | replacedStatus | replacedErrorMsg | replacedErrorCode
  | replacedErrorOp | replacedCompletedAt | sideEffectResult | streamChunkIndex | streamFinish
  | streamErrCode | scopeKey | message | logLevel | logKV | fetchMethod | fetchURL | fetchHeaders
  | fetchBody | fetchResponseB64 | fetchResponse | cronWorkflowName | cronExpr | cronTimezone
  | cronInput | cronScheduleID | cronResult | lockKey | lockTTLMs | lockAcquired | lockNotHeld
  | inDeferPhase
deriving DecidableEq, Repr

/-- A value of a payload. -/
inductive PayloadValue where
  | text (bytes : Bytes)
  | number (value : Int)
  | flag (value : Bool)
deriving DecidableEq, Repr

/-- A payload: the keys that are present and their values. -/
abbrev Payload := PayloadKey → Option PayloadValue

/-- When a number is written. -/
inductive NumberRule where
  | always | nonzero | positive
deriving DecidableEq, Repr

def NumberRule.writes : NumberRule → Int → Bool
  | .always, _ => true
  | .nonzero, value => value != 0
  | .positive, value => 0 < value

/-- Where the value of a key comes from. A text is left out when it is empty unless it is
marked, and a flag when it is not set. -/
inductive PayloadSource where
  | text (field : TextField) (always : Bool)
  | base64 (field : TextField) (always : Bool)
  | number (field : NumberField) (rule : NumberRule)
  | flag (field : FlagField)
deriving DecidableEq, Repr

def PayloadSource.value (event : StoredEvent) : PayloadSource → Option PayloadValue
  | .text field always =>
    if always || event.text field ≠ [] then some (.text (event.text field)) else none
  | .base64 field always =>
    if always || event.text field ≠ [] then some (.text (encodeBase64 (event.text field)))
    else none
  | .number field rule =>
    if rule.writes (event.number field) then some (.number (event.number field)) else none
  | .flag field => if event.flag field then some (.flag true) else none

/-- The encoder's arm of an event type. -/
def payloadArm : EventType → List (PayloadKey × PayloadSource)
  | .callAttemptFailed =>
    [(.service, .text .service true), (.operation, .text .op true),
      (.attempt, .number .attempt .nonzero), (.error, .text .err false)]
  | .call =>
    [(.service, .text .service true), (.operation, .text .op true),
      (.requestB64, .base64 .request true), (.responseB64, .base64 .response false),
      (.error, .text .err false), (.errorNonRetryable, .flag .errNonRetryable),
      (.errorCode, .text .errCode false), (.retriesExhausted, .flag .retriesExhausted),
      (.resolvedBy, .text .resolvedBy false), (.durationMs, .number .durationMs .positive)]
  | .awaitSignals =>
    [(.signalNames, .text .signalNames false), (.timeoutMs, .number .timeoutMs .positive)]
  | .signalReceived =>
    [(.signalName, .text .signalName false), (.signalPayload, .text .signalPayload false)]
  | .defer =>
    [(.deferDescription, .text .deferDescription false), (.deferID, .text .deferID false)]
  | .childWorkflow =>
    [(.childName, .text .childName false), (.childInput, .text .childInput false),
      (.runID, .text .runID false), (.parentWorkflowID, .text .parentWorkflowID false),
      (.parentClosePolicy, .text .parentClosePolicy false)]
  | .continueAsNew =>
    [(.newInput, .text .newInput false), (.newVersion, .number .newVersion .nonzero)]
  | .pluginCall =>
    [(.pluginName, .text .pluginName false), (.pluginFunc, .text .pluginFunc false),
      (.pluginInput, .text .pluginInput false), (.pluginOutput, .text .pluginOutput false),
      (.pluginError, .text .pluginError false)]
  | .createPromise =>
    [(.promiseName, .text .promiseName true), (.promiseID, .text .promiseID true)]
  | .awaitPromise | .promiseResolved | .promiseRejected =>
    [(.promiseID, .text .promiseID true), (.timeoutMs, .number .timeoutMs .positive),
      (.promiseResult, .text .promiseResult false), (.promiseError, .text .promiseError false)]
  | .updateHandler => [(.updateHandlerName, .text .updateHandlerName false)]
  | .updateReceived =>
    [(.updateHandlerName, .text .updateHandlerName false),
      (.updateRequestID, .text .updateRequestID false),
      (.updatePayload, .text .updatePayload true)]
  | .updateCompleted =>
    [(.updateHandlerName, .text .updateHandlerName false),
      (.updateRequestID, .text .updateRequestID false),
      (.updateResponse, .text .updateResponse false), (.updateError, .text .updateError false)]
  | .stateMutation =>
    [(.stateKey, .text .stateKey false), (.stateValue, .text .stateValue false),
      (.stateDelta, .number .stateDelta .nonzero), (.stateOp, .text .stateOp false),
      (.stateKeys, .text .stateKeys false)]
  | .runDetached =>
    [(.detachedName, .text .detachedName false), (.detachedInput, .text .detachedInput false),
      (.detachedRunID, .text .detachedRunID false)]
  | .adminAction =>
    [(.service, .text .service false), (.operation, .text .op false), (.error, .text .err false),
      (.replacedStatus, .text .replacedStatus false),
      (.replacedErrorMsg, .text .replacedErrorMsg false),
      (.replacedErrorCode, .text .replacedErrorCode false),
      (.replacedErrorOp, .text .replacedErrorOp false),
      (.replacedCompletedAt, .text .replacedCompletedAt false)]
  | .sideEffect => [(.sideEffectResult, .text .sideEffectResult false)]
  | .pluginCallStreamChunk =>
    [(.pluginName, .text .pluginName false), (.pluginFunc, .text .pluginFunc false),
      (.pluginInput, .text .pluginInput false), (.pluginOutput, .text .pluginOutput false),
      (.pluginError, .text .pluginError false),
      (.streamChunkIndex, .number .streamChunkIndex .positive),
      (.streamFinish, .flag .streamFinish), (.streamErrCode, .number .streamErrCode .nonzero)]
  | .scopeAcquired => [(.scopeKey, .text .scopeKey false), (.error, .text .err false)]
  | .durableLog =>
    [(.message, .text .message false), (.logLevel, .text .logLevel false),
      (.logKV, .text .logKV false)]
  | .fetch =>
    [(.fetchMethod, .text .fetchMethod false), (.fetchURL, .text .fetchURL false),
      (.fetchHeaders, .text .fetchHeaders false), (.fetchBody, .text .fetchBody false),
      (.fetchResponseB64, .base64 .fetchResponse false), (.error, .text .err false)]
  | .scheduleCron | .deleteCron | .listCrons =>
    [(.cronWorkflowName, .text .cronWorkflowName false), (.cronExpr, .text .cronExpr false),
      (.cronTimezone, .text .cronTimezone false), (.cronInput, .text .cronInput false),
      (.cronScheduleID, .text .cronScheduleID false), (.cronResult, .text .cronResult false),
      (.error, .text .err false)]
  | .acquireLock =>
    [(.lockKey, .text .lockKey false), (.lockTTLMs, .number .lockTTLMs .positive),
      (.lockAcquired, .number .lockAcquired .always)]
  | .releaseLock => [(.lockKey, .text .lockKey false), (.lockNotHeld, .flag .lockNotHeld)]
  | .durableSend =>
    [(.service, .text .service false), (.operation, .text .op false),
      (.requestB64, .base64 .request false)]
  | .durableScheduleInvoke =>
    [(.service, .text .service false), (.operation, .text .op false),
      (.requestB64, .base64 .request false), (.durationMs, .number .durationMs .positive)]
  | .awaitChild =>
    [(.runID, .text .runID false), (.responseB64, .base64 .response false),
      (.error, .text .err false)]
  | .heartbeat => [(.service, .text .service false), (.operation, .text .op false)]
  | .awaitAllChildren =>
    [(.requestB64, .base64 .request false), (.responseB64, .base64 .response false)]
  | .awaitAnyChild | .pollChild => []

/-- What the encoder writes for an event. The mark of a defer phase is written for every
type. -/
def payloadTable (eventType : EventType) : List (PayloadKey × PayloadSource) :=
  payloadArm eventType ++ [(.inDeferPhase, .flag .inDeferPhase)]

/-- A key that is not in the table of the type is not written. -/
def eventRecordToPayload (event : StoredEvent) : Payload := fun key =>
  ((payloadTable event.eventType).lookup key).bind (PayloadSource.value event)

/-- Where a text is read from. A text in base64 may also be found unencoded under an older
key. -/
inductive TextOrigin where
  | raw (key : PayloadKey)
  | base64 (key : PayloadKey) (older : Option PayloadKey)
deriving DecidableEq, Repr

/-- The decoder's arm of an event type. -/
structure PopulateArm where
  texts : List (TextField × TextOrigin) := []
  numbers : List (NumberField × PayloadKey) := []
  flags : List (FlagField × PayloadKey) := []

def populateArm : EventType → PopulateArm
  | .callAttemptFailed =>
    { texts := [(.service, .raw .service), (.op, .raw .operation), (.err, .raw .error)]
      numbers := [(.attempt, .attempt)] }
  | .call =>
    { texts :=
        [(.service, .raw .service), (.op, .raw .operation),
          (.request, .base64 .requestB64 (some .request)),
          (.response, .base64 .responseB64 (some .response)), (.err, .raw .error),
          (.errCode, .raw .errorCode), (.resolvedBy, .raw .resolvedBy)]
      numbers := [(.durationMs, .durationMs)]
      flags :=
        [(.errNonRetryable, .errorNonRetryable), (.retriesExhausted, .retriesExhausted)] }
  | .awaitSignals =>
    { texts := [(.signalNames, .raw .signalNames)], numbers := [(.timeoutMs, .timeoutMs)] }
  | .signalReceived =>
    { texts := [(.signalName, .raw .signalName), (.signalPayload, .raw .signalPayload)] }
  | .defer =>
    { texts := [(.deferDescription, .raw .deferDescription), (.deferID, .raw .deferID)] }
  | .childWorkflow =>
    { texts :=
        [(.childName, .raw .childName), (.childInput, .raw .childInput), (.runID, .raw .runID),
          (.parentWorkflowID, .raw .parentWorkflowID),
          (.parentClosePolicy, .raw .parentClosePolicy)] }
  | .continueAsNew =>
    { texts := [(.newInput, .raw .newInput)], numbers := [(.newVersion, .newVersion)] }
  | .pluginCall =>
    { texts :=
        [(.pluginName, .raw .pluginName), (.pluginFunc, .raw .pluginFunc),
          (.pluginInput, .raw .pluginInput), (.pluginOutput, .raw .pluginOutput),
          (.pluginError, .raw .pluginError)] }
  | .createPromise | .awaitPromise | .promiseResolved | .promiseRejected =>
    { texts :=
        [(.promiseName, .raw .promiseName), (.promiseID, .raw .promiseID),
          (.promiseResult, .raw .promiseResult), (.promiseError, .raw .promiseError)]
      numbers := [(.timeoutMs, .timeoutMs)] }
  | .updateHandler => { texts := [(.updateHandlerName, .raw .updateHandlerName)] }
  | .updateReceived =>
    { texts :=
        [(.updateHandlerName, .raw .updateHandlerName),
          (.updateRequestID, .raw .updateRequestID), (.updatePayload, .raw .updatePayload)] }
  | .updateCompleted =>
    { texts :=
        [(.updateHandlerName, .raw .updateHandlerName),
          (.updateRequestID, .raw .updateRequestID), (.updateResponse, .raw .updateResponse),
          (.updateError, .raw .updateError)] }
  | .stateMutation =>
    { texts :=
        [(.stateKey, .raw .stateKey), (.stateValue, .raw .stateValue), (.stateOp, .raw .stateOp),
          (.stateKeys, .raw .stateKeys)]
      numbers := [(.stateDelta, .stateDelta)] }
  | .runDetached =>
    { texts :=
        [(.detachedName, .raw .detachedName), (.detachedInput, .raw .detachedInput),
          (.detachedRunID, .raw .detachedRunID)] }
  | .adminAction =>
    { texts :=
        [(.service, .raw .service), (.op, .raw .operation), (.err, .raw .error),
          (.replacedStatus, .raw .replacedStatus), (.replacedErrorMsg, .raw .replacedErrorMsg),
          (.replacedErrorCode, .raw .replacedErrorCode),
          (.replacedErrorOp, .raw .replacedErrorOp),
          (.replacedCompletedAt, .raw .replacedCompletedAt)] }
  | .sideEffect => { texts := [(.sideEffectResult, .raw .sideEffectResult)] }
  | .pluginCallStreamChunk =>
    { texts :=
        [(.pluginName, .raw .pluginName), (.pluginFunc, .raw .pluginFunc),
          (.pluginInput, .raw .pluginInput), (.pluginOutput, .raw .pluginOutput),
          (.pluginError, .raw .pluginError)]
      numbers := [(.streamChunkIndex, .streamChunkIndex), (.streamErrCode, .streamErrCode)]
      flags := [(.streamFinish, .streamFinish)] }
  | .scopeAcquired => { texts := [(.scopeKey, .raw .scopeKey), (.err, .raw .error)] }
  | .durableLog =>
    { texts := [(.message, .raw .message), (.logLevel, .raw .logLevel), (.logKV, .raw .logKV)] }
  | .fetch =>
    { texts :=
        [(.fetchMethod, .raw .fetchMethod), (.fetchURL, .raw .fetchURL),
          (.fetchHeaders, .raw .fetchHeaders), (.fetchBody, .raw .fetchBody),
          (.fetchResponse, .base64 .fetchResponseB64 (some .fetchResponse)),
          (.err, .raw .error)] }
  | .scheduleCron | .deleteCron | .listCrons =>
    { texts :=
        [(.cronWorkflowName, .raw .cronWorkflowName), (.cronExpr, .raw .cronExpr),
          (.cronTimezone, .raw .cronTimezone), (.cronInput, .raw .cronInput),
          (.cronScheduleID, .raw .cronScheduleID), (.cronResult, .raw .cronResult),
          (.err, .raw .error)] }
  | .acquireLock =>
    { texts := [(.lockKey, .raw .lockKey)]
      numbers := [(.lockTTLMs, .lockTTLMs), (.lockAcquired, .lockAcquired)] }
  | .releaseLock =>
    { texts := [(.lockKey, .raw .lockKey)], flags := [(.lockNotHeld, .lockNotHeld)] }
  | .durableSend =>
    { texts :=
        [(.service, .raw .service), (.op, .raw .operation),
          (.request, .base64 .requestB64 none)] }
  | .durableScheduleInvoke =>
    { texts :=
        [(.service, .raw .service), (.op, .raw .operation),
          (.request, .base64 .requestB64 none)]
      numbers := [(.durationMs, .durationMs)] }
  | .awaitChild =>
    { texts :=
        [(.runID, .raw .runID), (.response, .base64 .responseB64 (some .response)),
          (.err, .raw .error)] }
  | .heartbeat => { texts := [(.service, .raw .service), (.op, .raw .operation)] }
  | .awaitAllChildren =>
    { texts :=
        [(.request, .base64 .requestB64 (some .request)),
          (.response, .base64 .responseB64 (some .response))] }
  | .awaitAnyChild | .pollChild => {}

/-- The flags the decoder reads. The mark of a defer phase is read for every type. -/
def populateFlags (eventType : EventType) : List (FlagField × PayloadKey) :=
  (populateArm eventType).flags ++ [(.inDeferPhase, .inDeferPhase)]

/-- A value as it is written to a document. -/
def PayloadValue.written : PayloadValue → PayloadValue
  | .text bytes => .text (toValidUTF8 bytes)
  | .number value => .number value
  | .flag value => .flag value

/-- A value as it is read from a document. -/
def PayloadValue.read : PayloadValue → PayloadValue
  | .text bytes => .text (toValidUTF8 bytes)
  | .number value => .number (float64 value)
  | .flag value => .flag value

attribute [local simp] PayloadValue.read PayloadValue.written

/-- What the engine takes from its platform: the JSON library, by its documented rules, and
what becomes of a double that is too large for an integer. -/
structure Platform (Document : Type) where
  marshal : Payload → Document
  unmarshal : Document → Option Payload
  overflow : Int
  marshal_eq_iff : ∀ payload other, marshal payload = marshal other ↔
    ∀ key, (payload key).map PayloadValue.written = (other key).map PayloadValue.written
  unmarshal_marshal : ∀ payload,
    unmarshal (marshal payload) = some fun key => (payload key).map PayloadValue.read

/-- A platform whose documents are the payloads as they are written. -/
def plainPlatform : Platform Payload where
  marshal payload key := (payload key).map PayloadValue.written
  unmarshal document := some fun key => (document key).map PayloadValue.read
  overflow := -2 ^ 63
  marshal_eq_iff _ _ := funext_iff
  unmarshal_marshal payload := by
    simp only [Option.map_map, Option.some.injEq]
    funext key
    congr 1
    funext value
    cases value with
    | text bytes => simp [PayloadValue.written, toValidUTF8_idem]
    | number value => rfl
    | flag value => rfl

/-- The text that a payload has under a key. -/
def Payload.textAt (payload : Payload) (key : PayloadKey) : Option Bytes :=
  match payload key with
  | some (.text bytes) => some bytes
  | _ => none

/-- The text that a decoder's entry finds. -/
def TextOrigin.find (payload : Payload) : TextOrigin → Option Bytes
  | .raw key => payload.textAt key
  | .base64 key older =>
    match payload.textAt key with
    | some text => decodeBase64 text
    | none => older.bind payload.textAt

/-- A number is read as a double and cut to an integer. -/
def findNumber (overflow : Int) (payload : Payload) (key : PayloadKey) : Option Int :=
  match payload key with
  | some (.number value) => some (toInt64 overflow value)
  | _ => none

def findFlag (payload : Payload) (key : PayloadKey) : Option Bool :=
  match payload key with
  | some (.flag value) => some value
  | _ => none

/-- An event with the fields that a payload carries. Those it does not carry stay. -/
def populate (overflow : Int) (event : StoredEvent) (payload : Payload) : StoredEvent :=
  let arm := populateArm event.eventType
  { event with
    text := fun field =>
      ((arm.texts.lookup field).bind (TextOrigin.find payload)).getD (event.text field)
    number := fun field =>
      ((arm.numbers.lookup field).bind (findNumber overflow payload)).getD (event.number field)
    flag := fun field =>
      (((populateFlags event.eventType).lookup field).bind (findFlag payload)).getD
        (event.flag field) }

variable {Document : Type}

/-- An event with the fields of a stored document. A document that cannot be read changes
nothing. -/
def populateFromPayload (platform : Platform Document) (event : StoredEvent)
    (document : Document) : StoredEvent :=
  match platform.unmarshal document with
  | none => event
  | some payload => populate platform.overflow event payload

/-- The document of an event. -/
def Platform.document (platform : Platform Document) (event : StoredEvent) : Document :=
  platform.marshal (eventRecordToPayload event)

/-- The texts that are written as they are, and those that are written in base64. -/
def PayloadSource.rawText? : PayloadSource → Option TextField
  | .text field _ => some field
  | _ => none

def PayloadSource.encodedText? : PayloadSource → Option TextField
  | .base64 field _ => some field
  | _ => none

def PayloadSource.number? : PayloadSource → Option (NumberField × NumberRule)
  | .number field rule => some (field, rule)
  | _ => none

def PayloadSource.flag? : PayloadSource → Option FlagField
  | .flag field => some field
  | _ => none

/-- The texts that are written as they are. -/
def rawTexts (eventType : EventType) : List TextField :=
  (payloadTable eventType).filterMap fun entry => entry.2.rawText?

def encodedTexts (eventType : EventType) : List TextField :=
  (payloadTable eventType).filterMap fun entry => entry.2.encodedText?

def payloadNumbers (eventType : EventType) : List (NumberField × NumberRule) :=
  (payloadTable eventType).filterMap fun entry => entry.2.number?

def payloadFlags (eventType : EventType) : List FlagField :=
  (payloadTable eventType).filterMap fun entry => entry.2.flag?

/-- The keys a decoder's entry may look at. -/
def TextOrigin.keys : TextOrigin → List PayloadKey
  | .raw key => [key]
  | .base64 key older => key :: older.toList

attribute [local simp] TextOrigin.keys

/-- A key that no arm of the encoder writes for a type. -/
def unwritten (eventType : EventType) (key : PayloadKey) : Bool :=
  ((payloadTable eventType).lookup key).isNone

/-- The decoder reads a key back into the field it was written from. -/
def PayloadSource.readBack (eventType : EventType) (key : PayloadKey) : PayloadSource → Bool
  | .text field _ => (populateArm eventType).texts.lookup field = some (.raw key)
  | .base64 field _ =>
    (populateArm eventType).texts.lookup field = some (.base64 key none) ||
      [PayloadKey.request, .response, .fetchResponse].any fun older =>
        (populateArm eventType).texts.lookup field = some (.base64 key (some older)) &&
          unwritten eventType older
  | .number field _ => (populateArm eventType).numbers.lookup field = some key
  | .flag field => (populateFlags eventType).lookup field = some key

attribute [local simp] PayloadSource.readBack

/-- The two arms of a type fit together: every key that is written is read back into its
field, and a field that is not written is not read from the key of another. -/
structure ArmsFit (eventType : EventType) : Prop where
  found : ∀ entry ∈ payloadTable eventType,
    (payloadTable eventType).lookup entry.1 = some entry.2
  read : ∀ entry ∈ payloadTable eventType, entry.2.readBack eventType entry.1 = true
  texts : ∀ entry ∈ (populateArm eventType).texts,
    entry.1 ∈ rawTexts eventType ++ encodedTexts eventType ∨
      ∀ key ∈ entry.2.keys, unwritten eventType key = true
  numbers : ∀ entry ∈ (populateArm eventType).numbers,
    entry.1 ∈ (payloadNumbers eventType).map Prod.fst ∨ unwritten eventType entry.2 = true
  flags : ∀ entry ∈ populateFlags eventType, entry.1 ∈ payloadFlags eventType

/-- The arms are tables, so each type is checked by evaluation. -/
theorem arms_fit (eventType : EventType) : ArmsFit eventType := by
  cases eventType <;> exact ⟨by decide, by decide, by decide, by decide, by decide⟩

variable {event : StoredEvent} {key : PayloadKey} {eventType : EventType} {field : TextField}

theorem payload_entry {source : PayloadSource}
    (entry : (key, source) ∈ payloadTable event.eventType) :
    eventRecordToPayload event key = source.value event := by
  rw [eventRecordToPayload, (arms_fit event.eventType).found _ entry, Option.bind_some]

theorem payload_unwritten (absent : unwritten event.eventType key = true) :
    eventRecordToPayload event key = none := by
  rw [unwritten, Option.isNone_iff_eq_none] at absent
  rw [eventRecordToPayload, absent, Option.bind_none]

/-- A record that has some fields of an event and nothing else. -/
structure PartialCopy (copy event : StoredEvent) : Prop where
  eventType : copy.eventType = event.eventType
  text : ∀ field, copy.text field = [] ∨ copy.text field = event.text field
  number : ∀ field, copy.number field = 0 ∨ copy.number field = event.number field
  flag : ∀ field, copy.flag field = false ∨ copy.flag field = event.flag field

/-- The payload as it is read back. -/
def readPayload (event : StoredEvent) : Payload := fun key =>
  (eventRecordToPayload event key).map PayloadValue.read

theorem textAt_unwritten (absent : unwritten event.eventType key = true) :
    (readPayload event).textAt key = none := by
  rw [Payload.textAt, readPayload, payload_unwritten absent, Option.map_none]

theorem populateFromPayload_document (platform : Platform Document) (copy event : StoredEvent) :
    populateFromPayload platform copy (platform.document event) =
      populate platform.overflow copy (readPayload event) := by
  rw [populateFromPayload, Platform.document, platform.unmarshal_marshal]
  rfl

theorem encodeBase64_written (bytes : Bytes) :
    toValidUTF8 (encodeBase64 bytes) = encodeBase64 bytes :=
  toValidUTF8_eq_self_iff.mpr
    (validUTF8_of_ascii fun _ member => (encodeBase64_printable member).2)

section Load

variable {overflow : Int} {copy event : StoredEvent} (partialCopy : PartialCopy copy event)
include partialCopy

variable {key : PayloadKey} {field : TextField} {always : Bool}

theorem copy_vacant (empty : event.text field = []) : copy.text field = [] := by
  rcases partialCopy.text field with none | same
  · exact none
  · rw [same, empty]

/-- Bytes that are not UTF-8 are replaced on the way. -/
theorem loaded_raw (entry : (key, .text field always) ∈ payloadTable event.eventType) :
    (populate overflow copy (readPayload event)).text field = toValidUTF8 (event.text field) := by
  have reads : (populateArm event.eventType).texts.lookup field = some (.raw key) := by
    simpa using (arms_fit event.eventType).read _ entry
  simp only [populate, partialCopy.eventType, reads, Option.bind_some, TextOrigin.find,
    Payload.textAt, readPayload, payload_entry entry, PayloadSource.value]
  by_cases empty : event.text field = []
  · have vacant := copy_vacant partialCopy empty
    cases always <;> simp [empty, vacant, toValidUTF8, replaceInvalid]
  · simp [empty]

/-- Any bytes survive in base64. -/
theorem loaded_encoded (entry : (key, .base64 field always) ∈ payloadTable event.eventType) :
    (populate overflow copy (readPayload event)).text field = event.text field := by
  -- The text is found under its key, or it is empty and found nowhere.
  have found : ∀ older, (∀ key ∈ older, unwritten event.eventType key = true) →
      (TextOrigin.find (readPayload event) (.base64 key older)).getD (copy.text field) =
        event.text field := by
    intro older absent
    simp only [TextOrigin.find, Payload.textAt, readPayload, payload_entry entry,
      PayloadSource.value]
    by_cases empty : event.text field = []
    · have vacant := copy_vacant partialCopy empty
      cases always with
      | true => simp [empty, encodeBase64, toValidUTF8, replaceInvalid,
          decodeBase64, decodeSymbols]
      | false =>
        cases older with
        | none => simp [empty, vacant]
        | some key => simp [empty, vacant, textAt_unwritten (absent key rfl)]
    · simp [empty, encodeBase64_written, decodeBase64_encodeBase64]
  have reads := (arms_fit event.eventType).read _ entry
  simp only [PayloadSource.readBack, Bool.or_eq_true, decide_eq_true_eq, any_eq_true,
    Bool.and_eq_true] at reads
  simp only [populate, partialCopy.eventType]
  rcases reads with plain | ⟨older, _, fallback, absent⟩
  · rw [plain, Option.bind_some]
    exact found none (by simp)
  · rw [fallback, Option.bind_some]
    exact found (some older) (by simpa using absent)

/-- A text that is not written stays what the row says. -/
theorem loaded_absent (raw : field ∉ rawTexts event.eventType)
    (encoded : field ∉ encodedTexts event.eventType) :
    (populate overflow copy (readPayload event)).text field = copy.text field := by
  simp only [populate, partialCopy.eventType]
  cases reads : (populateArm event.eventType).texts.lookup field with
  | none => rfl
  | some origin =>
    have absent : ∀ key ∈ origin.keys, unwritten event.eventType key = true := by
      rcases (arms_fit event.eventType).texts _ (mem_of_lookup reads) with carried | absent
      · exact absurd (mem_append.mp carried) (not_or.mpr ⟨raw, encoded⟩)
      · exact absent
    have nothing : origin.find (readPayload event) = none := by
      cases origin with
      | raw key => exact textAt_unwritten (absent key (by simp))
      | base64 key older =>
        have first := textAt_unwritten (absent key (by simp))
        cases older with
        | none => simp [TextOrigin.find, first]
        | some older =>
          have second := textAt_unwritten (absent older (by simp))
          simp [TextOrigin.find, first, second]
    rw [Option.bind_some, nothing, Option.getD_none]

/-- A number that is written comes back as the double next to it. -/
theorem loaded_number {field : NumberField} {rule : NumberRule}
    (entry : (key, .number field rule) ∈ payloadTable event.eventType) :
    (populate overflow copy (readPayload event)).number field =
      if rule.writes (event.number field) then toInt64 overflow (float64 (event.number field))
      else copy.number field := by
  have reads : (populateArm event.eventType).numbers.lookup field = some key := by
    simpa using (arms_fit event.eventType).read _ entry
  simp only [populate, partialCopy.eventType, reads, Option.bind_some, findNumber, readPayload,
    payload_entry entry, PayloadSource.value]
  split <;> simp_all

theorem unloaded_number {field : NumberField}
    (absent : field ∉ (payloadNumbers event.eventType).map Prod.fst) :
    (populate overflow copy (readPayload event)).number field = copy.number field := by
  simp only [populate, partialCopy.eventType]
  cases reads : (populateArm event.eventType).numbers.lookup field with
  | none => rfl
  | some key =>
    rcases (arms_fit event.eventType).numbers _ (mem_of_lookup reads) with carried | unread
    · exact (absent carried).elim
    · simp [findNumber, readPayload, payload_unwritten unread]

theorem loaded_flag {field : FlagField} (entry : (key, .flag field) ∈ payloadTable event.eventType) :
    (populate overflow copy (readPayload event)).flag field = event.flag field := by
  have reads : (populateFlags event.eventType).lookup field = some key := by
    simpa using (arms_fit event.eventType).read _ entry
  simp only [populate, partialCopy.eventType, reads, Option.bind_some, findFlag, readPayload,
    payload_entry entry, PayloadSource.value]
  cases set : event.flag field with
  | true => simp
  | false =>
    rcases partialCopy.flag field with unset | same
    · simp [unset]
    · simp [same, set]

theorem unloaded_flag {field : FlagField} (absent : field ∉ payloadFlags event.eventType) :
    (populate overflow copy (readPayload event)).flag field = copy.flag field := by
  simp only [populate, partialCopy.eventType]
  cases reads : (populateFlags event.eventType).lookup field with
  | none => rfl
  | some key => exact (absent ((arms_fit event.eventType).flags _ (mem_of_lookup reads))).elim

end Load

theorem exists_of_rawTexts (carried : field ∈ rawTexts eventType) :
    ∃ key always, (key, .text field always) ∈ payloadTable eventType := by
  obtain ⟨⟨key, source⟩, member, carried⟩ := mem_filterMap.mp carried
  cases source <;> cases carried
  exact ⟨key, _, member⟩

theorem exists_of_encodedTexts (carried : field ∈ encodedTexts eventType) :
    ∃ key always, (key, .base64 field always) ∈ payloadTable eventType := by
  obtain ⟨⟨key, source⟩, member, carried⟩ := mem_filterMap.mp carried
  cases source <;> cases carried
  exact ⟨key, _, member⟩

theorem mem_payloadNumbers {field : NumberField} {rule : NumberRule} :
    (field, rule) ∈ payloadNumbers eventType ↔
      ∃ key, (key, .number field rule) ∈ payloadTable eventType := by
  simp only [payloadNumbers, mem_filterMap, Prod.exists]
  constructor
  · rintro ⟨key, source, member, carried⟩
    cases source <;> cases carried
    exact ⟨key, member⟩
  · rintro ⟨key, member⟩
    exact ⟨key, _, member, rfl⟩

theorem exists_of_payloadFlags {field : FlagField} (carried : field ∈ payloadFlags eventType) :
    ∃ key, (key, .flag field) ∈ payloadTable eventType := by
  obtain ⟨⟨key, source⟩, member, carried⟩ := mem_filterMap.mp carried
  cases source <;> cases carried
  exact ⟨key, member⟩

/-- A record of which only the row is known. -/
def StoredEvent.blank (event : StoredEvent) : StoredEvent where
  step := event.step
  eventType := event.eventType
  timestampMs := event.timestampMs

theorem blank_number (event : StoredEvent) (field : NumberField) : event.blank.number field = 0 :=
  rfl

theorem blank_partialCopy (event : StoredEvent) : PartialCopy event.blank event where
  eventType := rfl
  text _ := .inl rfl
  number _ := .inl rfl
  flag _ := .inl rfl

/-- The texts that a replay reads from a record at its step, by the kind of the record. The first
ones are quoted by a call that has found a record of another kind. -/
def replayedTexts (eventType : EventType) : List TextField :=
  [.request, .pluginInput, .pluginOutput, .fetchMethod, .fetchURL, .fetchBody, .fetchResponse,
    .detachedName, .cronWorkflowName, .cronExpr, .cronTimezone, .cronInput] ++
  match eventType with
  | .call => [.service, .op, .response, .err]
  | .callAttemptFailed => [.service, .op]
  | .awaitSignals => [.signalNames]
  | .signalReceived => [.signalName, .signalPayload]
  | .defer => [.deferDescription, .deferID]
  | .childWorkflow => [.runID]
  | .continueAsNew => [.newInput]
  | .pluginCall => [.pluginName, .pluginFunc, .pluginError]
  | .createPromise => [.promiseID]
  | .promiseResolved => [.promiseResult]
  | .promiseRejected => [.promiseError]
  | .updateReceived => [.updateHandlerName, .updatePayload, .updateRequestID]
  | .runDetached => [.detachedRunID]
  | .sideEffect => [.sideEffectResult]
  | .scheduleCron | .deleteCron => [.cronScheduleID, .err]
  | .listCrons => [.cronResult, .err]
  | .scopeAcquired | .fetch | .acquireLock | .releaseLock => [.err]
  | .awaitChild => [.response, .err]
  | .awaitAllChildren | .awaitAnyChild => [.response]
  | _ => []

/-- The numbers that a replay reads. -/
def replayedNumbers : EventType → List NumberField
  | .awaitSignals | .awaitPromise => [.timeoutMs]
  | .continueAsNew => [.newVersion]
  | .pluginCallStreamChunk => [.streamChunkIndex, .streamErrCode]
  | .acquireLock => [.lockAcquired]
  | _ => []

/-- The flags that a replay reads. Those of a plugin call say whether it may be made again. -/
def replayedFlags : EventType → List FlagField
  | .call => [.errNonRetryable]
  | .pluginCall => [.idempotent, .sameValueOnReplay]
  | .pluginCallStreamChunk => [.streamFinish]
  | _ => []

/-- Two records agree on what a replay reads. -/
structure SameReplay (record event : StoredEvent) : Prop where
  step : record.step = event.step
  eventType : record.eventType = event.eventType
  timestampMs : record.timestampMs = event.timestampMs
  texts : ∀ field ∈ replayedTexts event.eventType, record.text field = event.text field
  numbers : ∀ field ∈ replayedNumbers event.eventType, record.number field = event.number field
  flags : ∀ field ∈ replayedFlags event.eventType, record.flag field = event.flag field

/-- An event of which the payload keeps what matters. Of what a replay reads, texts that are not
written in base64 are UTF-8, numbers are not left out for being negative, and nothing is set that
the arm of the type leaves out. Every number that is written survives as a double. -/
structure PayloadKeeps (overflow : Int) (event : StoredEvent) : Prop where
  texts : ∀ field ∈ replayedTexts event.eventType, field ∈ rawTexts event.eventType →
    validUTF8 (event.text field) = true
  otherTexts : ∀ field ∈ replayedTexts event.eventType, field ∉ rawTexts event.eventType →
    field ∉ encodedTexts event.eventType → event.text field = []
  numbers : ∀ field ∈ replayedNumbers event.eventType,
    (field, .positive) ∈ payloadNumbers event.eventType → 0 ≤ event.number field
  otherNumbers : ∀ field ∈ replayedNumbers event.eventType,
    field ∉ (payloadNumbers event.eventType).map Prod.fst → event.number field = 0
  otherFlags : ∀ field ∈ replayedFlags event.eventType, field ∉ payloadFlags event.eventType →
    event.flag field = false
  written : ∀ field rule, (field, rule) ∈ payloadNumbers event.eventType →
    rule.writes (event.number field) = true → Survives overflow (event.number field)

/-- A hash of a document and of the checksum before it, if there is one. -/
abbrev ChainHash (Document Checksum : Type) := Document → Option Checksum → Checksum

/-- The checksum of an event, chained to the previous one if there is one. The hash is any
function of the document and the previous checksum. -/
def computeEventChecksum {Checksum : Type} (platform : Platform Document)
    (hash : ChainHash Document Checksum) (event : StoredEvent)
    (previous : Option Checksum) : Checksum :=
  hash (platform.document event) previous

theorem survives_zero (overflow : Int) : Survives overflow 0 := .inl (dvd_zero _)

/-- A number is read back into a blank record unless it is written and does not survive, or is
left out for being negative. -/
theorem number_kept_iff {overflow number : Int} (rule : NumberRule) (typed : Int64Range number) :
    (if rule.writes number then toInt64 overflow (float64 number) else 0) = number ↔
      (rule.writes number = true → Survives overflow number) ∧ (rule = .positive → 0 ≤ number) := by
  rw [← toInt64_float64_eq_iff typed]
  cases rule with
  | always => simp [NumberRule.writes]
  | nonzero =>
    by_cases empty : number = 0
    · simp [NumberRule.writes, empty]
    · simp [NumberRule.writes, empty]
  | positive =>
    simp only [NumberRule.writes, decide_eq_true_eq, forall_const]
    split <;> omega

variable {copy : StoredEvent} {overflow : Int}

/-- A number that is not written stays unwritten in a partial copy. -/
theorem copy_unwritten {field : NumberField} (partialCopy : PartialCopy copy event) {rule : NumberRule}
    (omitted : rule.writes (event.number field) = false) :
    rule.writes (copy.number field) = false := by
  rcases partialCopy.number field with zero | same
  · rw [zero]
    cases rule with
    | always => simp [NumberRule.writes] at omitted
    | nonzero => rfl
    | positive => rfl
  · rw [same]
    exact omitted

/-- The value of a key in an event that was loaded, as it is written again. A number stands
out, since it is read as a double. -/
theorem loaded_value_iff (partialCopy : PartialCopy copy event)
    (typed : ∀ field, Int64Range (event.number field)) {key : PayloadKey} {source : PayloadSource}
    (entry : (key, source) ∈ payloadTable event.eventType) :
    ((source.value (populate overflow copy (readPayload event))).map PayloadValue.written =
        (source.value event).map PayloadValue.written) ↔
      ∀ field rule, source = .number field rule →
        rule.writes (event.number field) = true → Survives overflow (event.number field) := by
  cases source with
  | text field always =>
    simp only [PayloadSource.value, loaded_raw partialCopy entry, ne_eq, toValidUTF8_eq_nil_iff,
      reduceCtorEq, false_implies, implies_true, iff_true]
    split <;> simp [toValidUTF8_idem]
  | base64 field always =>
    simp [PayloadSource.value, loaded_encoded partialCopy entry]
  | flag field => simp [PayloadSource.value, loaded_flag partialCopy entry]
  | number field rule =>
    have only : (∀ other rule', PayloadSource.number field rule = .number other rule' →
        rule'.writes (event.number other) = true → Survives overflow (event.number other)) ↔
        (rule.writes (event.number field) = true → Survives overflow (event.number field)) := by
      constructor
      · intro each
        exact each field rule rfl
      · rintro here other rule' ⟨⟩
        exact here
    rw [only, PayloadSource.value, PayloadSource.value, loaded_number partialCopy entry]
    cases writes : rule.writes (event.number field) with
    | false => simp [copy_unwritten partialCopy writes]
    | true =>
      simp only [if_true, forall_const, Option.map_some, PayloadValue.written]
      rw [← toInt64_float64_eq_iff (typed field)]
      constructor
      · intro same
        split at same
        · simpa using same
        · simp at same
      · intro same
        rw [same, writes]
        rfl

/-- The document of a loaded event is the one that was stored exactly if the numbers survive. -/
theorem document_loaded_iff (platform : Platform Document) (partialCopy : PartialCopy copy event)
    (typed : ∀ field, Int64Range (event.number field)) :
    platform.document (populate platform.overflow copy (readPayload event)) =
        platform.document event ↔
      ∀ field rule, (field, rule) ∈ payloadNumbers event.eventType →
        rule.writes (event.number field) = true →
          Survives platform.overflow (event.number field) := by
  have sameType : (populate platform.overflow copy (readPayload event)).eventType =
      event.eventType := partialCopy.eventType
  rw [Platform.document, Platform.document, platform.marshal_eq_iff]
  constructor
  · intro same field rule member
    obtain ⟨key, entry⟩ := mem_payloadNumbers.mp member
    have here := same key
    rw [payload_entry entry, payload_entry (sameType ▸ entry)] at here
    exact (loaded_value_iff partialCopy typed entry).mp here field rule rfl
  · intro survives key
    cases found : (payloadTable event.eventType).lookup key with
    | none =>
      have absent : unwritten event.eventType key = true := by simp [unwritten, found]
      rw [payload_unwritten absent, payload_unwritten (sameType ▸ absent)]
    | some source =>
      have entry := mem_of_lookup found
      rw [payload_entry entry, payload_entry (sameType ▸ entry), loaded_value_iff partialCopy typed entry]
      rintro field rule rfl
      exact survives field rule (mem_payloadNumbers.mpr ⟨key, entry⟩)

/-- An event comes back from its payload in what a replay reads, and with its checksum under
every hash, exactly if the payload keeps what matters of it. -/
theorem payload_round_trip (platform : Platform Document) (event : StoredEvent)
    (typed : ∀ field, Int64Range (event.number field)) :
    (SameReplay (populateFromPayload platform event.blank (platform.document event)) event ∧
        ∀ (Checksum : Type) (hash : ChainHash Document Checksum) previous,
          computeEventChecksum platform hash
              (populateFromPayload platform event.blank (platform.document event)) previous =
            computeEventChecksum platform hash event previous) ↔
      PayloadKeeps platform.overflow event := by
  rw [populateFromPayload_document]
  have copy := blank_partialCopy event
  have loaded {field : NumberField} {rule : NumberRule}
      (member : (field, rule) ∈ payloadNumbers event.eventType) :
      (populate platform.overflow event.blank (readPayload event)).number field =
          event.number field ↔
        (rule.writes (event.number field) = true →
          Survives platform.overflow (event.number field)) ∧
        (rule = .positive → 0 ≤ event.number field) := by
    obtain ⟨key, entry⟩ := mem_payloadNumbers.mp member
    rw [loaded_number copy entry, blank_number, number_kept_iff rule (typed field)]
  constructor
  · rintro ⟨same, checksums⟩
    constructor
    · intro field read raw
      obtain ⟨key, always, entry⟩ := exists_of_rawTexts raw
      rw [← toValidUTF8_eq_self_iff, ← loaded_raw copy entry]
      exact same.texts field read
    · intro field read raw encoded
      rw [← same.texts field read, loaded_absent copy raw encoded]
      rfl
    · intro field read member
      exact ((loaded member).mp (same.numbers field read)).2 rfl
    · intro field read absent
      rw [← same.numbers field read, unloaded_number copy absent]
      rfl
    · intro field read absent
      rw [← same.flags field read, unloaded_flag copy absent]
      rfl
    · -- The hash that is the document itself tells whether the numbers survive.
      exact (document_loaded_iff platform copy typed).mp
        (checksums Document (fun document _ => document) none)
  · intro keeps
    refine ⟨⟨rfl, rfl, rfl, fun field read => ?_, fun field read => ?_, fun field read => ?_⟩, ?_⟩
    · by_cases raw : field ∈ rawTexts event.eventType
      · obtain ⟨key, always, entry⟩ := exists_of_rawTexts raw
        rw [loaded_raw copy entry, toValidUTF8_eq_self_iff]
        exact keeps.texts field read raw
      · by_cases encoded : field ∈ encodedTexts event.eventType
        · obtain ⟨key, always, entry⟩ := exists_of_encodedTexts encoded
          exact loaded_encoded copy entry
        · rw [loaded_absent copy raw encoded, keeps.otherTexts field read raw encoded]
          rfl
    · by_cases carried : field ∈ (payloadNumbers event.eventType).map Prod.fst
      · obtain ⟨⟨_, rule⟩, member, rfl⟩ := mem_map.mp carried
        refine (loaded member).mpr ⟨keeps.written _ rule member, ?_⟩
        rintro rfl
        exact keeps.numbers _ read member
      · rw [unloaded_number copy carried, keeps.otherNumbers field read carried]
        rfl
    · by_cases carried : field ∈ payloadFlags event.eventType
      · obtain ⟨key, entry⟩ := exists_of_payloadFlags carried
        exact loaded_flag copy entry
      · rw [unloaded_flag copy carried, keeps.otherFlags field read carried]
        rfl
    · intro Checksum hash previous
      exact congrArg (hash · previous) ((document_loaded_iff platform copy typed).mpr keeps.written)

/-- An await with a timeout that no double holds. -/
def longAwait : StoredEvent where
  step := 0
  eventType := .awaitSignals
  number := fun field => if field = .timeoutMs then 2 ^ 53 + 1 else 0

/-- The timeout of the await comes back one smaller. -/
theorem long_timeout_rounded :
    ¬(SameReplay (populateFromPayload plainPlatform longAwait.blank
          (plainPlatform.document longAwait)) longAwait ∧
        ∀ (Checksum : Type) (hash : ChainHash Payload Checksum) previous,
          computeEventChecksum plainPlatform hash
              (populateFromPayload plainPlatform longAwait.blank
                (plainPlatform.document longAwait)) previous =
            computeEventChecksum plainPlatform hash longAwait previous) := by
  rintro ⟨same, _⟩
  have timeout := same.numbers .timeoutMs (by decide)
  revert timeout
  decide +kernel

/-- A call whose request is no text. -/
def binaryCall : StoredEvent where
  step := 0
  eventType := .call
  text := fun field => if field = .request then [0xFF, 0x00] else []
  number := fun field => if field = .durationMs then 25 else 0

theorem payload_round_trip_binary :
    SameReplay (populateFromPayload plainPlatform binaryCall.blank
        (plainPlatform.document binaryCall)) binaryCall ∧
      ∀ (Checksum : Type) (hash : ChainHash Payload Checksum) previous,
        computeEventChecksum plainPlatform hash
            (populateFromPayload plainPlatform binaryCall.blank
              (plainPlatform.document binaryCall)) previous =
          computeEventChecksum plainPlatform hash binaryCall previous := by
  refine (payload_round_trip plainPlatform binaryCall ?_).mpr ⟨?_, ?_, ?_, ?_, ?_, ?_⟩
  · intro field
    cases field <;> decide
  · decide
  · decide
  · decide
  · decide
  · decide
  · intro field rule member _
    have only : payloadNumbers binaryCall.eventType = [(.durationMs, .positive)] := rfl
    rw [only, mem_singleton] at member
    cases member
    exact .inl (by decide)

end Cleat
