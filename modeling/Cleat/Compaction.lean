import Cleat.Durable.Fields
import Cleat.Retries
import Cleat.Scope
import Cleat.StoredEvent
import Mathlib

/-!
# Compaction of a history

A long history is shortened by replacing its oldest rows by one compaction state, from
which the executor rebuilds the events when the workflow runs again. An event is stored
under a numeric code and shares a small set of fields with all other events: each arm of
the encoder says which fields of a record are kept and where, and each arm of the decoder
puts them back.

The arms are tables here, so what compaction keeps of an event can be read off them.
-/
namespace Cleat

open Durable List Option

attribute [local simp] EventRecord.stored heartbeatEvent

def defaultMaxCompactedEvents : Nat := 10000

/-- The code under which an event type is compacted. -/
def eventTypeToCode : EventType → Nat
  | .call => 30
  | .callAttemptFailed => 36
  | .awaitSignals => 2
  | .signalReceived => 3
  | .defer => 4
  | .childWorkflow => 5
  | .awaitChild => 6
  | .continueAsNew => 7
  | .heartbeat => 8
  | .awaitAllChildren => 9
  | .pluginCall => 10
  | .createPromise => 11
  | .awaitPromise => 12
  | .promiseResolved => 13
  | .promiseRejected => 14
  | .updateHandler => 15
  | .updateReceived => 34
  | .updateCompleted => 35
  | .stateMutation => 16
  | .runDetached => 17
  | .pluginCallStreamChunk => 20
  | .durableLog => 24
  | .acquireLock => 18
  | .releaseLock => 19
  | .sideEffect => 21
  | .scopeAcquired => 22
  | .durableSend => 25
  | .durableScheduleInvoke => 26
  | .fetch => 23
  | .pollChild => 32
  | .awaitAnyChild => 31
  | .adminAction => 33
  | .scheduleCron => 27
  | .deleteCron => 28
  | .listCrons => 29

def codeToEventType : Nat → Option EventType
  | 30 => some .call
  | 36 => some .callAttemptFailed
  | 2 => some .awaitSignals
  | 3 => some .signalReceived
  | 4 => some .defer
  | 5 => some .childWorkflow
  | 6 => some .awaitChild
  | 7 => some .continueAsNew
  | 8 => some .heartbeat
  | 9 => some .awaitAllChildren
  | 10 => some .pluginCall
  | 11 => some .createPromise
  | 12 => some .awaitPromise
  | 13 => some .promiseResolved
  | 14 => some .promiseRejected
  | 15 => some .updateHandler
  | 34 => some .updateReceived
  | 35 => some .updateCompleted
  | 16 => some .stateMutation
  | 17 => some .runDetached
  | 20 => some .pluginCallStreamChunk
  | 24 => some .durableLog
  | 18 => some .acquireLock
  | 19 => some .releaseLock
  | 21 => some .sideEffect
  | 22 => some .scopeAcquired
  | 25 => some .durableSend
  | 26 => some .durableScheduleInvoke
  | 23 => some .fetch
  | 32 => some .pollChild
  | 31 => some .awaitAnyChild
  | 33 => some .adminAction
  | 27 => some .scheduleCron
  | 28 => some .deleteCron
  | 29 => some .listCrons
  | _ => none

theorem codeToEventType_eventTypeToCode (eventType : EventType) :
    codeToEventType (eventTypeToCode eventType) = some eventType := by
  cases eventType <;> rfl

attribute [local simp] codeToEventType_eventTypeToCode

/-- A code that stands for an event type. -/
structure EventCode where
  value : Nat
  known : (codeToEventType value).isSome

def EventCode.ofType (eventType : EventType) : EventCode where
  value := eventTypeToCode eventType
  known := by simp

def EventCode.eventType (code : EventCode) : EventType := (codeToEventType code.value).get code.known

@[simp] theorem EventCode.eventType_ofType (eventType : EventType) :
    (EventCode.ofType eventType).eventType = eventType := by
  simp [EventCode.eventType, EventCode.ofType]

/-- The text fields of a compacted event. -/
inductive CompactedText where
  | service | op | request | response | error | signalNames | signalName | signalPayload
  | deferID | deferDesc | childName | childInput | runID | newInput | promiseName | promiseID
  | promiseResult | promiseError | errCode | resolvedBy | stateKeys | parentWorkflowID
  | parentClosePolicy | pluginName | pluginFunc | pluginInput | pluginOutput | pluginError
deriving DecidableEq, Repr

/-- The numeric fields of a compacted event. -/
inductive CompactedNumber where
  | durationMs | timeoutMs | newVersion | streamChunkIndex | streamErrCode
deriving DecidableEq, Repr

/-- The flags of a compacted event. -/
inductive CompactedFlag where
  | errNonRetryable | retriesExhausted | streamFinish
deriving DecidableEq, Repr

/-- The sparse form of one event. -/
structure CompactedEvent where
  code : EventCode
  timestampMs : Int
  text : CompactedText → Bytes
  number : CompactedNumber → Int
  flag : CompactedFlag → Bool

/-- An arm of the encoder: which field of the compacted event takes which field of the
record. A number may be kept as the text of its decimal digits. -/
structure ExtractArm where
  texts : List (CompactedText × TextField) := []
  numbers : List (CompactedNumber × NumberField) := []
  flags : List (CompactedFlag × FlagField) := []
  decimals : List (CompactedText × NumberField) := []

/-- The arms of the encoder. An event type without one is refused. -/
def extractArm : EventType → Option ExtractArm
  | .call => some
      { texts := [(.service, .service), (.op, .op), (.request, .request), (.response, .response),
          (.error, .err), (.errCode, .errCode), (.resolvedBy, .resolvedBy)]
        numbers := [(.durationMs, .durationMs)]
        flags := [(.errNonRetryable, .errNonRetryable), (.retriesExhausted, .retriesExhausted)] }
  | .awaitSignals => some
      { texts := [(.signalNames, .signalNames)]
        numbers := [(.timeoutMs, .timeoutMs)] }
  | .signalReceived => some
      { texts := [(.signalName, .signalName), (.signalPayload, .signalPayload)] }
  | .defer => some { texts := [(.deferID, .deferID), (.deferDesc, .deferDescription)] }
  | .childWorkflow => some
      { texts := [(.childName, .childName), (.childInput, .childInput), (.runID, .runID),
          (.parentWorkflowID, .parentWorkflowID), (.parentClosePolicy, .parentClosePolicy)] }
  | .awaitChild => some { texts := [(.runID, .runID), (.response, .response), (.error, .err)] }
  | .continueAsNew => some
      { texts := [(.newInput, .newInput)]
        numbers := [(.newVersion, .newVersion)] }
  | .heartbeat => some { texts := [(.service, .service), (.op, .op)] }
  | .awaitAllChildren => some { texts := [(.response, .response)] }
  | .pluginCall => some
      { texts := [(.pluginName, .pluginName), (.pluginFunc, .pluginFunc),
          (.pluginInput, .pluginInput), (.pluginOutput, .pluginOutput),
          (.pluginError, .pluginError)] }
  | .createPromise => some { texts := [(.promiseName, .promiseName), (.promiseID, .promiseID)] }
  | .awaitPromise => some { texts := [(.promiseID, .promiseID)] }
  | .promiseResolved => some
      { texts := [(.promiseID, .promiseID), (.promiseResult, .promiseResult)] }
  | .promiseRejected => some
      { texts := [(.promiseID, .promiseID), (.promiseError, .promiseError)] }
  | .updateHandler => some { texts := [(.promiseName, .updateHandlerName)] }
  | .updateReceived => some
      { texts := [(.promiseName, .updateHandlerName), (.promiseID, .updateRequestID),
          (.request, .updatePayload)] }
  | .updateCompleted => some
      { texts := [(.promiseName, .updateHandlerName), (.promiseID, .updateRequestID),
          (.response, .updateResponse), (.error, .updateError)] }
  | .awaitAnyChild | .pollChild => some
      { texts := [(.request, .request), (.response, .response)] }
  | .adminAction => some { texts := [(.response, .response), (.request, .request)] }
  | .stateMutation => some
      { texts := [(.childName, .stateKey), (.response, .stateValue), (.promiseName, .stateOp),
          (.stateKeys, .stateKeys)]
        numbers := [(.durationMs, .stateDelta)] }
  | .runDetached => some
      { texts := [(.childName, .detachedName), (.childInput, .detachedInput),
          (.runID, .detachedRunID)] }
  | .durableLog => some { texts := [(.response, .message), (.service, .logLevel), (.op, .logKV)] }
  | .fetch => some
      { texts := [(.service, .fetchMethod), (.op, .fetchURL), (.request, .fetchHeaders),
          (.childInput, .fetchBody), (.response, .fetchResponse), (.error, .err)] }
  | .scheduleCron | .deleteCron | .listCrons => some
      { texts := [(.childName, .cronWorkflowName), (.service, .cronExpr), (.op, .cronTimezone),
          (.childInput, .cronInput), (.runID, .cronScheduleID), (.response, .cronResult),
          (.error, .err)] }
  | .acquireLock => some
      { texts := [(.childName, .lockKey)]
        numbers := [(.durationMs, .lockTTLMs)]
        decimals := [(.response, .lockAcquired)] }
  | .releaseLock => some { texts := [(.childName, .lockKey)] }
  | .sideEffect => some { texts := [(.response, .sideEffectResult)] }
  | .scopeAcquired => some { texts := [(.childName, .scopeKey)] }
  | .pluginCallStreamChunk => some
      { texts := [(.pluginName, .pluginName), (.pluginFunc, .pluginFunc),
          (.pluginInput, .pluginInput), (.pluginOutput, .pluginOutput),
          (.pluginError, .pluginError)]
        numbers := [(.streamChunkIndex, .streamChunkIndex), (.streamErrCode, .streamErrCode)]
        flags := [(.streamFinish, .streamFinish)] }
  | .durableSend => some { texts := [(.service, .service), (.op, .op), (.request, .request)] }
  | .durableScheduleInvoke => some
      { texts := [(.service, .service), (.op, .op), (.request, .request)]
        numbers := [(.durationMs, .durationMs)] }
  | .callAttemptFailed => none

/-- An arm of the decoder: which field of the record takes which field of the compacted
event. -/
structure RestoreArm where
  texts : List (TextField × CompactedText) := []
  numbers : List (NumberField × CompactedNumber) := []
  flags : List (FlagField × CompactedFlag) := []
  scanned : List (NumberField × CompactedText) := []

/-- The arms of the decoder, by the event type that the code stands for. -/
def restoreArm : EventType → RestoreArm
  | .call =>
    { texts := [(.service, .service), (.op, .op), (.request, .request), (.response, .response),
        (.err, .error), (.errCode, .errCode), (.resolvedBy, .resolvedBy)]
      numbers := [(.durationMs, .durationMs)]
      flags := [(.errNonRetryable, .errNonRetryable), (.retriesExhausted, .retriesExhausted)] }
  | .awaitSignals =>
    { texts := [(.signalNames, .signalNames)]
      numbers := [(.timeoutMs, .timeoutMs)] }
  | .signalReceived => { texts := [(.signalName, .signalName), (.signalPayload, .signalPayload)] }
  | .defer => { texts := [(.deferID, .deferID), (.deferDescription, .deferDesc)] }
  | .childWorkflow =>
    { texts := [(.childName, .childName), (.childInput, .childInput), (.runID, .runID),
        (.parentWorkflowID, .parentWorkflowID), (.parentClosePolicy, .parentClosePolicy)] }
  | .awaitChild => { texts := [(.response, .response), (.err, .error), (.runID, .runID)] }
  | .continueAsNew =>
    { texts := [(.newInput, .newInput)]
      numbers := [(.newVersion, .newVersion)] }
  | .heartbeat => { texts := [(.service, .service), (.op, .op)] }
  | .awaitAllChildren => { texts := [(.response, .response)] }
  | .pluginCall =>
    { texts := [(.pluginName, .pluginName), (.pluginFunc, .pluginFunc),
        (.pluginInput, .pluginInput), (.pluginOutput, .pluginOutput),
        (.pluginError, .pluginError)] }
  | .createPromise => { texts := [(.promiseName, .promiseName), (.promiseID, .promiseID)] }
  | .awaitPromise => { texts := [(.promiseID, .promiseID)] }
  | .promiseResolved => { texts := [(.promiseID, .promiseID), (.promiseResult, .promiseResult)] }
  | .promiseRejected => { texts := [(.promiseID, .promiseID), (.promiseError, .promiseError)] }
  | .updateHandler => { texts := [(.updateHandlerName, .promiseName)] }
  | .updateReceived =>
    { texts := [(.updateHandlerName, .promiseName), (.updateRequestID, .promiseID),
        (.updatePayload, .request)] }
  | .updateCompleted =>
    { texts := [(.updateHandlerName, .promiseName), (.updateRequestID, .promiseID),
        (.updateResponse, .response), (.updateError, .error)] }
  | .awaitAnyChild | .pollChild => { texts := [(.request, .request), (.response, .response)] }
  | .adminAction => { texts := [(.request, .request), (.response, .response)] }
  | .stateMutation =>
    { texts := [(.stateKey, .childName), (.stateValue, .response), (.stateOp, .promiseName),
        (.stateKeys, .stateKeys)]
      numbers := [(.stateDelta, .durationMs)] }
  | .runDetached =>
    { texts := [(.detachedName, .childName), (.detachedInput, .childInput),
        (.detachedRunID, .runID)] }
  | .durableLog => { texts := [(.message, .response), (.logLevel, .service), (.logKV, .op)] }
  | .fetch =>
    { texts := [(.fetchMethod, .service), (.fetchURL, .op), (.fetchHeaders, .request),
        (.fetchBody, .childInput), (.fetchResponse, .response), (.err, .error)] }
  | .scheduleCron | .deleteCron | .listCrons =>
    { texts := [(.cronWorkflowName, .childName), (.cronExpr, .service), (.cronTimezone, .op),
        (.cronInput, .childInput), (.cronScheduleID, .runID), (.cronResult, .response),
        (.err, .error)] }
  | .acquireLock =>
    { texts := [(.lockKey, .childName)]
      numbers := [(.lockTTLMs, .durationMs)]
      scanned := [(.lockAcquired, .response)] }
  | .releaseLock => { texts := [(.lockKey, .childName)] }
  | .sideEffect => { texts := [(.sideEffectResult, .response)] }
  | .scopeAcquired => { texts := [(.scopeKey, .childName)] }
  | .pluginCallStreamChunk =>
    { texts := [(.pluginName, .pluginName), (.pluginFunc, .pluginFunc),
        (.pluginInput, .pluginInput), (.pluginOutput, .pluginOutput),
        (.pluginError, .pluginError)]
      numbers := [(.streamChunkIndex, .streamChunkIndex), (.streamErrCode, .streamErrCode)]
      flags := [(.streamFinish, .streamFinish)] }
  | .durableSend => { texts := [(.service, .service), (.op, .op), (.request, .request)] }
  | .durableScheduleInvoke =>
    { texts := [(.service, .service), (.op, .op), (.request, .request)]
      numbers := [(.durationMs, .durationMs)] }
  | .callAttemptFailed => {}

/-- The decimal digits of a number. -/
def formatDecimal (number : Int) : Bytes := bytesOf number.repr

/-- The number a text spells in decimal digits, and zero if it spells none. -/
def scanDecimal (text : Bytes) : Int :=
  ((String.fromUTF8? ⟨text.toArray⟩).bind String.toInt?).getD 0

theorem scanDecimal_formatDecimal (number : Int) : scanDecimal (formatDecimal number) = number := by
  have encoded : (⟨(formatDecimal number).toArray⟩ : ByteArray) = number.repr.toUTF8 := rfl
  have decoded : String.fromUTF8? number.repr.toUTF8 = some number.repr := by
    unfold String.fromUTF8?
    simp [String.toUTF8_eq_toByteArray, number.repr.isValidUTF8]
    rfl
  rw [scanDecimal, encoded, decoded, bind_some, Int.toInt?_repr, getD_some]

/-- An event in its sparse form, by the arm of its type. -/
def compactBy (arm : ExtractArm) (event : StoredEvent) : CompactedEvent where
  code := .ofType event.eventType
  timestampMs := event.timestampMs
  text field := (arm.decimals.lookup field).elim (fill [] arm.texts event.text field)
    fun number => formatDecimal (event.number number)
  number := fill 0 arm.numbers event.number
  flag := fill false arm.flags event.flag

/-- An event in its sparse form. An event type without an arm is refused. -/
def compactEvent (event : StoredEvent) : Except String CompactedEvent :=
  match extractArm event.eventType with
  | some arm => .ok (compactBy arm event)
  | none => .error (s!"compact: event type \"{event.eventType.name}\" maps to code " ++
      s!"{eventTypeToCode event.eventType} but has no field-copy arm; refusing to compact " ++
      "rather than storing an empty record (IMPROVEMENT-PLAN 3.217)")

def compactEvents : List StoredEvent → Except String (List CompactedEvent)
  | [] => .ok []
  | event :: rest => do
      let first ← compactEvent event
      let later ← compactEvents rest
      pure (first :: later)

attribute [local simp] compactEvents

/-- What is stored in place of the compacted rows. -/
structure CompactionState where
  compactedStep : Nat
  events : List CompactedEvent

/-- The state that stands for some events. Only the last `defaultMaxCompactedEvents` of
them are kept. -/
def extractCompactionState (events : List StoredEvent) : Except String CompactionState := do
  let compacted ← compactEvents events
  let truncated := compacted.length - defaultMaxCompactedEvents
  pure { compactedStep := events.length - truncated, events := compacted.drop truncated }

/-- The event that a compacted one stands for, at its position in the rebuilt history. -/
def restoreEvent (index : Nat) (compacted : CompactedEvent) : StoredEvent :=
  let arm := restoreArm compacted.code.eventType
  { step := index
    eventType := compacted.code.eventType
    timestampMs := compacted.timestampMs
    text := fill [] arm.texts compacted.text
    number := fun field => (arm.scanned.lookup field).elim
      (fill 0 arm.numbers compacted.number field) fun text => scanDecimal (compacted.text text)
    flag := fill false arm.flags compacted.flag }

/-- The whole history: the compacted events, restored, in front of the rows. -/
def buildFullHistoryFromCompaction (tail : List StoredEvent) (state : CompactionState) :
    List StoredEvent :=
  state.events.mapIdx restoreEvent ++ tail

attribute [local simp] buildFullHistoryFromCompaction

/-- The two arms of a type fit together: what the decoder reads was written from the field
that it fills. -/
structure Coherent (extract : ExtractArm) (restore : RestoreArm) : Prop where
  texts : ∀ pair ∈ restore.texts,
    extract.decimals.lookup pair.2 = none ∧ extract.texts.lookup pair.2 = some pair.1
  numbers : Undoes restore.numbers extract.numbers
  flags : Undoes restore.flags extract.flags
  scanned : ∀ pair ∈ restore.scanned, extract.decimals.lookup pair.2 = some pair.1

theorem arms_coherent {eventType : EventType} {arm : ExtractArm}
    (extracts : extractArm eventType = some arm) : Coherent arm (restoreArm eventType) := by
  cases eventType with
  | callAttemptFailed => cases extracts
  | _ =>
    cases extracts
    exact ⟨by decide, by decide, by decide, by decide⟩

/-- The numbers a decoder's arm fills. -/
def RestoreArm.restoredNumbers (arm : RestoreArm) : List NumberField :=
  filled arm.numbers ++ filled arm.scanned

/-- An event of which compaction keeps everything: its type has an arm, and no other field
is set than those the arm carries. -/
structure Compactable (event : StoredEvent) : Prop where
  accepted : extractArm event.eventType ≠ none
  texts : ∀ field, field ∉ filled (restoreArm event.eventType).texts → event.text field = []
  numbers : ∀ field, field ∉ (restoreArm event.eventType).restoredNumbers → event.number field = 0
  flags : ∀ field, field ∉ filled (restoreArm event.eventType).flags → event.flag field = false

section RoundTrip

variable {arm : ExtractArm} {event : StoredEvent} (extracts : extractArm event.eventType = some arm)
include extracts

theorem restored_text (index : Nat) (field : TextField) :
    (restoreEvent index (compactBy arm event)).text field =
      if field ∈ filled (restoreArm event.eventType).texts then event.text field else [] := by
  simp only [restoreEvent, compactBy, EventCode.eventType_ofType]
  refine fill_reads (fun pair member => ?_) field
  obtain ⟨direct, written⟩ := (arms_coherent extracts).texts pair member
  simp [direct, fill, written]

theorem restored_number (index : Nat) (field : NumberField) :
    (restoreEvent index (compactBy arm event)).number field =
      if field ∈ (restoreArm event.eventType).restoredNumbers then event.number field else 0 := by
  simp only [restoreEvent, compactBy, EventCode.eventType_ofType]
  cases found : (restoreArm event.eventType).scanned.lookup field with
  | some text =>
    have member := mem_of_lookup found
    have inside : field ∈ (restoreArm event.eventType).restoredNumbers :=
      mem_append.mpr (.inr (mem_map.mpr ⟨_, member, rfl⟩))
    have written := (arms_coherent extracts).scanned _ member
    simp [inside, written, scanDecimal_formatDecimal]
  | none =>
    have outside := not_filled_of_lookup found
    rw [elim_none, fill_reads ((arms_coherent extracts).numbers.reads event.number)]
    simp [RestoreArm.restoredNumbers, outside]

theorem restored_flag (index : Nat) (field : FlagField) :
    (restoreEvent index (compactBy arm event)).flag field =
      if field ∈ filled (restoreArm event.eventType).flags then event.flag field else false := by
  simp only [restoreEvent, compactBy, EventCode.eventType_ofType]
  exact fill_reads ((arms_coherent extracts).flags.reads event.flag) field

/-- An event comes back unchanged exactly if it stands at its step and compaction keeps
everything of it. -/
theorem restoreEvent_compactBy_eq_iff (index : Nat) :
    restoreEvent index (compactBy arm event) = event ↔ event.step = index ∧ Compactable event := by
  constructor
  · intro same
    refine ⟨(congrArg StoredEvent.step same).symm, by simp [extracts], ?_, ?_, ?_⟩
    · intro field absent
      have here := restored_text extracts index field
      rw [same, if_neg absent] at here
      exact here
    · intro field absent
      have here := restored_number extracts index field
      rw [same, if_neg absent] at here
      exact here
    · intro field absent
      have here := restored_flag extracts index field
      rw [same, if_neg absent] at here
      exact here
  · rintro ⟨rfl, compactable⟩
    refine StoredEvent.ext rfl (by simp [restoreEvent, compactBy]) rfl ?_ ?_ ?_
    · funext field
      rw [restored_text extracts]
      split
      · rfl
      · rename_i absent
        exact (compactable.texts field absent).symm
    · funext field
      rw [restored_number extracts]
      split
      · rfl
      · rename_i absent
        exact (compactable.numbers field absent).symm
    · funext field
      rw [restored_flag extracts]
      split
      · rfl
      · rename_i absent
        exact (compactable.flags field absent).symm

end RoundTrip

theorem compactEvent_eq_ok_iff {event : StoredEvent} {compacted : CompactedEvent} :
    compactEvent event = .ok compacted ↔
      ∃ arm, extractArm event.eventType = some arm ∧ compacted = compactBy arm event := by
  cases extracts : extractArm event.eventType with
  | none => simp [compactEvent, extracts]
  | some arm => simp [compactEvent, extracts, eq_comm]

variable {events : List StoredEvent} {compacted : List CompactedEvent} {state : CompactionState}

/-- The events are compacted one by one, and all of them or none. -/
theorem compactEvents_eq_ok_iff :
    compactEvents events = .ok compacted ↔
      List.Forall₂ (fun event kept => compactEvent event = .ok kept) events compacted := by
  induction events generalizing compacted with
  | nil => simp [eq_comm]
  | cons event rest hypothesis =>
    rw [forall₂_cons_left_iff]
    constructor
    · intro accepted
      cases first : compactEvent event with
      | error refusal => simp [first, bind, Except.bind] at accepted
      | ok kept =>
        cases remaining : compactEvents rest with
        | error refusal => simp [first, remaining, bind, Except.bind] at accepted
        | ok later =>
          simp only [compactEvents, first, remaining, bind, Except.bind, pure, Except.pure,
            Except.ok.injEq] at accepted
          exact ⟨kept, later, rfl, hypothesis.mp remaining, accepted.symm⟩
    · rintro ⟨kept, later, first, remaining, rfl⟩
      simp [first, hypothesis.mpr remaining, bind, Except.bind, pure, Except.pure]

theorem compactEvents_length (accepted : compactEvents events = .ok compacted) :
    compacted.length = events.length :=
  (compactEvents_eq_ok_iff.mp accepted).length_eq.symm

/-- Events are refused exactly if the type of one of them has no arm. -/
theorem compactEvents_accepts_iff :
    (∃ compacted, compactEvents events = .ok compacted) ↔
      ∀ event ∈ events, extractArm event.eventType ≠ none := by
  induction events with
  | nil => simp
  | cons event rest hypothesis =>
    rw [forall_mem_cons, ← hypothesis]
    simp only [compactEvents_eq_ok_iff, forall₂_cons_left_iff, compactEvent_eq_ok_iff]
    constructor
    · rintro ⟨_, kept, later, ⟨arm, extracts, _⟩, remaining, rfl⟩
      exact ⟨by simp [extracts], later, remaining⟩
    · rintro ⟨armed, later, remaining⟩
      obtain ⟨arm, extracts⟩ := ne_none_iff_exists'.mp armed
      exact ⟨_, compactBy arm event, later, ⟨arm, extracts, rfl⟩, remaining, rfl⟩

/-- The state that stands for events of which every one was accepted. -/
theorem extractCompactionState_eq_ok_iff :
    extractCompactionState events = .ok state ↔
      ∃ compacted, compactEvents events = .ok compacted ∧
        state.events = compacted.drop (events.length - defaultMaxCompactedEvents) ∧
        state.compactedStep = events.length - (events.length - defaultMaxCompactedEvents) := by
  cases accepted : compactEvents events with
  | error refusal => simp [extractCompactionState, accepted, bind, Except.bind]
  | ok compacted =>
    simp only [extractCompactionState, accepted, bind, Except.bind, pure, Except.pure,
      Except.ok.injEq, compactEvents_length accepted]
    -- The limit is a large literal, which must not be unfolded.
    generalize events.length - defaultMaxCompactedEvents = truncated
    constructor
    · rintro rfl
      exact ⟨compacted, rfl, rfl, rfl⟩
    · rintro ⟨_, rfl, kept, counted⟩
      rw [← kept, ← counted]

theorem extractCompactionState_accepts (armed : ∀ event ∈ events, extractArm event.eventType ≠ none) :
    ∃ state, extractCompactionState events = .ok state := by
  obtain ⟨compacted, accepted⟩ := compactEvents_accepts_iff.mpr armed
  simp [extractCompactionState, accepted, bind, Except.bind, pure, Except.pure]

theorem extractCompactionState_accepted (extracted : extractCompactionState events = .ok state) :
    ∀ event ∈ events, extractArm event.eventType ≠ none := by
  obtain ⟨compacted, accepted, _⟩ := extractCompactionState_eq_ok_iff.mp extracted
  exact compactEvents_accepts_iff.mp ⟨compacted, accepted⟩

/-- No event is dropped up to the limit. -/
theorem extractCompactionState_bounded (bounded : events.length ≤ defaultMaxCompactedEvents) :
    extractCompactionState events = .ok state ↔
      compactEvents events = .ok state.events ∧ state.compactedStep = events.length := by
  rw [extractCompactionState_eq_ok_iff, Nat.sub_eq_zero_of_le bounded]
  constructor
  · rintro ⟨compacted, accepted, rfl, counted⟩
    exact ⟨accepted, counted⟩
  · rintro ⟨accepted, counted⟩
    exact ⟨state.events, accepted, rfl, counted⟩

/-- The events of a state come back as they were, each at its position. -/
theorem mapIdx_restoreEvent_eq_iff (accepted : compactEvents events = .ok compacted) :
    compacted.mapIdx restoreEvent = events ↔
      ∀ index event, events[index]? = some event → event.step = index ∧ Compactable event := by
  have pairs := compactEvents_eq_ok_iff.mp accepted
  have restores : ∀ index event, events[index]? = some event →
      ((compacted.mapIdx restoreEvent)[index]? = some event ↔
        event.step = index ∧ Compactable event) := by
    intro index event found
    obtain ⟨inside, rfl⟩ := List.getElem?_eq_some_iff.mp found
    have placed : index < compacted.length := pairs.length_eq ▸ inside
    obtain ⟨arm, extracts, kept⟩ :=
      compactEvent_eq_ok_iff.mp (List.Forall₂.get pairs inside placed)
    rw [get_eq_getElem, get_eq_getElem] at kept
    rw [getElem?_mapIdx, getElem?_eq_getElem placed, map_some, some_inj,
      kept]
    exact restoreEvent_compactBy_eq_iff extracts index
  constructor
  · intro same index event found
    exact (restores index event found).mp (same ▸ found)
  · intro kept
    refine ext_getElem? fun index => ?_
    cases found : events[index]? with
    | some event => exact (restores index event found).mpr (kept index event found)
    | none =>
      rw [List.getElem?_eq_none_iff, ← pairs.length_eq.symm] at found
      simpa using found

/-- The events that compaction puts away come back in front of the tail, unchanged, exactly
if each stands at its step and compaction keeps everything of it. -/
theorem compaction_round_trip (compacted tail : List StoredEvent)
    (bounded : compacted.length ≤ defaultMaxCompactedEvents) :
    (∃ state, extractCompactionState compacted = .ok state ∧
        buildFullHistoryFromCompaction tail state = compacted ++ tail) ↔
      ∀ index event, compacted[index]? = some event → event.step = index ∧ Compactable event := by
  constructor
  · rintro ⟨state, extracted, rebuilt⟩
    obtain ⟨accepted, _⟩ := (extractCompactionState_bounded bounded).mp extracted
    rw [← mapIdx_restoreEvent_eq_iff accepted]
    exact append_cancel_right rebuilt
  · intro kept
    have armed : ∀ event ∈ compacted, extractArm event.eventType ≠ none := by
      intro event member
      obtain ⟨index, found⟩ := getElem?_of_mem member
      exact (kept index event found).2.accepted
    obtain ⟨state, extracted⟩ := extractCompactionState_accepts armed
    obtain ⟨accepted, _⟩ := (extractCompactionState_bounded bounded).mp extracted
    refine ⟨state, extracted, ?_⟩
    rw [buildFullHistoryFromCompaction, (mapIdx_restoreEvent_eq_iff accepted).mpr kept]

/-- A service call's record is kept whole. -/
theorem callEvent_compactable (step : Nat) (service operation request response err : String) :
    Compactable (callEvent step service operation request response err).stored where
  accepted := by simp [callEvent, extractArm]
  texts field absent := by
    change field ∉ filled (restoreArm .call).texts at absent
    cases field <;> first | rfl | exact absent.elim (by decide)
  numbers field _ := by
    cases field <;> rfl
  flags field _ := by
    cases field <;> rfl

/-- A scope that was refused is recorded with an error. Compaction drops the error, and the
record that comes back reports a scope that was acquired. -/
theorem refused_scope_comes_back_acquired :
    ¬∃ state, extractCompactionState [(scopeEvent 0 "cart/7" "held by another run").stored] = .ok state ∧
      buildFullHistoryFromCompaction [(callEvent 1 "svc" "op" "" "" "").stored] state =
        [(scopeEvent 0 "cart/7" "held by another run").stored,
          (callEvent 1 "svc" "op" "" "" "").stored] := by
  rintro ⟨state, extracted, rebuilt⟩
  obtain ⟨accepted, _⟩ := (extractCompactionState_bounded (by decide)).mp extracted
  have kept := (mapIdx_restoreEvent_eq_iff accepted).mp (append_cancel_right rebuilt)
  have vacant := (kept 0 _ rfl).2.texts .err (by decide)
  revert vacant
  decide +kernel

theorem compaction_round_trip_call :
    ∃ state, extractCompactionState [(callEvent 0 "svc" "op" "{}" "ok" "").stored] = .ok state ∧
      buildFullHistoryFromCompaction [(scopeEvent 1 "cart/7" "held by another run").stored] state =
        [(callEvent 0 "svc" "op" "{}" "ok" "").stored] ++
          [(scopeEvent 1 "cart/7" "held by another run").stored] := by
  refine (compaction_round_trip _ _ (by decide)).mpr ?_
  intro index event found
  cases index with
  | zero =>
    cases found
    exact ⟨rfl, callEvent_compactable 0 "svc" "op" "{}" "ok" ""⟩
  | succ index => simp at found

/-- Every event stands at its step. -/
def StepDense (history : List StoredEvent) : Prop :=
  ∀ (index : Nat) (event : StoredEvent), history[index]? = some event → event.step = index

/-- The check an executor makes before it replays a history. -/
def validateReplayStepDensity (history : List StoredEvent) : Except String Unit :=
  match history.zipIdx.find? fun entry => entry.1.step != entry.2 with
  | none => .ok ()
  | some (event, index) =>
    .error (s!"event {index} of {history.length} carries step {event.step}: the history is " ++
      "missing at least one record, so replay would consume step " ++
      s!"{event.step}'s result where step {index}'s is expected and " ++
      "then re-execute the remainder as though the workflow had reached the end of its history")

theorem validateReplayStepDensity_eq_ok_iff {history : List StoredEvent} :
    validateReplayStepDensity history = .ok () ↔ StepDense history := by
  have passes : validateReplayStepDensity history = .ok () ↔
      (history.zipIdx.find? fun entry => entry.1.step != entry.2) = none := by
    unfold validateReplayStepDensity
    split
    · rename_i found
      simp only [found]
    · rename_i found
      simp [found]
  rw [passes, find?_eq_none]
  constructor
  · intro dense index event found
    have here := dense (event, index) (mem_zipIdx_iff_getElem?.mpr found)
    simpa using here
  · rintro dense ⟨event, index⟩ member
    have here := dense index event (mem_zipIdx_iff_getElem?.mp member)
    simpa using here

/-- What a segment hands back to be stored: its history without the events that were
restored from the compaction state. -/
def stripCompactedEvents (history : List StoredEvent) (compactedStep : Nat) : List StoredEvent :=
  if compactedStep = 0 ∨ history.length ≤ compactedStep then history
  else history.drop compactedStep

/-- The step from which on rows are kept: the last half of the threshold. -/
def keepStep (effective : Nat) (events : List StoredEvent) : Nat := events.length - effective / 2

/-- A compacted history can be resumed: the rebuilt one passes the check, and a segment
that records new events hands back the rows that were kept and the new ones. -/
def Resumable (tail : List StoredEvent) (state : CompactionState) : Prop :=
  validateReplayStepDensity (buildFullHistoryFromCompaction tail state) = .ok () ∧
    ∀ recorded, stripCompactedEvents (buildFullHistoryFromCompaction tail state ++ recorded)
      state.compactedStep = tail ++ recorded

/-- A state counts the events it holds, which are as many as it was given up to the limit. -/
theorem extractCompactionState_count (extracted : extractCompactionState events = .ok state) :
    state.events.length = state.compactedStep ∧
      state.compactedStep = min events.length defaultMaxCompactedEvents := by
  obtain ⟨compacted, accepted, kept, counted⟩ := extractCompactionState_eq_ok_iff.mp extracted
  rw [kept, counted, length_drop, compactEvents_length accepted]
  exact ⟨rfl, by omega⟩

/-- A compacted history of which the rows begin at some step can be resumed exactly if
there are rows left and the restored events reach up to that step.

Proof: the restored events are numbered from zero and the rows keep their steps, so the
numbers run on only if the rows begin where the restored events end. Without rows the
history that a segment hands back is not cut. -/
theorem resumable_iff {tail : List StoredEvent} {start : Nat}
    (counted : state.events.length = state.compactedStep) (positive : 0 < state.compactedStep)
    (placed : ∀ (index : Nat) (event : StoredEvent),
      tail[index]? = some event → event.step = start + index) :
    Resumable tail state ↔ tail ≠ [] ∧ state.compactedStep = start := by
  have restored : (state.events.mapIdx restoreEvent).length = state.compactedStep := by
    rw [length_mapIdx, counted]
  constructor
  · rintro ⟨dense, cut⟩
    have left : tail ≠ [] := by
      rintro rfl
      have uncut := cut []
      rw [stripCompactedEvents, if_pos (.inr (by simp [counted]))]
        at uncut
      have empty := congrArg length uncut
      simp only [buildFullHistoryFromCompaction, append_nil, restored, length_nil] at empty
      omega
    obtain ⟨event, rest, rfl⟩ := exists_cons_of_ne_nil left
    have here := validateReplayStepDensity_eq_ok_iff.mp dense state.compactedStep event
      (by simp [restored])
    have there := placed 0 event rfl
    exact ⟨left, by omega⟩
  · rintro ⟨left, rfl⟩
    refine ⟨validateReplayStepDensity_eq_ok_iff.mpr ?_, fun recorded => ?_⟩
    · intro index event found
      rw [buildFullHistoryFromCompaction, getElem?_append] at found
      split at found
      · obtain ⟨compacted, _, rfl⟩ := map_eq_some_iff.mp (getElem?_mapIdx ▸ found)
        rfl
      · have there := placed _ event found
        omega
    · have longer := length_pos_iff.mpr left
      rw [stripCompactedEvents, if_neg]
      · rw [buildFullHistoryFromCompaction, append_assoc, drop_left' restored]
      · simp only [buildFullHistoryFromCompaction, length_append, restored]
        omega

/-- A dense history that compaction shortens can be resumed exactly if no compacted event
is dropped and a row is kept. -/
theorem compaction_resumable (events : List StoredEvent) (effective : Nat) (state : CompactionState)
    (dense : StepDense events) (shortened : effective < events.length)
    (extracted : extractCompactionState (events.take (keepStep effective events)) = .ok state) :
    Resumable (events.drop (keepStep effective events)) state ↔
      keepStep effective events ≤ defaultMaxCompactedEvents ∧ 2 ≤ effective := by
  obtain ⟨counted, bounded⟩ := extractCompactionState_count extracted
  have front : (events.take (keepStep effective events)).length = keepStep effective events := by
    rw [length_take, keepStep]
    omega
  have positive : 0 < keepStep effective events := by
    rw [keepStep]
    omega
  have room : 0 < defaultMaxCompactedEvents := by decide
  have placed : ∀ (index : Nat) (event : StoredEvent),
      (events.drop (keepStep effective events))[index]? = some event →
        event.step = keepStep effective events + index := by
    intro index event found
    rw [getElem?_drop] at found
    exact dense _ event found
  rw [front] at bounded
  rw [resumable_iff counted (by omega) placed, bounded, ← length_pos_iff, length_drop,
    keepStep]
  omega

/-- As many heartbeats, each at its step. -/
def heartbeatHistory (count : Nat) : List StoredEvent :=
  (range count).map fun step => (heartbeatEvent step "svc" "op").stored

attribute [local simp] heartbeatHistory

theorem heartbeatHistory_dense (count : Nat) : StepDense (heartbeatHistory count) := by
  intro index event found
  obtain ⟨step, counted, rfl⟩ := map_eq_some_iff.mp (getElem?_map ▸ found)
  obtain ⟨_, rfl⟩ := List.getElem?_eq_some_iff.mp counted
  simp

theorem heartbeatHistory_extracted (count keep : Nat) :
    ∃ state, extractCompactionState ((heartbeatHistory count).take keep) = .ok state := by
  have armed : ∀ event ∈ (heartbeatHistory count).take keep, extractArm event.eventType ≠ none := by
    intro event member
    obtain ⟨step, _, rfl⟩ := mem_map.mp (mem_of_mem_take member)
    simp [extractArm]
  exact extractCompactionState_accepts armed

/-- Of a history with more events than the limit the oldest are dropped. The restored ones
are numbered from zero, the row behind them is not the next one, and the executor refuses
the history. -/
theorem long_history_refused :
    ∃ state, extractCompactionState
        ((heartbeatHistory 10004).take (keepStep 2 (heartbeatHistory 10004))) = .ok state ∧
      ¬Resumable ((heartbeatHistory 10004).drop (keepStep 2 (heartbeatHistory 10004))) state := by
  have kept : keepStep 2 (heartbeatHistory 10004) = 10003 := by simp [keepStep]
  rw [kept]
  obtain ⟨state, extracted⟩ := heartbeatHistory_extracted 10004 10003
  refine ⟨state, extracted, ?_⟩
  rintro ⟨dense, _⟩
  obtain ⟨counted, bounded⟩ := extractCompactionState_count extracted
  have full : state.events.length = 10000 := by
    rw [counted, bounded]
    simp [defaultMaxCompactedEvents]
  have behind : (buildFullHistoryFromCompaction ((heartbeatHistory 10004).drop 10003) state)[10000]? =
      some (heartbeatEvent 10003 "svc" "op").stored := by
    rw [buildFullHistoryFromCompaction, getElem?_append_right (by simp [full])]
    simp [full]
  exact absurd (validateReplayStepDensity_eq_ok_iff.mp dense _ _ behind)
    (by simp)

theorem compaction_resumable_short :
    ∃ state, extractCompactionState
        ((heartbeatHistory 4).take (keepStep 2 (heartbeatHistory 4))) = .ok state ∧
      Resumable ((heartbeatHistory 4).drop (keepStep 2 (heartbeatHistory 4))) state := by
  obtain ⟨state, extracted⟩ := heartbeatHistory_extracted 4 (keepStep 2 (heartbeatHistory 4))
  have resumable := compaction_resumable (heartbeatHistory 4) 2 state (heartbeatHistory_dense 4)
    (by decide) extracted
  exact ⟨state, extracted, resumable.mpr ⟨by decide, by decide⟩⟩

end Cleat
