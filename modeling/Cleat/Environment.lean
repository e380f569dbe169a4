import Cleat.Event
import Cleat.Durable.Program

/-!
# The engine and what surrounds it

`Engine` holds the configuration a session reads. Everything else a host call
depends on is asked of the environment, one `Query` at a time: the clock, the event
store, the service a call is sent to, the promise, signal and concurrency-key
stores, and the worker's own shutdown flags. Answers are arbitrary, which covers
every service behaviour, every store failure and every clock.

An absent hook of the worker, such as a missing admission check or stop context,
behaves as one that always gives the permissive answer, so no separate
configuration is kept for it. Logging, metrics and tracing are left out.
-/
namespace Cleat

open Durable

/-- The durability an operation asks for. -/
inductive CallSemantics where
  | atLeastOnce | writeAheadIntent
deriving DecidableEq, Repr

/-- What a plugin function's registration says about calling it again: that this has no
further effect, and that it returns the same value. -/
structure ReplayPolicy where
  idempotent : Bool := false
  sameValueOnReplay : Bool := false
deriving DecidableEq, Repr

/-- A replay may call the function instead of returning what is recorded. -/
def ReplayPolicy.mayReInvokeOnReplay (policy : ReplayPolicy) : Bool :=
  policy.idempotent && policy.sameValueOnReplay

/-- A registered plugin function. -/
structure PluginRegistration where
  policy : ReplayPolicy := {}
  secretOnlyFields : List String := []
deriving DecidableEq, Repr

/-- One chunk of a stream. -/
structure StreamEvent where
  index : Int
  content : String
  finish : Bool
deriving DecidableEq, Repr

/-- A schedule as its store lists it. -/
structure ScheduleInfo where
  name : String
  defName : String := ""
  cronExpression : String := ""
  timezone : String := ""
  input : String := ""
  disabled : Bool := false
deriving DecidableEq, Repr

/-- What the engine is configured with, and the library functions it calls: the
checksum of an event after its predecessor's, the digests used for idempotency keys
and for shortened payloads, JSON decoding of a list of strings, the quoted form
of a text, the text of a duration, and the two floating-point computations on retry intervals. Durations are in
nanoseconds.

The functions of the second group are those of plugins, schedules and child workflows: the
check and the redaction of secret fields, JSON encoding of a text and of a stream, the text of a
JSON decoding error, the compact form of a JSON value, the validity of the arguments of a
schedule, the digest a schedule is named by, the report of an unknown close policy, and JSON
encoding of a list of schedules. -/
structure Engine where
  workflowID : String := ""
  defName : String := ""
  db : Bool := true
  signalStore : Bool := true
  promiseStore : Bool := true
  concurrencyKeyStore : Bool := true
  maxEventsPerWorkflow : Nat := 0
  workflowStartMs : Int := 0
  deferPhase : Bool := false
  requireSignalAuth : Bool := false
  intentOps : List String := []
  intentStoreError : Option String := none
  intentResolver : Bool := true
  ambiguityResolver : Bool := false
  idempotencyKeyReplayer : Bool := false
  idempotencyKeyOps : List String := []
  idempotencyKeyRetentionMs : Int := 0
  intentClock : Bool := true
  idempotentCaller : Bool := true
  maxRetries : Int := 0
  hostRetryBudgetCeiling : Int := 0
  tenantHostRetryBudget : Int := 0
  runHostRetryBudget : Int := 0
  computeEventChecksum : EventRecord → String → String := fun _ _ => ""
  keyDigest : List UInt8 → String := fun _ => ""
  payloadDigest : List UInt8 → String := fun _ => ""
  unmarshalStrings : String → Option (List String) := fun _ => none
  quoteString : String → String := id
  durationString : Int → String := fun _ => ""
  powTrunc : Int → Int → Int := fun _ _ => 1
  scaleInterval : Int → Int → Int := fun interval _ => interval
  tenantID : String := ""
  workflowStore : Bool := true
  childWfStore : Bool := true
  updateStore : Bool := true
  maxQuotaConcurrencyKeys : Int := 0
  maxQuotaChildren : Int := 0
  maxQuotaSchedules : Int := 0
  pluginRegistry : Option (String → String → Option PluginRegistration) := none
  pluginStreamRegistry : Option (String → String → Option (List String)) := none
  pluginCallGuard : Bool := false
  callerPluginName : String := ""
  childBindingOverride : String := ""
  childBindingPolicy : String := ""
  childVersions : Option (String → Option Int) := none
  checkSecretOnlyFields : List String → String → String := fun _ _ => ""
  redactSecretOnlyFields : List String → String → String := fun _ input => input
  marshalString : String → String := id
  marshalChunks : List StreamEvent → String := fun _ => ""
  unmarshalStringsError : String → String := fun _ => ""
  compactJSON : String → Option String := some
  validJSON : String → Bool := fun _ => true
  validateCronExpr : String → Option String := fun _ => none
  validateTimezone : String → Option String := fun _ => none
  locationFallsBack : String → Bool := fun _ => false
  scheduleDigest : List UInt8 → String := fun _ => ""
  parentClosePolicyError : String → String := id
  fetcher : Bool := true
  marshalSchedules : List ScheduleInfo → String := fun _ => ""

/-- What became of an event's durable write. -/
inductive EventPersistence where
  | notAttempted | persisted | flushFailed
deriving DecidableEq, Repr

/-- A failed service call: its text, what it returned beside the error, whether it
reports itself retryable, the code of the service's own error if it has one, and the
engine's classification. -/
structure CallFailure where
  message : String
  response : String := ""
  retryable : Option Bool := none
  serviceCode : String := ""
  errorClass : String := ""
deriving DecidableEq, Repr

/-- What a service answers. -/
abbrev ServiceAnswer := Except CallFailure String

/-- A promise as its store reports it. -/
inductive PromiseState where
  | pending
  | resolved (result : String)
  | rejected (reason : String)
deriving DecidableEq, Repr

/-- A stored signal. -/
structure SignalDelivery where
  id : Int
  payload : String
  deliveredAtMs : Int := 0
deriving DecidableEq, Repr

/-- The statuses of a run. -/
inductive RunStatus where
  | ready | running | terminating | done | failed | deadLettered | terminated | cancelled
deriving DecidableEq, Repr

/-- The run is over. -/
def RunStatus.settled : RunStatus → Bool
  | .done | .failed | .deadLettered | .terminated | .cancelled => true
  | .ready | .running | .terminating => false

/-- The last run of a child as its store has it. -/
structure ChildRow where
  status : RunStatus
  result : Option String := none
  errMsg : Option String := none
deriving DecidableEq, Repr

/-- A request to update a workflow, as it is queued. -/
structure UpdateRequestInfo where
  requestID : String
  updateName : String
  payload : String
  promiseID : String
deriving DecidableEq, Repr

/-- A resolver's verdict on a call whose outcome was lost. -/
inductive AmbiguityOutcome where
  | cannotSay | resolved | notSent
deriving DecidableEq, Repr

/-- The verdict of repeating a call under its original idempotency key. -/
inductive IdempotencyReplayOutcome where
  | cannotSay | resolved | retryLater
deriving DecidableEq, Repr

/-- How a wait between two attempts of a call ends. -/
inductive Backoff where
  | elapsed
  | contextDone (reason : String)
  | shutdownRequested
deriving DecidableEq, Repr

/-- The questions a host call can put to its environment. A panic of the host is a
question that is never answered. -/
inductive Query where
  | now
  | shutdownObserved
  | hardStopObserved
  | canStartNewWork
  | flushEvent (record : EventRecord) (checksum : String)
  | pollCancellation
  | callService (service operation request : String) (step : Nat) (key : Option String)
  | writeCallIntent (intent : EventRecord)
  | completeCallIntent (record : EventRecord) (checksum : String)
  | resolveCallIntent (record : EventRecord)
  | serverNow
  | replayUnderOriginalKey (service operation request key : String)
  | resolveCall (service operation key : String)
  | replayBackoff
  | newUUID
  | createPromise (name promiseID : String)
  | getPromise (promiseID : String)
  | pollSignal (name : String)
  | consumeSignal (id : Int)
  | signalAuthCheck (target : String)
  | deliverSignal (target name payload : String)
  | acquireConcurrencyKey (key : String)
  | releaseConcurrencyKey (key : String)
  | backoff (milliseconds : Int)
  | heartbeatTicks
  | hostPanic
  | checkPluginCall (caller pluginName : String)
  | callPlugin (pluginName functionName input : String) (step : Nat)
  | openStream (pluginName functionName input : String) (step : Nat)
  | nextChunk
  | getConcurrencyKeyCount
  | acquireLockKey (key : String) (ttlMs : Int)
  | listSchedules
  | createSchedule (name workflowName cronExpr input timezone : String)
  | deleteSchedule (name : String)
  | fetch (method url headersJSON body : String)
  | startChildWorkflow (parentID name input : String) (version : Int)
  | resolveVersionByTag (name tag : String)
  | getChildCount
  | startChildWorkflowAtomic (parentID name input : String) (version : Int)
      (parentClosePolicy : String) (event : EventRecord) (priority : Int)
  | getChildResult (runID : String)
  | getChildCompletedAtMs (runID : String)
  | pollCancellationReason
  | getPendingUpdateRequests
  | completeUpdateRequest (requestID : List UInt8) (result errMsg : String)
  | resolvePromise (promiseID : List UInt8) (value : String)
  | rejectPromise (promiseID : List UInt8) (errMsg : String)

/-- The type of the answer to each query. A fallible operation answers with its
error's text, a written intent with the database time of its row, a replay wait with
whether it was allowed to end by itself, and a call with heartbeats with the number of
ticks before its result arrives. A plugin function may return an output beside its error, and a
stream that is opened answers with the number of chunks before it ends. A schedule that is to be
deleted answers with whether there was one, and a fetch may return a response beside its error. -/
abbrev Answer : Query → Type
  | .now => Int
  | .shutdownObserved => Bool
  | .hardStopObserved => Bool
  | .canStartNewWork => Bool
  | .flushEvent _ _ => EventPersistence
  | .pollCancellation => Except String Bool
  | .callService _ _ _ _ _ => ServiceAnswer
  | .writeCallIntent _ => Except String Int
  | .completeCallIntent _ _ => Except String Unit
  | .resolveCallIntent _ => Except String Unit
  | .serverNow => Except String Int
  | .replayUnderOriginalKey _ _ _ _ => Except String (String × IdempotencyReplayOutcome)
  | .resolveCall _ _ _ => Except String (String × AmbiguityOutcome)
  | .replayBackoff => Bool
  | .newUUID => Except String String
  | .createPromise _ _ => Except String Unit
  | .getPromise _ => Except String PromiseState
  | .pollSignal _ => Except String (Option SignalDelivery)
  | .consumeSignal _ => Except String Unit
  | .signalAuthCheck _ => Except String Unit
  | .deliverSignal _ _ _ => Except String Unit
  | .acquireConcurrencyKey _ => Except String Bool
  | .releaseConcurrencyKey _ => Except String Bool
  | .backoff _ => Backoff
  | .heartbeatTicks => Nat
  | .hostPanic => Empty
  | .checkPluginCall _ _ => Except String Unit
  | .callPlugin _ _ _ _ => String × Option String
  | .openStream _ _ _ _ => Except String Nat
  | .nextChunk => StreamEvent
  | .getConcurrencyKeyCount => Except String Int
  | .acquireLockKey _ _ => Except String Bool
  | .listSchedules => Except String (List ScheduleInfo)
  | .createSchedule _ _ _ _ _ => Except String Unit
  | .deleteSchedule _ => Except String Bool
  | .fetch _ _ _ _ => String × Option String
  | .startChildWorkflow _ _ _ _ => Except String String
  | .resolveVersionByTag _ _ => Except String Int
  | .getChildCount => Except String Int
  | .startChildWorkflowAtomic _ _ _ _ _ _ _ => Except String String
  | .getChildResult _ => Except String (Option ChildRow)
  | .getChildCompletedAtMs _ => Except String (Option Int)
  | .pollCancellationReason => Except String (Bool × String)
  | .getPendingUpdateRequests => Except String (List UpdateRequestInfo)
  | .completeUpdateRequest _ _ _ => Except String Unit
  | .resolvePromise _ _ => Except String Unit
  | .rejectPromise _ _ => Except String Unit

/-- A host call's work: a program over the engine's queries. -/
abbrev Work := Program Query Answer

/-- One answered query of the engine. -/
abbrev Observed := Observation Query Answer

/-- What a host call has asked and been answered. -/
abbrev Trace := List Observed

/-- Ask the environment. -/
def ask (query : Query) : Work (Answer query) := Program.perform query

theorem ask_eq (query : Query) : ask query = .ask query .done := rfl

end Cleat
