import Cleat.DurableCalls
import Cleat.Position

/-!
# Replaying durable calls

What a service call writes and how it replays. A call that is allowed to record its
outcome owns one row: the `call` event of its service and operation. Until the outcome
of a write-ahead call is known that row is pending, and a replay may have to report the
call as ambiguous.

A call that is refused before it starts owns no row, and one that failed without a text
owns the row of a success. Neither returns the same again when it is replayed:
`CallAllowed` is the condition under which a call does.
-/
namespace Cleat

open Durable Durable.Program List

variable {engine : Engine} {s : ExecSession} {service operation : String} {buffer : OutBuf}
  {rows : History} {Usual : Observed → Prop} {observed : Observed} {trace : Trace}

/-- Every event of a service call is persisted, and no wait between attempts is aborted. -/
def Recordable : Observed → Prop
  | ⟨.flushEvent _ _, answer⟩ => answer = .persisted
  | ⟨.writeCallIntent _, .error _⟩ => False
  | ⟨.completeCallIntent _ _, .error _⟩ => False
  | ⟨.backoff _, .contextDone _⟩ => False
  | _ => True

instance : DecidablePred Recordable := fun observed => by
  obtain ⟨query, answer⟩ := observed
  cases query with
  | flushEvent record checksum =>
    exact inferInstanceAs (Decidable (answer = EventPersistence.persisted))
  | writeCallIntent intent | completeCallIntent record checksum =>
    cases answer with
    | error reason => exact instDecidableFalse
    | ok value => exact instDecidableTrue
  | backoff milliseconds =>
    cases answer with
    | contextDone reason => exact instDecidableFalse
    | _ => exact instDecidableTrue
  | _ => exact instDecidableTrue

/-- A row of a call to this operation. -/
structure CallRow (service operation : String) (row : EventRecord) : Prop where
  kind : row.eventType = .call
  service : row.service = service
  operation : row.op = operation

/-- The reply of a call whose outcome is unknown. -/
def ambiguousReply (buffer : OutBuf) (row : EventRecord) : Reply :=
  callFailed buffer (bytesOf (ambiguousCallError row)) callErrorUnknown

attribute [local simp] ambiguousReply

/-- The replies of calls that failed without a text. -/
def Unexplained (buffer : OutBuf) (reply : Reply) : Prop :=
  ∃ nonRetryable, reply = callFailed buffer [] (recordedFailureCode nonRetryable)

instance (buffer : OutBuf) : DecidablePred (Unexplained buffer) := fun reply => by
  unfold Unexplained
  infer_instance

/-- The replies of calls that are refused before they start: the run is cancelled, the
worker may not start work, or the operation needs an intent and none can be written. -/
def Refused (engine : Engine) (service operation : String) (buffer : OutBuf) (reply : Reply) :
    Prop :=
  reply = callFailed buffer (bytesOf cancelledCallError) callErrorUnknown ∨
    reply = callFailed buffer (bytesOf heartbeatPresumedLostCallError) callFailureCode ∨
    ∃ reason ∈ engine.intentStoreError,
      reply = callFailed buffer (bytesOf (intentUnusableError service operation reason))
        callFailureCode

instance (engine : Engine) (service operation : String) (buffer : OutBuf) :
    DecidablePred (Refused engine service operation buffer) :=
  fun _ => inferInstanceAs (Decidable (_ ∨ _ ∨ _))

/-- A service call owns one row. While the row is pending the call is in progress, or was
reported as ambiguous. A refused call owns none, and one that reached the event cap is in
progress behind the row of the continuation. -/
def callFormat (engine : Engine) (before : Standing) (service operation : String)
    (buffer : OutBuf) : Format where
  Block reply recorded block after :=
    (∃ row, block = [row] ∧ CallRow service operation row ∧ after = before.forward 1 ∧
      ((recorded = true ∧ row.pending = false ∧ reply = recordedReply buffer row) ∨
        (recorded = false ∧ row.pending = true ∧ reply = ambiguousReply buffer row) ∨
        (recorded = false ∧ row.pending = false ∧ Unexplained buffer reply))) ∨
      (block = [] ∧ recorded = false ∧ after = before ∧
        Refused engine service operation buffer reply)
  Tail tail := ∃ row, tail = [row] ∧
    (CallRow service operation row ∧ row.pending = true ∨ row.eventType = .continueAsNew)

@[simp] theorem suspends_recordedReply (buffer : OutBuf) (row : EventRecord) :
    (recordedReply buffer row).suspends = false := by
  unfold recordedReply
  split <;> simp

/-- A pending intent is sent again under its original key. -/
def isResend : Observed → Bool
  | ⟨.replayUnderOriginalKey _ _ _ _, _⟩ => true
  | _ => false

/-- A request that reaches the service. -/
def reachesService (observed : Observed) : Bool :=
  observed.query.dispatchStep.isSome || isResend observed

/-- A query that neither writes nor reaches the service. -/
def Idle (observed : Observed) : Prop :=
  observed.query.isWrite = false ∧ reachesService observed = false

/-- What of a trace writes or reaches the service. -/
def acts (trace : Trace) : Trace :=
  trace.filter fun observed => observed.query.isWrite || reachesService observed

section Acts

variable {α β : Type}

theorem Idle.undispatched (idle : Idle observed) : observed.query.dispatchStep = none := by
  have unsent := idle.2
  simp only [reachesService, Bool.or_eq_false_iff, Option.isSome_eq_false_iff,
    Option.isNone_iff_eq_none] at unsent
  exact unsent.1

theorem mem_acts : observed ∈ acts trace ↔ observed ∈ trace ∧ ¬ Idle observed := by
  simp [acts, Idle, ← Bool.or_eq_false_iff]

theorem acts_cons_idle (idle : Idle observed) : acts (observed :: trace) = acts trace := by
  simp only [acts, filter_cons, idle.1, idle.2, Bool.or_self, Bool.false_eq_true, if_false]

theorem foldl_acts {σ : Type} {change : σ → Observed → σ}
    (stays : ∀ state observed, Idle observed → change state observed = state) (state : σ) :
    (acts trace).foldl change state = trace.foldl change state := by
  induction trace generalizing state with
  | nil => rfl
  | cons observed trace ih =>
    rw [acts, filter_cons]
    split
    · exact ih _
    · rename_i idle
      rw [foldl_cons, stays state observed (by simpa [Idle] using idle)]
      exact ih state

theorem writes_acts : writes rows (acts trace) = writes rows trace :=
  foldl_acts (fun rows observed idle => applyObserved_read rows observed idle.1) rows

/-- A part of a program that neither writes nor sends, and what follows. -/
theorem ensures_acts_bind {program : Work α} {next : α → Work β} (post : Trace → Option β → Prop)
    (idle : program.Every fun query => ∀ answer, Idle ⟨query, answer⟩) (cut : post [] none)
    (later : ∀ value, (next value).Ensures Usual fun trace outcome => post (acts trace) outcome) :
    (program >>= next).Ensures Usual fun trace outcome => post (acts trace) outcome := by
  induction program with
  | done value => exact later value
  | ask query rest ih =>
    refine ⟨cut, fun answer _ => (ih answer (idle.2 answer)).mono fun trace _ holds => ?_⟩
    simpa only [acts_cons_idle (idle.1 answer)] using holds

theorem Leaves.of_acts {format : Format} {tail : History}
    {outcome : Option Replied} (leaves : Leaves format rows tail (acts trace) outcome) :
    Leaves format rows tail trace outcome where
  dispatched := by
    intro observed member step sent
    refine leaves.dispatched observed (mem_acts.mpr ⟨member, fun idle => ?_⟩) step sent
    rw [idle.undispatched] at sent
    cases sent
  left := by
    obtain ⟨written, wrote, dense, owned, ends⟩ := leaves.left
    refine ⟨written, writes_acts ▸ wrote, dense, ?_, ends⟩
    rintro ⟨observed, member, writes⟩
    refine owned ⟨observed, mem_acts.mpr ⟨member, fun idle => ?_⟩, writes⟩
    obtain ⟨query, answer⟩ := observed
    cases query <;> first | cases writes | cases idle.1

/-- A session a number of steps further. -/
structure Passes (s after : ExecSession) (count : Nat) : Prop where
  core : after.core = s.core
  step : after.stepCount = s.stepCount + count
  mode : after.isReplay = s.isReplay

theorem Passes.caught {s after : ExecSession} {count place : Nat} (passes : Passes s after count)
    (caught : Caught s place) : Caught after (place + count) :=
  ⟨passes.mode.trans caught.forward, by rw [passes.step, caught.position],
    caught.active.of_core passes.core⟩

variable (durable : FlushesPersist Usual)

include durable

/-- A program that records an event and goes on, in a session that may be suspended. -/
theorem ensures_acts_recordEvent {record : EventRecord}
    {next : EventPersistence × ExecSession → Work α} (post : Trace → Option α → Prop)
    (stored : engine.db = true) (forward : s.isReplay = false) (unstamped : record.timestampMs = 0)
    (cut : post [] none)
    (written : ∀ (clockMs : Int) (checksum : String) (after : ExecSession), Passes s after 1 →
      (next (.persisted, after)).Ensures Usual fun trace outcome =>
        post (⟨.flushEvent (stampEvent s record clockMs) checksum, .persisted⟩ :: acts trace)
          outcome) :
    (recordEvent engine s record >>= next).Ensures Usual fun trace outcome =>
      post (acts trace) outcome := by
  simp only [recordEvent_forward engine s record stored forward unstamped, ask_bind,
    done_bind, ensures_ask]
  refine ⟨cut, fun clockMs _ => ⟨cut, fun answer usual => ?_⟩⟩
  obtain rfl := durable _ _ _ usual
  exact written clockMs _ _ ⟨rfl, rfl, rfl⟩

end Acts

/-- A call as the guest makes it. -/
structure ServiceCall where
  service : String
  operation : String
  request : String
deriving DecidableEq, Repr

/-- A record of the call with what the service answered. -/
structure Tells (call : ServiceCall) (step : Nat) (answer : ServiceAnswer)
    (record : EventRecord) : Prop where
  own : record.step = step
  owned : CallRow call.service call.operation record
  settled : record.pending = false
  retryable : record.errNonRetryable = false
  response : record.response = outcomeResponse answer
  err : record.err = outcomeErr answer

/-- What a call that is executed writes and sends, up to where it is cut, and how it ends: nothing,
if it is refused or must stop; the event of the continuation; the request of an ordinary operation,
and its record; or an intent, the request of a write-ahead operation, and the completion of
the intent. -/
inductive CallActs (engine : Engine) (s : ExecSession) (call : ServiceCall) (buffer : OutBuf) :
    Trace → Option Replied → Prop where
  | cut : CallActs engine s call buffer [] none
  | refused {reply after} (refusal : Refused engine call.service call.operation buffer reply ∨
      reply.suspends = true) (stays : Passes s after 0) :
      CallActs engine s call buffer [] (some (reply, after))
  | capped {reply} {after : ExecSession} {record : EventRecord} {checksum}
      (own : record.step = s.stepCount) (kind : record.eventType = .continueAsNew)
      (parked : after.suspendErr ≠ none) :
      CallActs engine s call buffer [⟨.flushEvent record checksum, .persisted⟩] (some (reply, after))
  | sent {outcome} {key answer}
      (ordinary : engine.callSemantics call.service call.operation = .atLeastOnce)
      (parked : ∀ result ∈ outcome, result.2.suspendErr ≠ none) :
      CallActs engine s call buffer
        [⟨.callService call.service call.operation call.request s.stepCount key, answer⟩] outcome
  | recorded {reply after key answer record checksum} (tells : Tells call s.stepCount answer record)
      (replied : reply = recordedReply buffer record ∨ Unexplained buffer reply)
      (passes : Passes s after 1) :
      CallActs engine s call buffer
        [⟨.callService call.service call.operation call.request s.stepCount key, answer⟩,
          ⟨.flushEvent record checksum, .persisted⟩] (some (reply, after))
  | unannounced {result intent reason} :
      CallActs engine s call buffer [⟨.writeCallIntent intent, .error reason⟩] (some result)
  | announced {outcome} {intent : EventRecord} {createdAt later} (own : intent.step = s.stepCount)
      (owned : CallRow call.service call.operation intent)
      (request : intent.request = call.request)
      (short : later = [] ∧ outcome = none ∨ ∃ key answer failed, later =
        ⟨.callService call.service call.operation call.request s.stepCount key, answer⟩ :: failed ∧
        (failed = [] ∧ outcome = none ∨
          ∃ record checksum reason, failed = [⟨.completeCallIntent record checksum, .error reason⟩])) :
      CallActs engine s call buffer (⟨.writeCallIntent intent, .ok createdAt⟩ :: later) outcome
  | completed {outcome} {intent record : EventRecord} {createdAt key answer checksum}
      (own : intent.step = s.stepCount) (tells : Tells call s.stepCount answer record)
      (ends : ∀ reply after, outcome = some (reply, after) → Passes s after 1 ∧
        (reply = recordedReply buffer record ∨ Unexplained buffer reply)) :
      CallActs engine s call buffer [⟨.writeCallIntent intent, .ok createdAt⟩,
        ⟨.callService call.service call.operation call.request s.stepCount key, answer⟩,
        ⟨.completeCallIntent record checksum, .ok ()⟩] outcome

section Frontier

variable {before : Standing} {after : ExecSession} {reply : Reply} {intent : EventRecord}
  {createdAt : Int}

/-- A call that stands behind its finished row and returned what the row replays with, or
failed without a text. -/
theorem callFormat_ends {row : EventRecord} {count : Nat} (owned : CallRow service operation row)
    (complete : row.pending = false)
    (replied : reply = recordedReply buffer row ∨ Unexplained buffer reply)
    (same : after.core = s.core) (placed : s.stepCount = count) (caught : AtEnd after (count + 1)) :
    (callFormat engine s.standing service operation buffer).Ends count [row] (some (reply, after)) := by
  have moved : after.stepCount = s.stepCount + 1 := by
    rcases caught with ahead | caught
    · rw [ahead.position, placed]
    · rw [caught.position, placed]
  have stands := standing_forward same moved
  rcases replied with rfl | ⟨code, rfl⟩
  · exact .inl ⟨by simp, ⟨true, .inl ⟨row, rfl, owned, stands, .inl ⟨rfl, complete, rfl⟩⟩⟩, caught⟩
  · exact .inl ⟨by simp, ⟨false, .inl ⟨row, rfl, owned, stands,
      .inr (.inr ⟨rfl, complete, code, rfl⟩)⟩⟩, caught⟩

/-- A failure is replayed from its text, if it has one. -/
theorem failedReply_eq (message : String) (nonRetryable : Bool) (row : EventRecord)
    (err : row.err = message) (code : row.errNonRetryable = nonRetryable) :
    callFailed buffer (bytesOf message) (recordedFailureCode nonRetryable) =
        recordedReply buffer row ∨
      Unexplained buffer
        (callFailed buffer (bytesOf message) (recordedFailureCode nonRetryable)) := by
  by_cases silent : message = ""
  · right
    rw [silent]
    exact ⟨_, rfl⟩
  · left
    simp [recordedReply, err, silent, code]

/-- What a write-ahead call returns is what its record replays with, if it did not fail
without a text. -/
theorem intentReply_eq (outcome : ServiceAnswer) (record : EventRecord)
    (response : record.response = outcomeResponse outcome) (err : record.err = outcomeErr outcome)
    (retryable : record.errNonRetryable = false) :
    intentReply buffer (outcome.mapError CallFailure.message) = recordedReply buffer record ∨
      Unexplained buffer (intentReply buffer (outcome.mapError CallFailure.message)) := by
  cases outcome with
  | ok value =>
    left
    simp [intentReply, recordedReply, Except.mapError, response, err, outcomeErr,
      outcomeResponse]
  | error failure => exact failedReply_eq failure.message false record err retryable

variable {intent record : EventRecord} {call : ServiceCall} {outcome : Option Replied}

/-- An intent is stored at the end of the rows. -/
theorem writes_intent (dense : Dense rows) (own : intent.step = rows.length) (createdAt : Int)
    (later : Trace) :
    writes rows (⟨.writeCallIntent intent, .ok createdAt⟩ :: later) =
      writes (rows ++ [intentRow intent createdAt]) later :=
  congrArg (writes · later) (dense.insertEvent own)

/-- The last row is the intent that is completed. -/
theorem writes_completed {createdAt : Int} {checksum : String} (dense : Dense rows)
    (own : intent.step = rows.length) (same : record.step = rows.length) :
    writes (rows ++ [intentRow intent createdAt]) [⟨.completeCallIntent record checksum, .ok ()⟩] =
      rows ++ [completeRow (intentRow intent createdAt) record] :=
  dense.completeIntent same (own.trans same.symm) rfl

theorem recordable_acts (recordable : ∀ observed ∈ trace, Recordable observed) :
    ∀ observed ∈ acts trace, Recordable observed :=
  fun observed member => recordable observed (mem_acts.mp member).1

theorem recordable_persisted : FlushesPersist Recordable := fun _ _ _ recordable => recordable

/-- The rows that a call leaves whose writes are all taken. -/
theorem CallActs.leavesRows (did : CallActs engine s call buffer trace outcome)
    (recordable : ∀ observed ∈ trace, Recordable observed) (caught : Caught s rows.length)
    (dense : Dense rows) :
    Leaves (callFormat engine s.standing call.service call.operation buffer) rows [] trace
      outcome := by
  have stands : s.stepCount = rows.length := caught.position
  have whole : Dense (rows ++ []) := by simpa using dense
  cases did with
  | cut => exact .silent whole silent_nil (.inl (.inl rfl))
  | @refused reply after refusal stays =>
    refine .silent whole silent_nil ?_
    rcases refusal with refusal | suspends
    · have resumes : reply.suspends = false := by
        rcases refusal with rfl | rfl | ⟨reason, _, rfl⟩ <;> simp
      exact .inl ⟨resumes, ⟨false, .inr ⟨rfl, rfl, standing_forward stays.core stays.step, refusal⟩⟩,
        .inr (stays.caught caught)⟩
    · exact .inr ⟨.inl suspends, .inl (.inl rfl)⟩
  | capped own kind parked =>
    exact Leaves.appended [] [] whole (by simpa using own.trans stands) (by simp) (by simp)
      (by simp) (.inr ⟨.inr parked, .inl (.inr ⟨_, rfl, .inr kind⟩)⟩)
  | sent ordinary parked =>
    refine Leaves.unchanged whole (by simp) (by simp [stands]) ?_
    cases outcome with
    | none => exact .inl (.inl rfl)
    | some result => exact .inr ⟨.inr (parked result rfl), .inl (.inl rfl)⟩
  | recorded tells replied passes =>
    exact Leaves.appended [_] [] whole (by simpa using tells.own.trans stands)
      (by simp) (by simp) (by simp [stands])
      (callFormat_ends ⟨tells.owned.kind, tells.owned.service, tells.owned.operation⟩ tells.settled
        replied passes.core stands (.inr (passes.caught caught)))
  | unannounced => exact (recordable _ mem_cons_self).elim
  | @announced _ intent createdAt later own owned request short =>
    have next : intent.step = rows.length := own.trans stands
    have unfinished : (callFormat engine s.standing call.service call.operation buffer).Unfinished
        [intentRow intent createdAt] :=
      .inl (.inr ⟨_, rfl, .inl ⟨⟨owned.kind, owned.service, owned.operation⟩, rfl⟩⟩)
    have wrote (later : Trace) : writes (rows ++ [])
        (⟨.writeCallIntent intent, .ok createdAt⟩ :: later) =
          writes (rows ++ [intentRow intent createdAt]) later := by
      rw [append_nil, writes_intent dense next]
    rcases short with ⟨rfl, rfl⟩ | ⟨_, _, _, rfl, ⟨rfl, rfl⟩ | ⟨record, checksum, reason, rfl⟩⟩
    · exact ⟨by simp, [intentRow intent createdAt], wrote [],
        dense.snoc next, by simp, unfinished⟩
    · exact ⟨by simp [stands], [intentRow intent createdAt],
        wrote [_], dense.snoc next, by simp, unfinished⟩
    · exact absurd (recordable ⟨.completeCallIntent record checksum, .error reason⟩ (by simp)) id
  | @completed _ intent record createdAt _ _ _ own tells ends =>
    have next : record.step = rows.length := tells.own.trans stands
    refine ⟨by simp [stands], [completeRow (intentRow intent createdAt) record],
      ?_, dense.snoc next, by simp, ?_⟩
    · rw [append_nil]
      exact (writes_intent dense (own.trans stands) _ _).trans
        (writes_completed dense (own.trans stands) next)
    · have row : CallRow call.service call.operation (completeRow (intentRow intent createdAt) record) :=
        ⟨tells.owned.kind, tells.owned.service, tells.owned.operation⟩
      cases outcome with
      | none => exact .inr ⟨_, _, .inl ⟨_, rfl, row, rfl, .inl ⟨rfl, rfl, rfl⟩⟩⟩
      | some result =>
        obtain ⟨passes, replied⟩ := ends result.1 result.2 rfl
        exact callFormat_ends row rfl replied passes.core stands (.inr (passes.caught caught))

theorem every_pollCancelled_idle :
    (pollCancelled engine).Every fun query => ∀ answer, Idle ⟨query, answer⟩ := by
  unfold pollCancelled
  split
  · refine ⟨fun answer => ⟨rfl, rfl⟩, fun answer => ?_⟩
    cases answer <;> trivial
  · trivial

variable (durable : FlushesPersist Usual) (stored : engine.db = true) (forward : s.isReplay = false)

include durable stored forward

/-- The outcome of an ordinary call is recorded under the call's step. -/
theorem recordCall_acts {count : Nat} {key : Option String} {answer : ServiceAnswer}
    {reply : Reply} (ordinary : engine.callSemantics call.service call.operation = .atLeastOnce)
    (unstamped : record.timestampMs = 0) (tells : Tells call s.stepCount answer record)
    (replied : reply = recordedReply buffer record ∨ Unexplained buffer reply) :
    (recordEvent engine { s with eventCount := count } record >>= fun result =>
      pure (reply, result.2)).Ensures Usual
      fun trace outcome => CallActs engine s call buffer (⟨.callService call.service
        call.operation call.request s.stepCount key, answer⟩ :: acts trace) outcome := by
  refine ensures_acts_recordEvent durable (fun shown outcome => CallActs engine s call buffer
    (_ :: shown) outcome) stored forward unstamped (.sent ordinary (by simp)) ?_
  intro clockMs checksum after passes
  exact .recorded ⟨tells.own, ⟨tells.owned.kind, tells.owned.service, tells.owned.operation⟩,
    tells.settled, tells.retryable, tells.response, tells.err⟩ replied
    ⟨passes.core, passes.step, passes.mode⟩

theorem dispatchCall_acts {count : Nat}
    (ordinary : engine.callSemantics call.service call.operation = .atLeastOnce) :
    (dispatchCall engine { s with eventCount := count } call.service call.operation call.request
      buffer).Ensures Usual
      fun trace outcome => CallActs engine s call buffer (acts trace) outcome := by
  refine ⟨.cut, fun answer _ => ?_⟩
  cases answer with
  | ok response =>
    exact recordCall_acts durable stored forward ordinary rfl
      ⟨rfl, ⟨rfl, rfl, rfl⟩, rfl, rfl, rfl, rfl⟩ (.inl (by simp [recordedReply, callEvent]))
  | error failure =>
    refine ⟨.sent ordinary (by simp), fun stopped _ => ?_⟩
    cases stopped with
    | true => exact .sent ordinary (by simp)
    | false =>
      exact recordCall_acts durable stored forward ordinary rfl
        ⟨rfl, ⟨rfl, rfl, rfl⟩, rfl, rfl, rfl, rfl⟩ (failedReply_eq failure.message false _ rfl rfl)

omit durable stored forward in
theorem freshCallWithIntent_acts {count : Nat} :
    (freshCallWithIntent engine { s with eventCount := count } call.service call.operation
      call.request s.stepCount >>= fun result =>
        pure (intentReply buffer result.1, result.2)).Ensures Usual
        fun trace outcome => CallActs engine s call buffer (acts trace) outcome := by
  unfold freshCallWithIntent
  cases able : engine.intentStoreError with
  | some reason => exact .refused (.inl (.inr (.inr ⟨reason, able, rfl⟩))) ⟨rfl, rfl, rfl⟩
  | none =>
    refine ⟨.cut, fun written _ => ?_⟩
    cases written with
    | error reason => exact .unannounced
    | ok createdAt =>
      refine ⟨?_, fun answer _ => ⟨?_, fun clockMs _ => ⟨?_, fun completed _ => ?_⟩⟩⟩
      · exact .announced rfl ⟨rfl, rfl, rfl⟩ rfl (.inl ⟨rfl, rfl⟩)
      · exact .announced rfl ⟨rfl, rfl, rfl⟩ rfl (.inr ⟨_, _, _, rfl, .inl ⟨rfl, rfl⟩⟩)
      · exact .announced rfl ⟨rfl, rfl, rfl⟩ rfl (.inr ⟨_, _, _, rfl, .inl ⟨rfl, rfl⟩⟩)
      · cases completed with
        | error reason =>
          exact .announced rfl ⟨rfl, rfl, rfl⟩ rfl (.inr ⟨_, _, _, rfl, .inr ⟨_, _, _, rfl⟩⟩)
        | ok done =>
          -- The record is stamped once more only if the clock stood at zero.
          unfold recordEventPersisted recordTime
          dsimp only
          split
          · refine ⟨.completed rfl ⟨rfl, ⟨rfl, rfl, rfl⟩, rfl, rfl, rfl, rfl⟩ (by simp),
              fun again _ => .completed rfl ⟨rfl, ⟨rfl, rfl, rfl⟩, rfl, rfl, rfl, rfl⟩ ?_⟩
            rintro _ _ ⟨⟩
            exact ⟨⟨rfl, rfl, rfl⟩, intentReply_eq answer _ rfl rfl rfl⟩
          · refine .completed rfl ⟨rfl, ⟨rfl, rfl, rfl⟩, rfl, rfl, rfl, rfl⟩ ?_
            rintro _ _ ⟨⟩
            exact ⟨⟨rfl, rfl, rfl⟩, intentReply_eq answer _ rfl rfl rfl⟩

/-- A call that the history does not hold. -/
theorem freshCall_acts :
    (freshCall engine s call.service call.operation call.request buffer).Ensures Usual
      fun trace outcome => CallActs engine s call buffer (acts trace) outcome := by
  refine ensures_acts_bind _ every_pollCancelled_idle .cut fun cancelled => ?_
  split
  · exact .refused (.inl (.inl rfl)) ⟨rfl, rfl, rfl⟩
  · refine ensures_acts_bind _ ⟨fun answer => ⟨rfl, rfl⟩, fun _ => trivial⟩ .cut
      fun admitted => ?_
    split
    · exact .refused (.inl (.inr (.inl rfl))) ⟨rfl, rfl, rfl⟩
    · split
      · -- the run continues as a new one, and the call is refused
        unfold continueAsNew
        rw [Program.bind_assoc]
        refine ensures_acts_recordEvent durable (CallActs engine s call buffer) stored forward rfl
          .cut ?_
        exact fun clockMs checksum after _ => .capped rfl rfl (by simp)
      · cases semantics : engine.callSemantics call.service call.operation with
        | writeAheadIntent => exact freshCallWithIntent_acts
        | atLeastOnce => exact dispatchCall_acts durable stored forward semantics

/-- A call that is executed forward. -/
theorem durableCall_acts :
    (durableCall engine s call.service call.operation call.request buffer).Ensures Usual
      fun trace outcome => CallActs engine s call buffer (acts trace) outcome := by
  unfold durableCall
  rw [forward, if_neg (by simp)]
  refine ensures_acts_bind _ (every_stopBeforeNewWork engine s fun answer => ⟨rfl, rfl⟩) .cut
    fun stop => ?_
  split
  · exact .refused (.inr rfl) ⟨rfl, rfl, rfl⟩
  · exact freshCall_acts durable stored forward

omit durable stored forward in
/-- A program that polls for a cancellation and goes on with the answer. -/
theorem ensures_pollCancelled {Usual : Observed → Prop} {α : Type} {next : Bool → Work α}
    {post : Trace → Option α → Prop} (begun : post [] none)
    (polled : ∀ (cancelled : Bool) (polls : Trace), Silent polls →
      (next cancelled).Ensures Usual fun trace outcome => post (polls ++ trace) outcome) :
    (pollCancelled engine >>= next).Ensures Usual post := by
  unfold pollCancelled
  split
  · refine ⟨begun, fun answer _ => ?_⟩
    have asked : Silent [⟨.pollCancellation, answer⟩] := by
      simp
    cases answer with
    | error reason => exact polled false _ asked
    | ok cancelled => exact polled cancelled _ asked
  · exact polled false [] (by simp)

end Frontier

/-- The outcome of a pending call has been found and written. -/
def isResolution : Observed → Bool
  | ⟨.resolveCallIntent _, .ok _⟩ => true
  | _ => false

/-- The key under which the call of a row was sent first. -/
abbrev Engine.originalKey (engine : Engine) (row : EventRecord) : String :=
  durableCallIdempotencyKey engine engine.workflowID engine.workflowID row.step

/-- What is asked to find the outcome of a pending call, and a failed attempt to write it. -/
inductive Inquires (engine : Engine) (row : EventRecord) : Observed → Prop where
  | clock (timeMs) : Inquires engine row ⟨.now, timeMs⟩
  | serverClock (answer) : Inquires engine row ⟨.serverNow, answer⟩
  | backoff (ended) : Inquires engine row ⟨.replayBackoff, ended⟩
  | resent (answer) : Inquires engine row
      ⟨.replayUnderOriginalKey row.service row.op row.request (engine.originalKey row), answer⟩
  | asked (answer) :
      Inquires engine row ⟨.resolveCall row.service row.op (engine.originalKey row), answer⟩
  | unwritten (record reason) : Inquires engine row ⟨.resolveCallIntent record, .error reason⟩

/-- Questions about a pending call, with at most so many requests under its key. -/
structure Inquiry (engine : Engine) (row : EventRecord) (bound : Nat) (trace : Trace) :
    Prop where
  asks : ∀ observed ∈ trace, Inquires engine row observed
  few : trace.countP isResend ≤ bound

/-- The outcome of a pending call as the service or the resolver has told it. -/
inductive SaidAbout (engine : Engine) (row : EventRecord) (trace : Trace) :
    String → String → String → Prop where
  | replayed {response} (told : ⟨.replayUnderOriginalKey row.service row.op row.request
      (engine.originalKey row), .ok (response, .resolved)⟩ ∈ trace) : SaidAbout engine row trace response "" ""
  | resolved {response} (told : ⟨.resolveCall row.service row.op (engine.originalKey row),
      .ok (response, .resolved)⟩ ∈ trace) : SaidAbout engine row trace response "" ""
  | notSent {text} (told : ⟨.resolveCall row.service row.op (engine.originalKey row),
      .ok (text, .notSent)⟩ ∈ trace) : SaidAbout engine row trace "" ambiguityNotSentMessage "transient"

/-- An inquiry that learns nothing, or an outcome that was told and is then written. -/
def Learns (engine : Engine) (row : EventRecord) (bound : Nat) (trace : Trace) :
    Option (String × String × String) → Prop
  | none => Inquiry engine row bound trace
  | some (response, errMsg, errCode) => ∃ earlier clockMs,
      trace = earlier ++ [⟨.resolveCallIntent
        (resolvedRecord row clockMs response errMsg errCode), .ok ()⟩] ∧
      Inquiry engine row bound earlier ∧ SaidAbout engine row earlier response errMsg errCode

/-- How the replay of a pending call ends: it is cut, the call stays ambiguous, or its outcome has
been found and written and is returned. -/
inductive PendingReplay (engine : Engine) (s : ExecSession) (row : EventRecord) (buffer : OutBuf)
    (trace : Trace) : Option Replied → Prop where
  | cut (asked : Inquiry engine row idempotencyReplayMaxAttempts trace) :
      PendingReplay engine s row buffer trace none
  | ambiguous (asked : Inquiry engine row idempotencyReplayMaxAttempts trace) :
      PendingReplay engine s row buffer trace
        (some (ambiguousReply buffer row, recordAmbiguity s row))
  | resolved {earlier : Trace} {clockMs : Int} {response errMsg errCode : String}
      (wrote : trace = earlier ++ [⟨.resolveCallIntent
        (resolvedRecord row clockMs response errMsg errCode), .ok ()⟩])
      (asked : Inquiry engine row idempotencyReplayMaxAttempts earlier)
      (told : SaidAbout engine row earlier response errMsg errCode) :
      PendingReplay engine s row buffer trace
        (some (recordedReply buffer (resolvedRecord row clockMs response errMsg errCode), s))

section Pending

variable {row : EventRecord} {bound more : Nat} {earlier : Trace} {response errMsg errCode : String}

theorem Inquiry.nil : Inquiry engine row bound [] := ⟨by simp, Nat.zero_le _⟩

theorem Inquiry.append (first : Inquiry engine row bound earlier)
    (second : Inquiry engine row more trace) :
    Inquiry engine row (bound + more) (earlier ++ trace) where
  asks := forall_mem_append.mpr ⟨first.asks, second.asks⟩
  few := by
    rw [countP_append]
    exact Nat.add_le_add first.few second.few

theorem Inquiry.cons (first : Inquires engine row observed) (rest : Inquiry engine row bound trace) :
    Inquiry engine row (bound + (isResend observed).toNat) (observed :: trace) where
  asks := forall_mem_cons.mpr ⟨first, rest.asks⟩
  few := by
    have few := rest.few
    rw [countP_cons]
    cases isResend observed <;> simpa using few

theorem Inquiry.undispatched (inquiry : Inquiry engine row bound trace) : Undispatched trace := by
  intro observed member
  cases inquiry.asks observed member <;> rfl

theorem Inquiry.unchanged (inquiry : Inquiry engine row bound trace) (rows : History) :
    writes rows trace = rows := by
  have asks := inquiry.asks
  clear inquiry
  induction trace with
  | nil => rfl
  | cons observed trace ih =>
    obtain ⟨first, rest⟩ := forall_mem_cons.mp asks
    refine Eq.trans ?_ (ih rest)
    cases first <;> rfl

theorem SaidAbout.mono (told : SaidAbout engine row earlier response errMsg errCode)
    (inside : earlier ⊆ trace) : SaidAbout engine row trace response errMsg errCode := by
  cases told with
  | replayed told => exact .replayed (inside told)
  | resolved told => exact .resolved (inside told)
  | notSent told => exact .notSent (inside told)

theorem Learns.after {found : Option (String × String × String)}
    (first : Inquiry engine row bound earlier) (learns : Learns engine row more trace found) :
    Learns engine row (bound + more) (earlier ++ trace) found := by
  match found, learns with
  | none, asked => exact first.append asked
  | some _, ⟨between, clockMs, wrote, asked, told⟩ =>
    exact ⟨earlier ++ between, clockMs, by rw [wrote, append_assoc], first.append asked,
      told.mono (subset_append_right _ _)⟩

theorem replayAttempts_learns (left : Nat) :
    (replayAttempts row (engine.originalKey row) left).Ensures Usual fun trace outcome =>
      Inquiry engine row left trace ∧ ∀ response, outcome = some (some response) →
        SaidAbout engine row trace response "" "" := by
  induction left with
  | zero => exact ⟨.nil, by simp⟩
  | succ left ih =>
    refine ⟨⟨.nil, by simp⟩, fun answer _ => ?_⟩
    rcases answer with reason | ⟨response, verdict⟩
    · exact ⟨Inquiry.nil.cons (.resent _), by simp⟩
    cases verdict with
    | cannotSay => exact ⟨Inquiry.nil.cons (.resent _), by simp⟩
    | resolved =>
      refine ⟨Inquiry.nil.cons (.resent _), fun given same => ?_⟩
      cases same
      exact .replayed mem_cons_self
    | retryLater =>
      split
      · exact ⟨Inquiry.nil.cons (.resent _), by simp⟩
      · refine ⟨⟨Inquiry.nil.cons (.resent _), by simp⟩, fun ended _ => ?_⟩
        cases ended with
        | false => exact ⟨(Inquiry.nil.cons (.backoff _)).cons (.resent _), by simp⟩
        | true =>
          refine ih.mono fun trace outcome asked => ⟨?_, fun given same => ?_⟩
          · exact (asked.1.cons (.backoff _)).cons (.resent _)
          · exact (asked.2 given same).mono (subset_append_right [_, _] _)

theorem replayUnderOriginalKey_learns :
    (replayUnderOriginalKey engine row).Ensures Usual fun trace outcome =>
      Inquiry engine row idempotencyReplayMaxAttempts trace ∧
        ∀ response, outcome = some (some response) → SaidAbout engine row trace response "" "" := by
  unfold replayUnderOriginalKey
  split
  · exact ⟨.nil, by simp⟩
  · split
    · exact ⟨.nil, by simp⟩
    · split
      · exact ⟨.nil, by simp⟩
      · simp only [ask_eq, ask_bind, done_bind, ensures_ask]
        refine ⟨⟨.nil, by simp⟩, fun answer _ => ?_⟩
        cases answer with
        | error reason => exact ⟨Inquiry.nil.cons (.serverClock _), by simp⟩
        | ok nowMs =>
          dsimp only
          split
          · exact ⟨Inquiry.nil.cons (.serverClock _), by simp⟩
          · refine (replayAttempts_learns _).mono fun trace outcome asked => ?_
            exact ⟨asked.1.cons (.serverClock _), fun given same =>
              (asked.2 given same).mono (subset_cons_self _ _)⟩

/-- Writing an outcome that was told: it is written and returned, or nothing is. -/
theorem persistAmbiguityResolution_learns (first : Inquiry engine row bound earlier)
    (told : SaidAbout engine row earlier response errMsg errCode) :
    (persistAmbiguityResolution engine row response errMsg errCode).Ensures Usual
      fun trace outcome => Learns engine row bound (earlier ++ trace)
          (outcome.join.map fun given => (given, errMsg, errCode)) ∧
        ∀ given, outcome.join = some given → given = response := by
  have clock : (recordTime row).Ensures Usual fun trace _ => Inquiry engine row 0 trace := by
    unfold recordTime
    split
    · exact ⟨.nil, fun timeMs _ => Inquiry.nil.cons (.clock timeMs)⟩
    · exact .nil
  unfold persistAmbiguityResolution
  split
  · exact ⟨by simpa [Learns] using first, by simp⟩
  · rw [ensures_bind]
    refine clock.mono fun stamping outcome read => ?_
    cases outcome with
    | none => exact ⟨first.append read, by simp⟩
    | some clockMs =>
      refine ⟨⟨by simpa [Learns] using first.append read, by simp⟩, fun answer _ => ?_⟩
      cases answer with
      | ok value =>
        refine ⟨⟨earlier ++ stamping, clockMs, ?_, first.append read, ?_⟩, by simp⟩
        · simp
        · exact told.mono (subset_append_left _ _)
      | error reason =>
        have refused : Inquiry engine row 0 [⟨.resolveCallIntent
          (resolvedRecord row clockMs response errMsg errCode), .error reason⟩] :=
          Inquiry.nil.cons (.unwritten _ reason)
        exact ⟨first.append (read.append refused), by simp⟩

/-- Asking the service under the original key. -/
theorem resolveAmbiguityViaKeyReplay_learns :
    (resolveAmbiguityViaKeyReplay engine row).Ensures Usual fun trace outcome =>
      Learns engine row idempotencyReplayMaxAttempts trace
        (outcome.join.map fun given => (given, "", "")) := by
  unfold resolveAmbiguityViaKeyReplay
  rw [ensures_bind]
  refine replayUnderOriginalKey_learns.mono fun asking outcome asked => ?_
  rcases outcome with _ | _ | response
  · exact asked.1
  · simpa [Learns] using asked.1
  · exact (persistAmbiguityResolution_learns asked.1 (asked.2 response rfl)).mono
      fun trace outcome learns => learns.1

/-- The outcome that a verdict stands for. -/
def verdictOutcome : Option (String × AmbiguityOutcome) → Option (String × String × String)
  | some (response, .resolved) => some (response, "", "")
  | some (_, .notSent) => some ("", ambiguityNotSentMessage, "transient")
  | _ => none

attribute [local simp] verdictOutcome

/-- Asking a resolver. -/
theorem resolveAmbiguity_learns :
    (resolveAmbiguity engine row).Ensures Usual fun trace outcome =>
      Learns engine row 0 trace (verdictOutcome outcome) := by
  unfold resolveAmbiguity
  split
  · exact .nil
  · simp only [ask_eq, ask_bind, done_bind, ensures_ask]
    refine ⟨.nil, fun answer _ => ?_⟩
    have asked : Inquiry engine row 0 [⟨.resolveCall row.service row.op (engine.originalKey row),
      answer⟩] := Inquiry.nil.cons (.asked answer)
    rcases answer with reason | ⟨response, verdict⟩
    · exact asked
    cases verdict with
    | cannotSay => exact asked
    | resolved | notSent =>
      rw [ensures_bind]
      refine (persistAmbiguityResolution_learns asked (by
        first | exact .resolved mem_cons_self | exact .notSent mem_cons_self)).mono
        fun trace outcome learns => ?_
      rcases outcome with _ | _ | given
      · exact learns.1
      · simpa using learns.1
      · cases learns.2 given rfl
        simpa using learns.1

theorem recordedReply_resolved (buffer : OutBuf) (clockMs : Int) (response errCode : String) :
    recordedReply buffer (resolvedRecord row clockMs response "" errCode) =
      callSucceeded buffer (bytesOf response) := by
  simp [recordedReply, resolvedRecord]

theorem ambiguityNotSentMessage_ne : ambiguityNotSentMessage ≠ "" := by
  decide

theorem recordedReply_notSent (buffer : OutBuf) (clockMs : Int) (response errCode : String) :
    recordedReply buffer (resolvedRecord row clockMs response ambiguityNotSentMessage errCode) =
      callFailed buffer (bytesOf ambiguityNotSentMessage) callFailureCode := by
  simp [recordedReply, resolvedRecord, recordedFailureCode, ambiguityNotSentMessage_ne]

theorem Learns.replayed {s : ExecSession} {buffer : OutBuf} {reply : Reply}
    (learns : Learns engine row idempotencyReplayMaxAttempts trace (some (response, errMsg, errCode)))
    (replied : ∀ clockMs,
      recordedReply buffer (resolvedRecord row clockMs response errMsg errCode) = reply) :
    PendingReplay engine s row buffer trace (some (reply, s)) := by
  obtain ⟨earlier, clockMs, wrote, asked, told⟩ := learns
  rw [← replied clockMs]
  exact .resolved wrote asked told

/-- Replaying a pending call: both ways of finding its outcome are tried in turn. -/
theorem replayPendingIntent_ends (s : ExecSession) (buffer : OutBuf) :
    (replayPendingIntent engine s row buffer).Ensures Usual fun trace outcome =>
      PendingReplay engine s row buffer trace outcome := by
  unfold replayPendingIntent
  rw [ensures_bind]
  refine resolveAmbiguityViaKeyReplay_learns.mono fun first outcome learns => ?_
  rcases outcome with _ | _ | response
  · exact .cut learns
  · dsimp only
    rw [ensures_bind]
    refine resolveAmbiguity_learns.mono fun second outcome later => ?_
    have both := Learns.after learns later
    rcases outcome with _ | ⟨response, verdict⟩
    · exact .cut both
    · cases verdict with
      | cannotSay => simpa using PendingReplay.ambiguous both
      | resolved => simpa using both.replayed fun _ => recordedReply_resolved ..
      | notSent => simpa using both.replayed fun _ => recordedReply_notSent ..
  · simpa using learns.replayed fun _ => recordedReply_resolved ..

theorem PendingReplay.undispatched {s : ExecSession} {buffer : OutBuf} {outcome : Option Replied}
    (replayed : PendingReplay engine s row buffer trace outcome) : Undispatched trace := by
  cases replayed with
  | cut asked | ambiguous asked => exact asked.undispatched
  | resolved wrote asked told =>
    rw [wrote]
    simpa using asked.undispatched

end Pending

/-- The circumstances in which a service call returns what it has returned before. Its
events are persisted. If it has returned, it was not refused and did not fail without a
text, and if it was reported as ambiguous it stays so. A run that reached its event cap
is not repeated. -/
@[mk_iff] structure CallAllowed (engine : Engine) (service operation : String) (buffer : OutBuf)
    (known : Option Reply) (s : ExecSession) (trace : Trace) : Prop where
  recordable : ∀ observed ∈ trace, Recordable observed
  accepted : ∀ reply ∈ known, ¬ Refused engine service operation buffer reply
  explained : ∀ reply ∈ known, ¬ Unexplained buffer reply
  reported : known ≠ none → ∀ row ∈ s.current, row.pending = true →
    ∀ observed ∈ trace, isResolution observed = false
  uncapped : s.isReplay = true → ∀ row ∈ s.current, row.eventType ≠ .continueAsNew

instance (engine : Engine) (service operation : String) (buffer : OutBuf) (known : Option Reply)
    (s : ExecSession) (trace : Trace) :
    Decidable (CallAllowed engine service operation buffer known s trace) :=
  decidable_of_iff' _ (callAllowed_iff ..)

section Obligations

variable {outcome : Option Replied}

variable {count : Nat} {later earlier block tail : History} {request : String} {reply : Reply}
  {recorded : Bool} {after : Standing} {known : Option Reply}

/-- Noting an ambiguity moves nothing. -/
theorem Ahead.recordAmbiguity {rest : History} (ahead : Ahead s count rest)
    (record : EventRecord) : Ahead (recordAmbiguity s record) count rest := by
  unfold Cleat.recordAmbiguity
  split
  · exact ahead
  · exact ⟨ahead.replaying, ahead.position, ahead.remaining, ahead.active.of_core rfl⟩

@[simp] theorem standing_recordAmbiguity (record : EventRecord) :
    (Cleat.recordAmbiguity s record).standing = s.standing := by
  unfold Cleat.recordAmbiguity
  split <;> rfl

theorem recordEvent_forwards {record : EventRecord} (forward : s.isReplay = false) :
    (recordEvent engine s record).Returns fun result => result.2.isReplay = false := by
  refine (returns_any _).bind fun clockMs _ => ?_
  split
  · simp only [ask_eq, ask_bind, done_bind, returns_ask]
    intro answer
    split <;> exact forward
  · exact forward

/-- A call that is executed leaves a session that goes on executing. -/
theorem freshCall_forwards {request : String} (forward : s.isReplay = false) :
    (freshCall engine s service operation request buffer).Returns fun result =>
      result.2.isReplay = false := by
  unfold freshCall dispatchCall freshCallWithIntent recordEventPersisted continueAsNew
  repeat' first
    | dsimp only
    | split
    | rw [bind_assoc]
    | exact forward
    | assumption
    | refine (recordEvent_forwards (by exact forward)).bind fun _ kept => ?_
    | refine (returns_any _).bind fun _ _ => ?_

/-- A call keeps a session in replay exactly if it finds a record at its step. -/
theorem durableCall_keepsReplay {request : String} :
    (durableCall engine s service operation request buffer).Returns fun result =>
      (result.2.isReplay = true ↔ s.isReplay = true ∧ s.current.isSome = true) := by
  have executes : ∀ fresh : ExecSession, fresh.isReplay = false →
      ¬(s.isReplay = true ∧ s.current.isSome = true) →
      (freshCall engine fresh service operation request buffer).Returns fun result =>
        (result.2.isReplay = true ↔ s.isReplay = true ∧ s.current.isSome = true) := by
    intro fresh forward none
    rw [← bind_done (freshCall ..)]
    exact (freshCall_forwards forward).bind fun result kept => iff_of_false (by simp [kept]) none
  unfold durableCall
  cases replays : s.isReplay with
  | false =>
    refine (returns_any _).bind fun stop _ => ?_
    split
    · exact iff_of_false (by simp [replays]) (by simp)
    · simpa [replays] using executes s replays (by simp [replays])
  | true =>
    rw [if_pos rfl, replayCall]
    cases found : s.current with
    | none => simpa [replays, found] using executes (exitReplay s) rfl (by simp [found])
    | some record =>
      have kept : (advanceReplayStep engine s record).isReplay = true := replays
      unfold replayPendingIntent recordAmbiguity
      repeat' first
        | exact iff_of_true kept ⟨rfl, rfl⟩
        | refine (returns_any _).bind fun _ _ => ?_
        | dsimp only
        | split

/-- A call in front of its own row replays it. -/
theorem replayCall_own {row : EventRecord} (request : String) (found : s.current = some row)
    (owned : CallRow service operation row) :
    replayCall engine s service operation request buffer =
      if row.pending then replayPendingIntent engine (advanceReplayStep engine s row) row buffer
      else pure (recordedReply buffer row, advanceReplayStep engine s row) := by
  cases pending : row.pending <;>
    simp [replayCall, found, owned.kind, owned.service, owned.operation,
      EventRecord.isPendingIntent, pending]

/-- A finished call is answered from its row. -/
theorem replayCall_replays : (callFormat engine s.standing service operation buffer).ReplayedBy s
    (CallAllowed engine service operation buffer · s)
    (replayCall engine s service operation request buffer) := by
  intro earlier block later reply recorded after known trace outcome _ ahead owns known_eq allowed
    runs
  obtain ⟨row, rfl, owned, rfl, recordedRow | pendingRow | ⟨rfl, _, silent⟩⟩ |
    ⟨_, rfl, _, refused⟩ := owns
  · obtain ⟨rfl, complete, rfl⟩ := recordedRow
    rw [replayCall_own request ahead.lookup owned, complete] at runs
    exact Replays.at_once (ahead.advance engine) rfl runs (by simp) (standing_forward rfl rfl)
  · obtain ⟨rfl, pending, rfl⟩ := pendingRow
    rw [replayCall_own request ahead.lookup owned, pending, if_pos rfl] at runs
    have unresolved := allowed.reported (by simp [known_eq rfl]) row ahead.lookup pending
    cases (replayPendingIntent_ends _ buffer).of_runs runs fun _ _ => trivial with
    | cut asked => exact ⟨asked.unchanged _, asked.undispatched, by simp⟩
    | ambiguous asked =>
      refine ⟨asked.unchanged _, asked.undispatched, fun reply' after' given => ?_⟩
      cases given
      refine ⟨rfl, by simp, ?_,
        .inl ((ahead.advance engine).recordAmbiguity row)⟩
      rw [standing_recordAmbiguity]
      exact standing_forward rfl rfl
    | resolved wrote asked told =>
      have resolution := unresolved _ (wrote ▸ mem_append_right _ (mem_singleton_self _))
      cases resolution
  · exact absurd silent (allowed.explained reply (known_eq rfl))
  · exact absurd refused (allowed.accepted reply (known_eq rfl))

/-- A replayed call at the end of the rows leaves its own, and sends no request if it has
begun. -/
theorem replayCall_leaves (stored : engine.db = true) (dense : Dense (rows ++ tail))
    (ahead : Ahead s rows.length tail)
    (begun : tail = [] ∨ (callFormat engine s.standing service operation buffer).Tail tail)
    (allowed : CallAllowed engine service operation buffer none s trace)
    (runs : (replayCall engine s service operation request buffer).Runs trace outcome) :
    Leaves (callFormat engine s.standing service operation buffer) rows tail trace outcome ∧
      (tail ≠ [] → Undispatched trace) := by
  rcases begun with rfl | ⟨row, rfl, owned⟩
  · refine ⟨?_, by simp⟩
    rw [append_nil] at dense
    simp only [replayCall, ahead.lookup_end] at runs
    have did : CallActs engine _ ⟨service, operation, request⟩ buffer (acts trace) outcome :=
      (freshCall_acts recordable_persisted stored ahead.exit.forward).of_runs runs allowed.recordable
    exact (did.leavesRows (recordable_acts allowed.recordable) ahead.exit dense).of_acts
  · obtain ⟨owned, pending⟩ : CallRow service operation row ∧ row.pending = true := by
      rcases owned with owned | capped
      · exact owned
      · exact absurd capped (allowed.uncapped ahead.replaying row ahead.lookup)
    rw [replayCall_own request ahead.lookup owned, pending, if_pos rfl] at runs
    have replayed := (replayPendingIntent_ends (advanceReplayStep engine s row) buffer).of_runs runs
      fun _ _ => trivial
    have quiet := replayed.undispatched
    refine ⟨⟨fun observed member step sent => ?_, ?_⟩, fun _ => quiet⟩
    · rw [quiet observed member] at sent
      cases sent
    have here : row.step = rows.length := dense.here
    have inProgress : (callFormat engine s.standing service operation buffer).Tail [row] :=
      ⟨row, rfl, .inl ⟨owned, pending⟩⟩
    cases replayed with
    | cut asked => exact ⟨[row], asked.unchanged _, dense, by simp, .inl (.inr inProgress)⟩
    | ambiguous asked =>
      refine ⟨[row], asked.unchanged _, dense, by simp, .inl ⟨by simp,
        ⟨false, .inl ⟨row, rfl, owned, ?_, .inr (.inl ⟨rfl, pending, rfl⟩)⟩⟩,
        .inl ((ahead.advance engine).recordAmbiguity row)⟩⟩
      rw [standing_recordAmbiguity]
      exact standing_forward rfl rfl
    | @resolved earlier clockMs response errMsg errCode wrote asked told =>
      refine ⟨[completeRow row (resolvedRecord row clockMs response errMsg errCode)], ?_,
        dense.left.snoc here, by simp, ?_⟩
      · rw [wrote, writes_append, asked.unchanged]
        exact dense.left.completeIntent here rfl pending
      · exact callFormat_ends ⟨owned.kind, owned.service, owned.operation⟩ rfl (.inl rfl) rfl
          ahead.position (.inl (ahead.advance engine))

theorem durableCall_replays : (callFormat engine s.standing service operation buffer).ReplayedBy s
    (CallAllowed engine service operation buffer · s)
    (durableCall engine s service operation request buffer) := by
  intro earlier block later reply recorded after known trace outcome dense ahead owns known_eq
    allowed runs
  simp only [durableCall, ahead.replaying, if_true] at runs
  exact replayCall_replays dense ahead owns known_eq allowed runs

/-- A call at the end of the rows leaves its own, and sends no request if it has begun. -/
theorem durableCall_leaves (stored : engine.db = true) (dense : Dense (rows ++ tail))
    (place : Ahead s rows.length tail ∨ tail = [] ∧ Caught s rows.length)
    (begun : tail = [] ∨ (callFormat engine s.standing service operation buffer).Tail tail)
    (allowed : CallAllowed engine service operation buffer none s trace)
    (runs : (durableCall engine s service operation request buffer).Runs trace outcome) :
    Leaves (callFormat engine s.standing service operation buffer) rows tail trace outcome ∧
      (tail ≠ [] → Undispatched trace) := by
  rcases place with ahead | ⟨rfl, caught⟩
  · simp only [durableCall, ahead.replaying, if_true] at runs
    exact replayCall_leaves stored dense ahead begun allowed runs
  · have did : CallActs engine s ⟨service, operation, request⟩ buffer (acts trace) outcome :=
      (durableCall_acts recordable_persisted stored caught.forward).of_runs runs allowed.recordable
    exact ⟨(did.leavesRows (recordable_acts allowed.recordable) caught (by simpa using dense)).of_acts,
      by simp⟩

end Obligations

end Cleat
