import Cleat.WriteAhead

/-!
# A retry policy at the end of the history

A session that has consumed its whole history still replays until a call finds nothing at its
step. A call with a retry policy that is made there looks for recorded attempts, finds none,
and goes on as an ordinary replayed call, which past the end of the history is executed as a
single attempt. In a session that never replayed the policy itself is run.

This module compares the two: what they send and write, the history they leave and what they
return, for every sequence of service outcomes.
-/
namespace Cleat

open Durable.Program List Bool

/-- The number of requests that have been sent to services. -/
def sentCount (past : Trace) : Nat :=
  past.countP fun observed => observed.query.dispatchStep.isSome

/-- Surroundings in which the service's outcomes follow one another. -/
def Surroundings.serve (around : Surroundings) (outcomes : Nat → ServiceAnswer)
    (past : Trace) : (query : Query) → Option (Answer query)
  | .callService _ _ _ _ _ => some (outcomes (sentCount past))
  | query => around.answer query

/-- A request to a service or a write to the store. -/
def isEffect (observed : Observed) : Bool :=
  observed.query.isWrite || observed.query.dispatchStep.isSome

/-- What a call does, as its surroundings and its guest see it: its requests and writes in
order, and the reply and the history it ends with. -/
abbrev Behaviour := Trace × Option (Reply × History)

/-- The behaviour of a call for one sequence of service outcomes, after what has been observed
already. -/
def behaviour (around : Surroundings) (outcomes : Nat → ServiceAnswer)
    (work : Work Replied) (past : Trace) : Behaviour :=
  let driven := work.drive (around.serve outcomes) past
  (driven.1.filter isEffect, driven.2.map fun result => (result.1, result.2.history))

/-- An ordinary call that is not in the history gets as far as sending its request. -/
def OrdinaryCallSends (engine : Engine) (around : Surroundings) (s : ExecSession)
    (service operation : String) : Prop :=
  (engine.signalStore && around.cancelled) = false ∧ around.admitted = true ∧
    engine.eventCapReached s = false ∧ engine.callSemantics service operation = .atLeastOnce

instance (engine : Engine) (around : Surroundings) (s : ExecSession)
    (service operation : String) : Decidable (OrdinaryCallSends engine around s service operation) :=
  inferInstanceAs (Decidable (_ ∧ _))

/-- A policy that is not in the history gets as far as sending its first request. -/
def PolicySends (engine : Engine) (around : Surroundings) (s : ExecSession)
    (policy : RetryPolicy) : Prop :=
  engine.mayStart s = true ∧ around.shutdown = false ∧
    retryPolicyFitsBudget engine policy engine.hostRetryBudget = true ∧
    (nonRetryableCodes engine policy).isSome = true ∧
    0 < engine.allowedAttempts policy.maxAttempts

instance (engine : Engine) (around : Surroundings) (s : ExecSession)
    (policy : RetryPolicy) : Decidable (PolicySends engine around s policy) :=
  inferInstanceAs (Decidable (_ ∧ _))

section Frontier

variable {engine : Engine} {around : Surroundings} {outcomes : Nat → ServiceAnswer}
  {s : ExecSession} {service operation request : String} {policy : RetryPolicy} {buffer : OutBuf}

/-- At the end of the history the replayed policy is an ordinary call. -/
theorem durableCallWithRetry_replay (consumed : s.stepCount = s.history.length) :
    durableCallWithRetry engine { s with isReplay := true } service operation request policy
        buffer =
      freshCall engine { s with isReplay := false } service operation request buffer := by
  have nothing : s.remaining = [] := by
    apply drop_eq_nil_of_le
    omega
  have past : s.current = none := by
    apply getElem?_eq_none
    omega
  simp [durableCallWithRetry, nothing, replayRetryAttempts, replayCall, past, exitReplay]

variable {query : Query} {answer : Answer query} {next : Answer query → Work Replied}
  {past : Trace} {code : UInt8} {codes : List String} {left : Nat} {response : String}
  {Usual : Observed → Prop} {failure : CallFailure}

/-- A question without an effect leaves no mark on a behaviour. -/
theorem behaviour_ask (given : around.serve outcomes past query = some answer)
    (quiet : isEffect ⟨query, answer⟩ = false) :
    behaviour around outcomes (.ask query next) past =
      behaviour around outcomes (next answer) (past ++ [⟨query, answer⟩]) := by
  simp [behaviour, drive, given, quiet]

/-- An effect is the first of a behaviour. -/
theorem behaviour_effect (given : around.serve outcomes past query = some answer)
    (effect : isEffect ⟨query, answer⟩ = true) :
    behaviour around outcomes (.ask query next) past =
      let rest := behaviour around outcomes (next answer) (past ++ [⟨query, answer⟩])
      (⟨query, answer⟩ :: rest.1, rest.2) := by
  simp [behaviour, drive, given, effect]

@[simp] theorem behaviour_done (reply : Reply) (after : ExecSession) (past : Trace) :
    behaviour around outcomes (.done (reply, after)) past = ([], some (reply, after.history)) :=
  rfl

/-- The question whether the run is cancelled sends nothing. -/
theorem behaviour_pollCancelled (next : Bool → Work Replied) (past : Trace) :
    ∃ asked, sentCount asked = 0 ∧ behaviour around outcomes (pollCancelled engine >>= next) past =
      behaviour around outcomes (next (engine.signalStore && around.cancelled))
        (past ++ asked) := by
  unfold pollCancelled
  cases engine.signalStore with
  | false => exact ⟨[], rfl, by simp⟩
  | true =>
    refine ⟨[⟨.pollCancellation, Except.ok around.cancelled⟩], rfl, ?_⟩
    exact @behaviour_ask around outcomes .pollCancellation (.ok around.cancelled) _ _ rfl rfl

/-- The write of an event, on an engine with a store. -/
def recordWrites (engine : Engine) (around : Surroundings) (s : ExecSession)
    (record : EventRecord) : Trace :=
  let stamped := stampEvent s record around.clockMs
  if engine.db then
    [⟨.flushEvent stamped (engine.computeEventChecksum stamped s.lastChecksum),
      EventPersistence.persisted⟩]
  else []

theorem unsent_recordWrites (record : EventRecord) :
    ∀ first ∈ (recordWrites engine around s record).head?, first.query.dispatchStep = none := by
  unfold recordWrites
  split <;> simp

/-- An event is recorded under the clock's time and, on an engine with a store, written. -/
theorem behaviour_recordEvent {record : EventRecord} (unstamped : record.timestampMs = 0)
    (forward : s.isReplay = false)
    (next : EventPersistence × ExecSession → Work Replied) (past : Trace) :
    ∃ persistence after asked,
      after.history = s.history ++ [stampEvent s record around.clockMs] ∧
      behaviour around outcomes (recordEvent engine s record >>= next) past =
        let rest := behaviour around outcomes (next (persistence, after)) (past ++ asked)
        (recordWrites engine around s record ++ rest.1, rest.2) := by
  cases stored : engine.db with
  | false =>
    refine ⟨.notAttempted, appendEvent s (stampEvent s record around.clockMs),
      [⟨.now, around.clockMs⟩], rfl, ?_⟩
    simp only [recordEvent, recordTime, unstamped, forward, stored, recordWrites]
    exact behaviour_ask rfl rfl
  | true =>
    refine ⟨.persisted, { appendEvent s (stampEvent s record around.clockMs) with
      lastChecksum := engine.computeEventChecksum (stampEvent s record around.clockMs)
        s.lastChecksum }, [⟨.now, around.clockMs⟩] ++ [⟨.flushEvent
        (stampEvent s record around.clockMs) (engine.computeEventChecksum
          (stampEvent s record around.clockMs) s.lastChecksum), EventPersistence.persisted⟩],
      rfl, ?_⟩
    simp only [recordEvent, recordTime, unstamped, forward, stored, recordWrites]
    rw [← append_assoc]
    exact (behaviour_ask rfl rfl).trans (behaviour_effect rfl rfl)

/-- A call whose first effect, if it has one, is not a request. -/
def Unsent (done : Behaviour) : Prop :=
  ∀ first ∈ done.1.head?, first.query.dispatchStep = none

/-- A call whose first effect is the request of its step, answered with the first outcome. -/
def Sent (engine : Engine) (outcomes : Nat → ServiceAnswer) (s : ExecSession)
    (service operation request : String) (done : Behaviour) : Prop :=
  done.1.head? = some ⟨.callService service operation request s.stepCount
    (engine.callKey s.stepCount), outcomes 0⟩

theorem Unsent.ne_sent {unsent sent : Behaviour} (refused : Unsent unsent)
    (first : Sent engine outcomes s service operation request sent) : unsent ≠ sent := by
  rintro rfl
  have none := refused _ first
  cases none

/-- A refused ordinary call that has no effect leaves a longer history or returns a failure of a
class that no refused policy has. -/
def Told (s : ExecSession) (buffer : OutBuf) (done : Behaviour) : Prop :=
  done.1 = [] → ∃ reply history, done.2 = some (reply, history) ∧
    (history = s.history → ∃ message code, code ≠ callErrorRetryPolicyTooLong ∧
      reply = callFailed buffer message code)

/-- A failure that is reported at once. -/
theorem told_failed (message : Bytes) (other : code ≠ callErrorRetryPolicyTooLong) :
    let done : Behaviour := ([], some (callFailed buffer message code, s.history))
    Unsent done ∧ Told s buffer done := by
  refine ⟨?_, fun _ => ⟨_, _, rfl, fun _ => ⟨message, code, other, rfl⟩⟩⟩
  simp [Unsent]

/-- A refused ordinary call sends nothing. -/
theorem freshCall_refused (forward : s.isReplay = false)
    (refused : ¬OrdinaryCallSends engine around s service operation) :
    let done := behaviour around outcomes
      (freshCall engine s service operation request buffer) []
    Unsent done ∧ Told s buffer done := by
  unfold freshCall
  obtain ⟨asked, _, polled⟩ := @behaviour_pollCancelled engine around outcomes _ []
  rw [polled]
  cases cancelled : engine.signalStore && around.cancelled with
  | true => exact told_failed _ (by decide)
  | false => ?_
  simp only [false_eq_true, if_false, ask_eq, ask_bind, done_bind]
  rw [@behaviour_ask around outcomes .canStartNewWork around.admitted _ _ rfl rfl]
  cases admitted : around.admitted with
  | false => exact told_failed _ (by decide)
  | true => ?_
  simp only [Bool.not_true, Bool.false_eq_true, if_false]
  cases capped : engine.eventCapReached s with
  | true =>
    simp only [if_true, continueAsNew, pure_eq, bind_assoc, done_bind]
    obtain ⟨persistence, after, recorded, longer, written⟩ := @behaviour_recordEvent engine around
      outcomes { s with autoContinueAsNewTriggered := true }
      { step := s.stepCount, eventType := .continueAsNew, newInput := s.originalInput } rfl forward
      _ _
    rw [written]
    refine ⟨?_, fun _ => ⟨_, _, rfl, fun same => ?_⟩⟩
    · simpa [Unsent] using unsent_recordWrites _
    · have grown := congrArg length (longer.symm.trans same)
      simp at grown
  | false => ?_
  simp only [false_eq_true, if_false]
  cases declared : engine.callSemantics service operation with
  | atLeastOnce => exact absurd ⟨cancelled, admitted, capped, declared⟩ refused
  | writeAheadIntent =>
    dsimp only [freshCallWithIntent]
    cases unusable : engine.intentStoreError with
    | some reason => exact told_failed _ (by decide)
    | none => 
      simp only [ask_eq, ask_bind, done_bind]
      rw [@behaviour_effect around outcomes (.writeCallIntent _) (.ok around.clockMs) _ _ rfl rfl]
      constructor
      · simp [Unsent]
      · intro none
        cases none

/-- The error class of a result word of the durable-call family stands in its second byte. -/
theorem getLsbD_packDurableCallResult (length : Nat) (code errCode : UInt8) {bit : Nat}
    (small : bit < 8) : (packDurableCallResult length code errCode).toBitVec.getLsbD (8 + bit) =
      code.toBitVec.getLsbD bit := by
  have inWord : 8 + bit < 64 := by omega
  have belowLength : 8 + bit < 40 := by omega
  simp [packDurableCallResult, inWord, belowLength]

/-- Failures of different classes are different replies. -/
theorem callFailed_code_injective {message other : Bytes} {class_ : UInt8}
    (same : callFailed buffer message code = callFailed buffer other class_) : code = class_ := by
  apply UInt8.toBitVec_inj.mp
  apply BitVec.eq_of_getLsbD_eq
  intro bit small
  have bits := congrArg (fun reply : Reply => reply.word.toBitVec.getLsbD (8 + bit)) same
  simpa only [callFailed, getLsbD_packDurableCallResult _ _ _ small] using bits

/-- Nothing is sent or written, and what is returned is never the failure of an ordinary call. -/
def Refuses (s : ExecSession) (buffer : OutBuf) (done : Behaviour) : Prop :=
  done.1 = [] ∧ ∀ reply history, done.2 = some (reply, history) → history = s.history ∧
    ∀ message code, code ≠ callErrorRetryPolicyTooLong → reply ≠ callFailed buffer message code

theorem policy_refused (forward : s.isReplay = false)
    (refused : ¬PolicySends engine around s policy) :
    Refuses s buffer (behaviour around outcomes
      (durableCallWithRetry engine s service operation request policy buffer) []) := by
  have told : ∀ reply : Reply, (∀ message code, code ≠ callErrorRetryPolicyTooLong →
      reply ≠ callFailed buffer message code) → Refuses s buffer ([], some (reply, s.history)) := by
    intro reply apart
    refine ⟨rfl, fun given history same => ?_⟩
    cases same
    exact ⟨rfl, apart⟩
  have wordless : ∀ word message code, (⟨word, []⟩ : Reply) ≠ callFailed buffer message code := by
    intro word message code same
    have lengths := congrArg (fun reply : Reply => reply.out.length) same
    cases lengths
  simp only [durableCallWithRetry, forward, false_eq_true, if_false, stopBeforeNewWork]
  cases starts : engine.mayStart s with
  | false =>
    have drained : (engine.deferPhase && !s.inDeferDrain) = true := by
      simpa only [Engine.mayStart, not_eq_false'] using starts
    rw [if_pos drained]
    exact told _ fun message code _ => wordless _ message code
  | true => ?_
  have undrained : (engine.deferPhase && !s.inDeferDrain) = false := by
    simpa only [Engine.mayStart, not_eq_true'] using starts
  simp only [undrained, false_eq_true, if_false, ask_eq, ask_bind, done_bind]
  rw [@behaviour_ask around outcomes .shutdownObserved around.shutdown _ _ rfl rfl]
  cases stopped : around.shutdown with
  | true => exact told _ fun message code _ => wordless _ message code
  | false => ?_
  cases fits : retryPolicyFitsBudget engine policy engine.hostRetryBudget with
  | false =>
    refine told _ fun message code other same => other ?_
    exact (callFailed_code_injective same).symm
  | true => ?_
  simp only [Bool.not_true, Bool.false_eq_true, if_false, freshCallWithRetry]
  cases decoded : nonRetryableCodes engine policy with
  | none => exact told _ fun message code _ => wordless _ message code
  | some codes => ?_
  have noAttempt : ¬0 < engine.allowedAttempts policy.maxAttempts := fun allowed =>
    refused ⟨starts, stopped, fits, by rw [decoded]; rfl, allowed⟩
  have spent : (engine.allowedAttempts policy.maxAttempts - ((0 : Nat) : Int)).toNat = 0 := by omega
  rw [spent]
  simp [retryAttempts, ask_eq, behaviour, drive, Surroundings.serve, Surroundings.answer, Refuses]

/-- A policy that is not refused makes its first attempt. -/
theorem policy_attempts (forward : s.isReplay = false)
    (sends : PolicySends engine around s policy) :
    ∃ codes left past, sentCount past = 0 ∧ behaviour around outcomes
        (durableCallWithRetry engine s service operation request policy buffer) [] =
      behaviour around outcomes (retryAttempts engine policy codes service operation request
        s.stepCount buffer (left + 1) 1 s) past := by
  obtain ⟨starts, stopped, fits, decoded, allowed⟩ := sends
  obtain ⟨codes, decodes⟩ := Option.isSome_iff_exists.mp decoded
  obtain ⟨left, counts⟩ : ∃ left, (engine.allowedAttempts policy.maxAttempts -
      ((0 : Nat) : Int)).toNat = left + 1 :=
    ⟨(engine.allowedAttempts policy.maxAttempts).toNat - 1, by omega⟩
  have undrained : (engine.deferPhase && !s.inDeferDrain) = false := by
    simpa only [Engine.mayStart, not_eq_true'] using starts
  refine ⟨codes, left, [⟨.shutdownObserved, around.shutdown⟩], rfl, ?_⟩
  simp only [durableCallWithRetry, forward, false_eq_true, if_false, stopBeforeNewWork,
    undrained, ask_eq, ask_bind, done_bind]
  rw [@behaviour_ask around outcomes .shutdownObserved around.shutdown _ _ rfl rfl]
  simp only [stopped, Bool.false_eq_true, if_false, fits, Bool.not_true, freshCallWithRetry,
    decodes, counts]
  rfl

/-- An ordinary call that is not refused is sent. -/
theorem freshCall_dispatches (sends : OrdinaryCallSends engine around s service operation) :
    ∃ past, sentCount past = 0 ∧ behaviour around outcomes
        (freshCall engine s service operation request buffer) [] =
      behaviour around outcomes (dispatchCall engine { s with eventCount := s.eventCount + 1 }
        service operation request buffer) past := by
  obtain ⟨running, admitted, uncapped, ordinary⟩ := sends
  unfold freshCall
  obtain ⟨asked, unsent, polled⟩ := @behaviour_pollCancelled engine around outcomes _ []
  refine ⟨asked ++ [⟨.canStartNewWork, around.admitted⟩], ?_, ?_⟩
  · simpa [sentCount] using unsent
  · rw [polled]
    simp only [running, false_eq_true, if_false, ask_eq, ask_bind, done_bind]
    rw [@behaviour_ask around outcomes .canStartNewWork around.admitted _ _ rfl rfl]
    simp only [admitted, Bool.not_true, Bool.false_eq_true, if_false, uncapped, ordinary]
    rfl

/-- The request of a step, answered with the first outcome. -/
def firstRequest (engine : Engine) (outcomes : Nat → ServiceAnswer) (s : ExecSession)
    (service operation request : String) : Observed :=
  ⟨.callService service operation request s.stepCount (engine.callKey s.stepCount), outcomes 0⟩

/-- What both calls do with a successful first outcome. -/
def firstSuccess (engine : Engine) (around : Surroundings) (outcomes : Nat → ServiceAnswer)
    (s : ExecSession) (service operation request response : String) (buffer : OutBuf) : Behaviour :=
  let record := callEvent s.stepCount service operation request response ""
  (firstRequest engine outcomes s service operation request :: recordWrites engine around s record,
    some (callSucceeded buffer (bytesOf response),
      s.history ++ [stampEvent s record around.clockMs]))

/-- The first attempt of a policy sends the request of its step. -/
theorem behaviour_callService (next : ServiceAnswer → Work Replied) (unsent : sentCount past = 0) :
    ∃ asked, behaviour around outcomes
        (callService engine service operation request s.stepCount >>= next) past =
      let rest := behaviour around outcomes (next (outcomes 0)) asked
      (firstRequest engine outcomes s service operation request :: rest.1, rest.2) := by
  refine ⟨_, @behaviour_effect around outcomes (.callService service operation request s.stepCount
    (engine.callKey s.stepCount)) (outcomes 0) _ past ?_ rfl⟩
  simp only [Surroundings.serve, unsent]

theorem retryAttempts_success (forward : s.isReplay = false) (unsent : sentCount past = 0)
    (succeeds : outcomes 0 = .ok response) :
    behaviour around outcomes (retryAttempts engine policy codes service operation request
        s.stepCount buffer (left + 1) 1 s) past =
      firstSuccess engine around outcomes s service operation request response buffer := by
  obtain ⟨asked, sent⟩ := behaviour_callService _ unsent
  unfold retryAttempts
  rw [sent]
  simp only [succeeds]
  obtain ⟨persistence, after, recorded, longer, written⟩ := @behaviour_recordEvent engine around
    outcomes s (callEvent s.stepCount service operation request response "") rfl forward
    (fun recorded => pure (callSucceeded buffer (bytesOf response), recorded.2)) asked
  rw [written]
  simp [firstSuccess, longer]

theorem dispatchCall_success (forward : s.isReplay = false) (unsent : sentCount past = 0)
    (succeeds : outcomes 0 = .ok response) :
    behaviour around outcomes (dispatchCall engine { s with eventCount := s.eventCount + 1 }
        service operation request buffer) past =
      firstSuccess engine around outcomes s service operation request response buffer := by
  obtain ⟨asked, sent⟩ := behaviour_callService _ unsent
  unfold dispatchCall
  rw [sent]
  simp only [succeeds]
  obtain ⟨persistence, after, recorded, longer, written⟩ := @behaviour_recordEvent engine around
    outcomes { s with eventCount := s.eventCount + 1 }
    (callEvent s.stepCount service operation request response "") rfl forward
    (fun recorded => pure (callSucceeded buffer (bytesOf response), recorded.2)) asked
  rw [written]
  simp only [pure_eq, behaviour_done, longer, append_nil]
  rfl

/-- An event that only a policy records: a failed attempt, or the failure of a policy that was
not to be retried or has no attempts left. -/
def EventRecord.ofPolicy (record : EventRecord) : Bool :=
  record.eventType ≠ .call || record.errNonRetryable || record.retriesExhausted

/-- The history a call leaves extends the one it found. -/
def Extends (s : ExecSession) (outcome : Option Replied) : Prop :=
  ∀ result ∈ outcome, s.history <+: result.2.history

attribute [local simp] Extends

/-- Recording an event extends the history, and so does what extends it further. -/
theorem recordEvent_extends {s : ExecSession} {record : EventRecord}
    {next : EventPersistence × ExecSession → Work Replied} (further : ∀ persistence after,
      (next (persistence, after)).Ensures Usual fun _ outcome => Extends after outcome) :
    (recordEvent engine s record >>= next).Ensures Usual fun _ outcome => Extends s outcome := by
  have carry : ∀ persistence after, s.history <+: after.history →
      (next (persistence, after)).Ensures Usual fun _ outcome => Extends s outcome :=
    fun persistence after longer => (further persistence after).mono
      fun _ _ extends_ result given => longer.trans (extends_ result given)
  have timed : (recordTime record).Ensures Usual fun _ _ => True :=
    ensures_of_forall _ fun _ _ => trivial
  unfold recordEvent
  rw [bind_assoc, ensures_bind]
  refine timed.mono fun trace outcome _ => ?_
  cases outcome with
  | none => simp
  | some clockMs =>
    dsimp only
    split
    · simp only [ask_eq, ask_bind, done_bind, ensures_ask]
      refine ⟨by simp, fun persistence _ => ?_⟩
      split <;> exact carry _ _ (prefix_append _ _)
    · exact carry _ _ (prefix_append _ _)

/-- The attempts of a policy extend the history. -/
theorem retryAttempts_extends {attempt : Int} {step : Nat} {s : ExecSession} :
    (retryAttempts engine policy codes service operation request step buffer left attempt
      s).Ensures Usual fun _ outcome => Extends s outcome := by
  have returned : ∀ (reply : Reply) (after : ExecSession), Extends after (some (reply, after)) := by
    intro reply after result given
    cases given
    exact prefix_refl _
  induction left generalizing attempt s with
  | zero =>
    exact ⟨by simp, fun never => never.elim⟩
  | succ left ih =>
    simp only [retryAttempts, callService, ask_eq, ask_bind, done_bind,
      ensures_ask]
    refine ⟨by simp, fun outcome _ => ?_⟩
    cases outcome with
    | ok response => exact recordEvent_extends fun _ after => returned _ after
    | error failure =>
      dsimp only
      split
      · exact recordEvent_extends fun _ after => returned _ after
      · split
        · exact recordEvent_extends fun _ after => returned _ after
        · refine recordEvent_extends fun _ after => ?_
          refine ⟨by simp, fun waited _ => ?_⟩
          cases waited with
          | elapsed => exact ih
          | contextDone reason => exact returned _ after
          | shutdownRequested => exact returned _ after

/-- A failed first attempt leaves an event that only a policy records. -/
theorem retryAttempts_failure (forward : s.isReplay = false) (unsent : sentCount past = 0)
    (fails : outcomes 0 = .error failure) :
    ∀ reply history, (behaviour around outcomes (retryAttempts engine policy codes service
        operation request s.stepCount buffer (left + 1) 1 s) past).2 = some (reply, history) →
      ∃ record more, history = s.history ++ record :: more ∧ record.ofPolicy = true := by
  obtain ⟨asked, sent⟩ := behaviour_callService _ unsent
  unfold retryAttempts
  rw [sent]
  simp only [fails]
  intro reply history
  -- One event is recorded in each case, and what follows extends the history it is in.
  have kept : ∀ record : EventRecord, record.timestampMs = 0 → record.ofPolicy = true →
      ∀ next : EventPersistence × ExecSession → Work Replied,
      (∀ persistence after, (next (persistence, after)).Always
        fun _ outcome => Extends after outcome) →
      (behaviour around outcomes (recordEvent engine s record >>= next) asked).2 =
        some (reply, history) →
      ∃ record more, history = s.history ++ record :: more ∧ record.ofPolicy = true := by
    intro record unstamped marked next further given
    obtain ⟨persistence, after, recorded, longer, written⟩ := @behaviour_recordEvent engine around
      outcomes s record unstamped forward next asked
    rw [written] at given
    obtain ⟨result, returned, same⟩ := Option.map_eq_some_iff.mp given
    cases same
    have extended := (further persistence after).of_runs (drive_runs _ _ _)
      (fun _ _ => trivial) result returned
    obtain ⟨more, grown⟩ := extended
    refine ⟨stampEvent s record around.clockMs, more, ?_, ?_⟩
    · rw [← grown, longer, append_assoc, singleton_append]
    · exact marked
  split
  · exact kept _ rfl rfl _ fun _ after => by simp
  · split
    · exact kept _ rfl rfl _ fun _ after => by simp
    · refine kept _ rfl rfl _ fun _ after => ?_
      simp only [ask_eq, ask_bind, done_bind, ensures_ask]
      refine ⟨by simp, fun waited _ => ?_⟩
      cases waited with
      | elapsed => exact retryAttempts_extends
      | contextDone reason => simp
      | shutdownRequested => simp

/-- A failed ordinary call leaves no such event. -/
theorem dispatchCall_failure (forward : s.isReplay = false) (unsent : sentCount past = 0)
    (fails : outcomes 0 = .error failure) :
    ∃ reply more, (behaviour around outcomes
        (dispatchCall engine { s with eventCount := s.eventCount + 1 } service operation request
          buffer) past).2 = some (reply, s.history ++ more) ∧
      ∀ record ∈ more, record.ofPolicy = false := by
  obtain ⟨asked, sent⟩ := behaviour_callService _ unsent
  unfold dispatchCall
  rw [sent]
  simp only [fails, ask_eq, ask_bind, done_bind]
  rw [@behaviour_ask around outcomes .hardStopObserved around.shutdown _ _ rfl rfl]
  cases around.shutdown with
  | true => exact ⟨_, [], by simp; rfl, by simp⟩
  | false =>
    obtain ⟨persistence, after, recorded, longer, written⟩ := @behaviour_recordEvent engine around
      outcomes { s with eventCount := s.eventCount + 1 } (callEvent s.stepCount service operation
        request failure.response failure.message) rfl forward (fun recorded =>
        pure (callFailed buffer (bytesOf failure.message) callFailureCode, recorded.2))
      (asked ++ [⟨.hardStopObserved, false⟩])
    refine ⟨callFailed buffer (bytesOf failure.message) callFailureCode,
      [stampEvent s (callEvent s.stepCount service operation request failure.response
        failure.message) around.clockMs], ?_, ?_⟩
    · simp only [false_eq_true, if_false]
      rw [written]
      simp only [pure_eq, behaviour_done, longer]
      rfl
    · simp [EventRecord.ofPolicy, stampEvent, callEvent]

theorem retryAttempts_sent (unsent : sentCount past = 0) :
    Sent engine outcomes s service operation request (behaviour around outcomes
      (retryAttempts engine policy codes service operation request s.stepCount buffer (left + 1) 1
        s) past) := by
  obtain ⟨asked, sent⟩ := behaviour_callService _ unsent
  unfold retryAttempts
  rw [sent]
  rfl

theorem dispatchCall_sent (unsent : sentCount past = 0) :
    Sent engine outcomes s service operation request (behaviour around outcomes
      (dispatchCall engine { s with eventCount := s.eventCount + 1 } service operation request
        buffer) past) := by
  obtain ⟨asked, sent⟩ := behaviour_callService _ unsent
  unfold dispatchCall
  rw [sent]
  rfl

/-- In a session that executes forward, an ordinary call does what a policy does when both are
let through and the first attempt succeeds, and never otherwise.

Proof: a call that is let through begins with the request, and one that is refused does not. Two
refusals differ in what they return or in the history they leave. After a failed request the
policy leaves an event that an ordinary call never records. -/
theorem ordinary_like_policy_iff (forward : s.isReplay = false) :
    behaviour around outcomes (freshCall engine s service operation request buffer) [] =
        behaviour around outcomes
          (durableCallWithRetry engine s service operation request policy buffer) [] ↔
      OrdinaryCallSends engine around s service operation ∧ PolicySends engine around s policy ∧
        (outcomes 0).isOk = true := by
  have attempted := @policy_attempts engine around outcomes s service operation request policy buffer
    forward
  have refused := @policy_refused engine around outcomes s service operation request policy buffer
    forward
  by_cases ordinary : OrdinaryCallSends engine around s service operation
  · obtain ⟨before, unsent, dispatches⟩ := @freshCall_dispatches engine around outcomes s service
      operation request buffer ordinary
    rw [dispatches]
    by_cases admitted : PolicySends engine around s policy
    · obtain ⟨codes, left, past, unsentPast, attempts⟩ := attempted admitted
      rw [attempts]
      cases first : outcomes 0 with
      | ok response =>
        rw [dispatchCall_success forward unsent first,
          retryAttempts_success forward unsentPast first]
        exact iff_of_true rfl ⟨ordinary, admitted, rfl⟩
      | error failure =>
        refine iff_of_false (fun same => ?_) fun ⟨_, _, succeeds⟩ => by cases succeeds
        obtain ⟨reply, more, left_, plain⟩ := @dispatchCall_failure engine around outcomes s
          service operation request buffer before failure forward unsent first
        rw [same] at left_
        obtain ⟨record, rest, grown, marked⟩ := retryAttempts_failure forward unsentPast first _ _
          left_
        rw [append_cancel_left grown] at plain
        rw [plain record (mem_cons_self ..)] at marked
        cases marked
    · refine iff_of_false (fun same => ?_) fun ⟨_, sends, _⟩ => admitted sends
      obtain ⟨nothing, _⟩ := refused admitted
      have sent := @dispatchCall_sent engine around outcomes s service operation request buffer _
        unsent
      rw [same, Sent, nothing] at sent
      cases sent
  · refine iff_of_false (fun same => ?_) fun ⟨sends, _, _⟩ => ordinary sends
    obtain ⟨unsent, told⟩ := @freshCall_refused engine around outcomes s service operation request
      buffer forward ordinary
    by_cases admitted : PolicySends engine around s policy
    · obtain ⟨codes, left, past, unsentPast, attempts⟩ := attempted admitted
      rw [attempts] at same
      exact unsent.ne_sent (retryAttempts_sent unsentPast) same
    · obtain ⟨nothing, returns⟩ := refused admitted
      rw [same] at told
      obtain ⟨reply, history, given, failed⟩ := told nothing
      obtain ⟨unchanged, apart⟩ := returns reply history given
      obtain ⟨message, code, other, isFailure⟩ := failed unchanged
      exact apart message code other isFailure

end Frontier

/-- The behaviour of a call with a retry policy in a session that does or does not replay. -/
def retryBehaviour (engine : Engine) (around : Surroundings)
    (outcomes : Nat → ServiceAnswer) (s : ExecSession) (replaying : Bool)
    (service operation request : String) (policy : RetryPolicy) (buffer : OutBuf) : Behaviour :=
  behaviour around outcomes (durableCallWithRetry engine { s with isReplay := replaying } service
    operation request policy buffer) []

/-- At the end of a consumed history a call with a retry policy does the same whether its session
was resumed from that history or never replayed, exactly when the ordinary call and the policy
are both let through and the first attempt succeeds. -/
theorem retry_at_frontier_iff (engine : Engine) (around : Surroundings)
    (outcomes : Nat → ServiceAnswer) (s : ExecSession) (service operation request : String)
    (policy : RetryPolicy) (buffer : OutBuf) (consumed : s.stepCount = s.history.length) :
    retryBehaviour engine around outcomes s true service operation request policy buffer =
        retryBehaviour engine around outcomes s false service operation request policy buffer ↔
      OrdinaryCallSends engine around s service operation ∧ PolicySends engine around s policy ∧
        (outcomes 0).isOk = true := by
  unfold retryBehaviour
  rw [durableCallWithRetry_replay consumed]
  exact ordinary_like_policy_iff (s := { s with isReplay := false }) rfl

/-- A session that has consumed its only event. -/
def consumedSession : ExecSession :=
  { history := [callEvent 0 "svc" "first" "" "done" ""], stepCount := 1, isReplay := true, nowMs := 0 }

/-- A policy of three attempts. -/
def threeAttempts : RetryPolicy := ⟨3, 1, 100, 0, ""⟩

theorem retry_at_frontier_success :
    retryBehaviour {} {} (fun _ => .ok "done") consumedSession true "svc" "op" "" threeAttempts
        roomy =
      retryBehaviour {} {} (fun _ => .ok "done") consumedSession false "svc" "op" "" threeAttempts
        roomy :=
  (retry_at_frontier_iff {} {} _ consumedSession "svc" "op" "" threeAttempts roomy rfl).mpr
    (by decide)

/-- A first attempt that fails and would have been followed by a second one is the only attempt
of a resumed session. -/
theorem resumed_policy_makes_one_attempt :
    consumedSession.stepCount = consumedSession.history.length ∧
      retryBehaviour {} {} (fun attempt => if attempt = 0 then .error ⟨"down", "", none, "", ""⟩
          else .ok "done") consumedSession true "svc" "op" "" threeAttempts roomy ≠
        retryBehaviour {} {} (fun attempt => if attempt = 0 then .error ⟨"down", "", none, "", ""⟩
          else .ok "done") consumedSession false "svc" "op" "" threeAttempts roomy := by
  refine ⟨rfl, fun same => ?_⟩
  have results := congrArg Prod.snd same
  revert results
  decide +kernel

end Cleat
