import Cleat.Idempotency
import Cleat.Sends

/-!
# Announcing a request before it is sent

An operation that is declared write-ahead commits a pending row before its request goes out,
so that a worker that dies in between leaves a trace of it. Five host calls can send a request
of such an operation. This module follows each of them and says exactly when every request is
announced: the declaration is looked up by the ordinary call alone, and the other four send
without a row whenever they come to send at all.
-/
namespace Cleat

open Durable Durable.Program List

/-- The host calls that can send a request. -/
inductive DispatchPath where
  | durableCall (buffer : OutBuf)
  | durableCallWithRetry (policy : RetryPolicy) (buffer : OutBuf)
  | durableCallWithHeartbeat (heartbeatIntervalMs : Int) (buffer : OutBuf)
  | durableSend
  | durableScheduleInvoke (delayMs : Int)
deriving DecidableEq, Repr

def DispatchPath.execute (engine : Engine) (s : ExecSession) (service operation request : String) :
    DispatchPath → Work Replied
  | .durableCall buffer => Cleat.durableCall engine s service operation request buffer
  | .durableCallWithRetry policy buffer =>
    Cleat.durableCallWithRetry engine s service operation request policy buffer
  | .durableCallWithHeartbeat interval buffer =>
    Cleat.durableCallWithHeartbeat engine s service operation request interval buffer
  | .durableSend => Cleat.durableSend engine s service operation request
  | .durableScheduleInvoke delayMs =>
    Cleat.durableScheduleInvoke engine s service operation request delayMs

/-- A request of an operation that is declared write-ahead. -/
def Query.Declared (engine : Engine) : Query → Prop
  | .callService service operation _ _ _ =>
    engine.callSemantics service operation = .writeAheadIntent
  | _ => False

/-- The step whose pending row has been committed. -/
def announcedStep : Observed → Option Nat
  | ⟨.writeCallIntent intent, .ok _⟩ => some intent.step
  | _ => none

/-- Every request of a declared operation is sent for a step whose pending row has been
committed, by now or among the given ones. -/
def Announced (engine : Engine) : List Nat → Trace → Prop
  | _, [] => True
  | steps, observed :: rest =>
    (observed.query.Declared engine → ∀ step ∈ observed.query.dispatchStep, step ∈ steps) ∧
      Announced engine ((announcedStep observed).toList ++ steps) rest

section Announced

variable {engine : Engine} {α β : Type} {Usual : Observed → Prop}

variable {steps : List Nat} {query : Query} {program : Work α}

theorem Announced.mono {trace : Trace} {more : List Nat} (announced : Announced engine steps trace)
    (included : steps ⊆ more) : Announced engine more trace := by
  induction trace generalizing steps more with
  | nil => trivial
  | cons observed rest ih =>
    obtain ⟨sent, later⟩ := announced
    refine ⟨fun declared step given => included (sent declared step given), ih later ?_⟩
    exact append_subset.mpr ⟨subset_append_left _ _,
      fun step found => mem_append_right _ (included found)⟩

theorem undeclared_of_unsent (unsent : query.dispatchStep = none) :
    ¬query.Declared engine := by
  cases query <;> first | exact id | cases unsent

theorem undeclared_free (query : Query) (unsent : query.dispatchStep = none)
    (_ : query.panics = false) : ¬query.Declared engine :=
  undeclared_of_unsent unsent

/-- A part of a program that sends nothing declared can be passed over. -/
theorem ensures_announced_bind {next : α → Work β}
    (quiet : program.Every fun query => ¬query.Declared engine)
    (rest : ∀ value, (next value).Ensures Usual fun trace _ => Announced engine steps trace) :
    (program >>= next).Ensures Usual fun trace _ => Announced engine steps trace := by
  induction program with
  | done value => exact rest value
  | ask query further ih =>
    refine ⟨trivial, fun answer _ => (ih answer (quiet.2 answer)).mono ?_⟩
    intro trace _ announced
    exact ⟨fun declared => absurd declared quiet.1,
      announced.mono (subset_append_right _ _)⟩

theorem ensures_announced (quiet : program.Every fun query => ¬query.Declared engine) :
    program.Ensures Usual fun trace _ => Announced engine steps trace := by
  rw [← bind_done program]
  exact ensures_announced_bind quiet fun value => trivial

/-- A query may be asked if its step has been announced where it needs to be. -/
theorem ensures_announced_ask {next : Answer query → Work α}
    (sent : query.Declared engine → ∀ step ∈ query.dispatchStep, step ∈ steps)
    (rest : ∀ answer, (next answer).Ensures Usual fun trace _ =>
      Announced engine ((announcedStep ⟨query, answer⟩).toList ++ steps) trace) :
    (Program.ask query next).Ensures Usual fun trace _ => Announced engine steps trace :=
  ⟨trivial, fun answer _ => (rest answer).mono fun _ _ announced => ⟨sent, announced⟩⟩

end Announced

section Paths

variable (engine : Engine) {s : ExecSession} {service operation request : String} {buffer : OutBuf}
  {steps : List Nat} {Usual : Observed → Prop}

/-- A write-ahead call sends its request behind its own row. -/
theorem freshCallWithIntent_announced (steps : List Nat) (step : Nat) :
    (freshCallWithIntent engine s service operation request step).Ensures Usual
      fun trace _ => Announced engine steps trace := by
  unfold freshCallWithIntent callService
  split
  · trivial
  · simp only [ask_eq, Program.ask_bind, Program.done_bind]
    refine ensures_announced_ask (fun declared => declared.elim) fun answer => ?_
    cases answer with
    | error reason => trivial
    | ok createdAt =>
      refine ensures_announced_ask (fun _ other given => ?_) fun outcome => ?_
      · obtain rfl : step = other := Option.some.inj given
        exact mem_cons_self
      · refine ensures_announced ⟨undeclared_of_unsent rfl, fun clockMs =>
          ⟨undeclared_of_unsent rfl, fun completed => ?_⟩⟩
        cases completed with
        | error reason => trivial
        | ok done =>
          refine .bind ?_ fun _ => every_pure ..
          refine .bind (.ite (every_ask (undeclared_of_unsent rfl)) (every_pure ..)) ?_
          exact fun _ => every_pure ..

variable (declared : engine.callSemantics service operation = .writeAheadIntent)

include declared

theorem freshCall_announced :
    (freshCall engine s service operation request buffer).Ensures Usual
      fun trace _ => Announced engine steps trace := by
  refine ensures_announced_bind (pollCancelled_every engine undeclared_free) fun cancelled => ?_
  split
  · trivial
  · refine ensures_announced_bind (every_ask (undeclared_of_unsent rfl)) fun admitted => ?_
    split
    · trivial
    · split
      · refine ensures_announced ?_
        exact ((recordEvent_every engine undeclared_free ..).bind fun _ => every_pure ..).bind
          fun _ => every_pure ..
      · split
        · rw [ensures_bind]
          refine (freshCallWithIntent_announced engine steps _).mono fun trace outcome announced => ?_
          cases outcome with
          | none => exact announced
          | some result => simpa using announced
        · rename_i ordinary
          cases declared.symm.trans ordinary

theorem replayCall_announced :
    (replayCall engine s service operation request buffer).Ensures Usual
      fun trace _ => Announced engine steps trace := by
  unfold replayCall
  split
  · exact freshCall_announced engine declared
  · split
    · trivial
    · split
      · trivial
      · split
        · exact ensures_announced (replayPendingIntent_every engine
            undeclared_free ..)
        · trivial

theorem durableCall_announced :
    (durableCall engine s service operation request buffer).Ensures Usual
      fun trace _ => Announced engine steps trace := by
  unfold durableCall
  split
  · exact replayCall_announced engine declared
  · refine ensures_announced_bind (stopBeforeNewWork_every engine undeclared_free s) fun stop => ?_
    split
    · trivial
    · exact freshCall_announced engine declared

end Paths

/-- New work may start as far as the session knows: it is not in a defer segment, or drains its
defers. -/
def Engine.mayStart (engine : Engine) (s : ExecSession) : Bool :=
  !(engine.deferPhase && !s.inDeferDrain)

/-- The record of a failed attempt of an operation. -/
def EventRecord.isAttemptOf (service operation : String) (record : EventRecord) : Bool :=
  record.eventType = .callAttemptFailed && record.service = service && record.op = operation

attribute [local simp] EventRecord.isAttemptOf

/-- The call comes to send its request without a look at the declaration of its operation. An
ordinary call never does. -/
def DispatchPath.sendsDirectly (engine : Engine) (s : ExecSession) (service operation : String) :
    DispatchPath → Bool
  | .durableCall _ => false
  | .durableCallWithRetry policy _ =>
    engine.mayStart s && (nonRetryableCodes engine policy).isSome &&
      if s.isReplay then
        !s.remaining.isEmpty &&
          s.remaining.all (EventRecord.isAttemptOf service operation) &&
          decide (s.remaining.length < engine.allowedAttempts policy.maxAttempts)
      else
        retryPolicyFitsBudget engine policy engine.hostRetryBudget &&
          decide (0 < engine.allowedAttempts policy.maxAttempts)
  | .durableCallWithHeartbeat _ _ =>
    if s.isReplay then s.remaining.all fun record => record.eventType = .heartbeat
    else engine.mayStart s
  | .durableSend | .durableScheduleInvoke _ =>
    engine.mayStart s && (!s.isReplay || s.remaining.isEmpty)

section Direct

variable {engine : Engine} {s : ExecSession} {service operation request : String}
  (declared : engine.callSemantics service operation = .writeAheadIntent)

variable {α : Type}

/-- The request of a declared operation goes out without a row. -/
theorem not_announced_callService {next : ServiceAnswer → Work α} {step : Nat}
    (declared : engine.callSemantics service operation = .writeAheadIntent) :
    ¬(callService engine service operation request step >>= next).Always
      fun trace _ => Announced engine [] trace := by
  intro announced
  have sent := (announced.2 (.ok "") trivial).of_runs (run_runs _ []) fun _ _ => trivial
  exact not_mem_nil (sent.1 declared step rfl)

/-- Whether new work may start is asked first. -/
theorem announced_start_iff {fresh : Work Replied} :
    (stopBeforeNewWork engine s >>= fun stop =>
      if stop then pure (suspendReply, s) else fresh).Always
        (fun trace _ => Announced engine [] trace) ↔
      (engine.mayStart s = true → fresh.Always
        fun trace _ => Announced engine [] trace) := by
  constructor
  · intro announced may
    have ordinary : ¬(engine.deferPhase && !s.inDeferDrain) = true := by
      simpa only [Engine.mayStart, Bool.not_eq_true', Bool.not_eq_true] using may
    rw [stopBeforeNewWork, if_neg ordinary] at announced
    refine (announced.2 false trivial).mono fun trace _ later => ?_
    exact later.2
  · intro announced
    unfold stopBeforeNewWork
    split
    · trivial
    · rename_i ordinary
      have may : engine.mayStart s = true := by
        simpa only [Engine.mayStart, Bool.not_eq_true', Bool.not_eq_true] using ordinary
      refine ensures_announced_ask (fun declared => declared.elim) fun stop => ?_
      cases stop with
      | true => trivial
      | false => exact announced may

/-- The attempts of a policy are announced only if there are none. -/
theorem retry_announced_iff {policy : RetryPolicy} {buffer : OutBuf} {spent : Nat}
    {resumeStep : Option Nat}
    (declared : engine.callSemantics service operation = .writeAheadIntent) :
    (freshCallWithRetry engine s service operation request policy buffer spent resumeStep).Always (fun trace _ => Announced engine [] trace) ↔
      ¬((nonRetryableCodes engine policy).isSome = true ∧
        spent < engine.allowedAttempts policy.maxAttempts) := by
  unfold freshCallWithRetry
  cases codes : nonRetryableCodes engine policy with
  | none => simp [Announced]
  | some codes =>
    cases left : (engine.allowedAttempts policy.maxAttempts - spent).toNat with
    | zero =>
      refine iff_of_true (ensures_announced (every_panic (undeclared_of_unsent rfl) _)) ?_
      omega
    | succ left =>
      refine iff_of_false (not_announced_callService declared) ?_
      simp only [Option.isSome_some, true_and, not_not]
      omega

/-- A replay of a policy resumes it exactly if nothing but attempts of it is left. -/
theorem replayRetryAttempts_resume (rest : History) (found : ReplayedAttempts) :
    ((replayRetryAttempts engine service operation rest found).resume = true ↔
        rest.all (EventRecord.isAttemptOf service operation) = true ∧
          0 < found.spent + rest.length) ∧
      (rest.all (EventRecord.isAttemptOf service operation) = true →
        (replayRetryAttempts engine service operation rest found).spent =
          found.spent + rest.length) := by
  induction rest generalizing found with
  | nil => simp [replayRetryAttempts]
  | cons record rest ih =>
    rw [replayRetryAttempts]
    split
    · simp_all
    · split
      · simp_all [imp_iff_not_or]
      · rename_i kind names
        have attempt : record.isAttemptOf service operation = true := by
          simp_all
        obtain ⟨resumes, counts⟩ := ih ⟨advanceReplayStep engine found.session record,
          found.spent + 1, some (found.firstStep.getD record.step), false⟩
        dsimp only at resumes counts
        rw [resumes]
        simp only [all_cons, attempt, Bool.true_and, length_cons]
        refine ⟨and_congr_right fun _ => by omega, fun all => ?_⟩
        rw [counts all]
        omega

theorem replayRetryAttempts_inDeferDrain (rest : History) (found : ReplayedAttempts) :
    (replayRetryAttempts engine service operation rest found).session.inDeferDrain =
      found.session.inDeferDrain := by
  induction rest generalizing found with
  | nil => rfl
  | cons record rest ih =>
    rw [replayRetryAttempts]
    split
    · rfl
    · split
      · rfl
      · exact ih _

/-- What a replay of a policy finds from the beginning of its attempts. -/
theorem replayRetryAttempts_found (engine : Engine) (s : ExecSession) (service operation : String) :
    let found := replayRetryAttempts engine service operation s.remaining ⟨s, 0, none, false⟩
    (found.resume = true ↔ s.remaining.all (EventRecord.isAttemptOf service operation) = true ∧
        s.remaining ≠ []) ∧
      (s.remaining.all (EventRecord.isAttemptOf service operation) = true →
        found.spent = s.remaining.length) ∧
      engine.mayStart (exitReplay found.session) = engine.mayStart s := by
  obtain ⟨resumes, counts⟩ := @replayRetryAttempts_resume engine service operation
    s.remaining ⟨s, 0, none, false⟩
  rw [Nat.zero_add, length_pos_iff] at resumes
  rw [Nat.zero_add] at counts
  refine ⟨resumes, counts, ?_⟩
  simp only [Engine.mayStart, exitReplay, replayRetryAttempts_inDeferDrain]

/-- Past its heartbeats a replay finds a record exactly if something else is left. -/
theorem replayHeartbeats_end (s : ExecSession) :
    (replayHeartbeats engine s.remaining s).current = none ↔
      s.remaining.all (fun record => record.eventType = .heartbeat) = true := by
  generalize rest : s.remaining = remaining
  induction remaining generalizing s with
  | nil =>
    rw [replayHeartbeats, current_of_remaining rest]
    simp
  | cons record remaining ih =>
    rw [replayHeartbeats]
    split
    · rename_i beat
      rw [ih _ (drop_of_remaining rest)]
      simp [beat]
    · rename_i other
      rw [current_of_remaining rest]
      simp [other]

/-- Recording an event announces nothing. -/
theorem not_announced_recordEvent {record : EventRecord}
    {next : EventPersistence × ExecSession → Work α}
    (sends : ∀ value, ¬(next value).Always fun trace _ => Announced engine [] trace) :
    ¬(recordEvent engine s record >>= next).Always
      fun trace _ => Announced engine [] trace := by
  intro announced
  unfold recordEvent recordTime at announced
  by_cases unstamped : record.timestampMs = 0 <;>
    by_cases flushes : (engine.db && !s.isReplay) = true
  · simp only [unstamped, flushes, if_true, ask_eq, ask_bind, done_bind] at announced
    have flushed := (announced.2 0 trivial).2 .persisted trivial
    exact sends _ (flushed.mono fun _ _ later => later.2.2)
  · simp only [unstamped, flushes, if_true, Bool.false_eq_true, if_false, ask_eq, ask_bind,
      done_bind, pure_eq] at announced
    exact sends _ ((announced.2 0 trivial).mono fun _ _ later => later.2)
  · simp only [unstamped, flushes, if_true, if_false, ask_eq, ask_bind, done_bind,
      pure_eq] at announced
    exact sends _ ((announced.2 .persisted trivial).mono fun _ _ later => later.2)
  · simp only [unstamped, flushes, Bool.false_eq_true, if_false, done_bind,
      pure_eq] at announced
    exact sends _ announced

/-- A request in the background goes out without a row. -/
theorem send_announced_iff {eventType : EventType} {delayMs : Int} {background : Work Unit}
    (sends : ∀ s : ExecSession, ¬(background >>= fun _ => pure (accepted, s)).Always fun trace _ => Announced engine [] trace) :
    (sendInBackground engine s eventType service operation request delayMs background).Always (fun trace _ => Announced engine [] trace) ↔
      ¬(engine.mayStart s = true ∧
        (s.isReplay = false ∨ s.remaining.isEmpty = true)) := by
  have fresh : ∀ t : ExecSession,
      (stopBeforeNewWork engine t >>= fun stop =>
        if stop then pure (suspendReply, t)
        else recordEvent engine t
            (sendEvent eventType t.stepCount service operation request delayMs) >>= fun recorded =>
          background >>= fun _ => pure (accepted, recorded.2)).Always
        (fun trace _ => Announced engine [] trace) ↔ ¬engine.mayStart t = true := by
    intro t
    rw [announced_start_iff]
    exact imp_congr_right fun _ => iff_false_intro
      (not_announced_recordEvent fun recorded => sends recorded.2)
  unfold sendInBackground
  cases replaying : s.isReplay with
  | false => simpa using fresh s
  | true =>
    cases rest : s.remaining with
    | nil =>
      have ended : s.current = none := current_of_remaining rest
      have may : engine.mayStart (exitReplay s) = engine.mayStart s := rfl
      simpa [ended, may] using fresh (exitReplay s)
    | cons record rest =>
      have found : s.current = some record := current_of_remaining rest
      simp only [found, if_true]
      refine iff_of_true ?_ (by simp)
      split <;> trivial

end Direct

variable {engine : Engine}

theorem sendInBackground_every {Kind : Query → Prop}
    (free : ∀ query, query.dispatchStep = none → query.panics = false → Kind query) (s : ExecSession)
    (eventType : EventType) (service operation request : String) (delayMs : Int)
    {background : Work Unit} (kind : background.Every Kind) :
    (sendInBackground engine s eventType service operation request delayMs background).Every Kind := by
  have fresh (s : ExecSession) : (stopBeforeNewWork engine s >>= fun stop =>
      if stop then pure (suspendReply, s)
      else recordEvent engine s
          (sendEvent eventType s.stepCount service operation request delayMs) >>= fun recorded =>
        background >>= fun _ => pure (accepted, recorded.2)).Every Kind :=
    .bind (stopBeforeNewWork_every engine free s) fun _ => .ite (every_pure ..)
      (.bind (recordEvent_every engine free ..) fun _ => .bind kind fun _ => every_pure ..)
  refine .ite ?_ (fresh s)
  split
  · exact .ite (every_pure ..) (every_pure ..)
  · exact fresh (exitReplay s)

/-- A call of an operation that is not declared sends nothing that is. -/
theorem DispatchPath.execute_undeclared {service operation : String}
    (ordinary : engine.callSemantics service operation = .atLeastOnce) (s : ExecSession)
    (request : String) (path : DispatchPath) :
    (path.execute engine s service operation request).Every
      fun query => ¬query.Declared engine := by
  have sent : ∀ request step, ¬Query.Declared engine
      (.callService service operation request step (engine.callKey step)) := by
    intro request step declared
    rw [Query.Declared, ordinary] at declared
    cases declared
  have called (call : HostCall) (targeted : call.target = some (service, operation)) :
      (call.execute engine s).Every fun query => ¬query.Declared engine := by
    refine call.execute_every engine undeclared_free s id fun _ _ found => ?_
    rw [targeted] at found
    cases found
    exact sent
  cases path with
  | durableCall buffer => exact called (.durableCall service operation request buffer) rfl
  | durableCallWithRetry policy buffer =>
    exact called (.durableCallWithRetry service operation request policy buffer) rfl
  | durableCallWithHeartbeat interval buffer =>
    exact called (.durableCallWithHeartbeat service operation request interval buffer) rfl
  | durableSend =>
    refine sendInBackground_every undeclared_free _ _ _ _ _ _
      (.bind (every_ask (undeclared_of_unsent rfl)) fun _ => ?_)
    exact .ite (every_pure ..) (.bind (every_ask (sent _ _)) fun _ => every_pure ..)
  | durableScheduleInvoke delayMs =>
    refine sendInBackground_every undeclared_free _ _ _ _ _ _
      (.bind (every_ask (undeclared_of_unsent rfl)) fun waited => ?_)
    cases waited with
    | elapsed => exact .bind (every_ask (sent _ _)) fun _ => every_pure ..
    | contextDone reason => exact every_pure ..
    | shutdownRequested => exact every_pure ..

/-- Every request of a write-ahead operation is announced, in all that a call can do in a
session, exactly if the operation is not declared or the call does not come to send it on a
path of its own.

Proof: the ordinary call sends behind its row. The other calls reach their first request, if
they reach one, before anything has been committed. -/
theorem requests_announced_iff (engine : Engine) (s : ExecSession)
    (service operation request : String) (path : DispatchPath) :
    (∀ trace outcome, (path.execute engine s service operation request).Runs trace outcome →
        Announced engine [] trace) ↔
      (engine.callSemantics service operation = .writeAheadIntent →
        path.sendsDirectly engine s service operation = false) := by
  have ensured : (∀ trace outcome, (path.execute engine s service operation request).Runs trace
      outcome → Announced engine [] trace) ↔
      (path.execute engine s service operation request).Always
        fun trace _ => Announced engine [] trace :=
    ⟨fun holds => ensures_of_runs holds,
      fun holds _ _ runs => holds.of_runs runs fun _ _ => trivial⟩
  rw [ensured]
  cases semantics : engine.callSemantics service operation with
  | atLeastOnce =>
    exact iff_of_true (ensures_announced (path.execute_undeclared semantics s request)) nofun
  | writeAheadIntent =>
    rw [forall_prop_of_true rfl]
    cases path with
    | durableCall buffer => exact iff_of_true (durableCall_announced engine semantics) rfl
    | durableCallWithRetry policy buffer =>
      simp only [DispatchPath.execute, Cleat.durableCallWithRetry, DispatchPath.sendsDirectly]
      cases replaying : s.isReplay with
      | false =>
        simp only [Bool.false_eq_true, if_false]
        rw [announced_start_iff]
        by_cases fits : retryPolicyFitsBudget engine policy engine.hostRetryBudget = true
        · simp only [fits, Bool.not_true, Bool.false_eq_true, if_false,
            retry_announced_iff semantics]
          simp
        · simp [fits, Announced]
      | true =>
        simp only [if_true]
        obtain ⟨resumes, counts, may⟩ := replayRetryAttempts_found engine s service operation
        generalize replayRetryAttempts engine service operation s.remaining
          ⟨s, 0, none, false⟩ = found at resumes counts may ⊢
        cases resumed : found.resume with
        | false =>
          refine iff_of_true (replayCall_announced engine semantics) ?_
          rw [← Bool.not_eq_true]
          intro sends
          simp only [Bool.and_eq_true, Bool.not_eq_true', isEmpty_eq_false_iff] at sends
          rw [resumes.mpr ⟨sends.2.1.2, sends.2.1.1⟩] at resumed
          cases resumed
        | true =>
          simp only [Bool.not_true, Bool.false_eq_true, if_false]
          obtain ⟨all, nonempty⟩ := resumes.mp resumed
          have left : s.remaining.isEmpty = false := isEmpty_eq_false_iff.mpr nonempty
          rw [announced_start_iff, retry_announced_iff semantics, counts all, all, left, may]
          simp
    | durableCallWithHeartbeat interval buffer =>
      simp only [DispatchPath.execute, Cleat.durableCallWithHeartbeat,
        DispatchPath.sendsDirectly]
      cases replaying : s.isReplay with
      | false =>
        simp only [Bool.false_eq_true, if_false]
        rw [announced_start_iff, ← Bool.not_eq_true]
        exact imp_congr_right fun _ => iff_false_intro (not_announced_callService semantics)
      | true =>
        simp only [if_true, replayCallWithHeartbeat]
        rw [← Bool.not_eq_true, ← @replayHeartbeats_end engine s]
        split
        · rename_i ended
          simp only [ended, not_true_eq_false, iff_false]
          exact not_announced_callService semantics
        · rename_i record found
          refine iff_of_true ?_ (by simp [found])
          repeat' first
            | trivial
            | split
    | durableSend =>
      simp only [DispatchPath.execute, Cleat.durableSend, DispatchPath.sendsDirectly]
      rw [send_announced_iff]
      · simp
      · intro s announced
        refine not_announced_callService semantics
          ((announced.2 false trivial).mono fun _ _ later => ?_)
        exact later.2
    | durableScheduleInvoke delayMs =>
      simp only [DispatchPath.execute, Cleat.durableScheduleInvoke, DispatchPath.sendsDirectly]
      rw [send_announced_iff]
      · simp
      · intro s announced
        refine not_announced_callService semantics
          ((announced.2 .elapsed trivial).mono fun _ _ later => ?_)
        exact later.2

/-- A policy of one attempt. -/
def singleAttempt : RetryPolicy := ⟨1, 0, 100, 0, ""⟩

/-- A call with a retry policy sends the request of a declared operation without a row. -/
theorem retry_sends_unannounced : ¬ ∀ (engine : Engine) (s : ExecSession)
    (service operation request : String) (path : DispatchPath),
    engine.callSemantics service operation = .writeAheadIntent →
    ∀ trace outcome, (path.execute engine s service operation request).Runs trace outcome →
      Announced engine [] trace := by
  intro claimed
  have declared : Engine.callSemantics { intentOps := ["svc.op"] } "svc" "op" =
      .writeAheadIntent := by
    decide +kernel
  have announced := claimed { intentOps := ["svc.op"] } (Engine.openSession {} {} []) "svc" "op"
    "request" (.durableCallWithRetry singleAttempt roomy) declared _ _
    (run_runs _ (replicate 2 ({} : Surroundings).answer))
  exact not_mem_nil (announced.2.1 declared 0 rfl)

end Cleat
