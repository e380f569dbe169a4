import Cleat.Runs

/-!
# Idempotency keys

A request carries a key derived from the run and from the step it is sent for, so that a
service can recognise a request it has already seen. The key is worth something only if
every request of one call carries the same key, in whichever segment it is sent, and
requests of different calls carry different ones.

Both hold in every admissible run in which no call that has been sent is turned away when
it is repeated. A call that is turned away returns without a record and leaves its step,
and with it its key, to the next call.
-/
namespace Cleat

open Durable Durable.Program List Standing Program.Ensures

attribute [local simp] Undispatched

/-- The key of a request, if the caller honours one. -/
def Engine.callKey (engine : Engine) (step : Nat) : Option String :=
  if engine.idempotentCaller then
    some (durableCallIdempotencyKey engine engine.workflowID engine.workflowID step)
  else none

/-- The kinds of calls that send requests to the service. -/
def serviceKinds : List CallKind := [.durableCall, .durableCallWithRetry, .durableCallWithHeartbeat]

/-- The service and the operation that a call sends requests to. -/
def HostCall.target : HostCall → Option (String × String)
  | .durableCall service operation _ _ | .durableCallWithRetry service operation _ _ _
  | .durableCallWithHeartbeat service operation _ _ _ => some (service, operation)
  | _ => none

/-- The host fails. -/
def Query.panics : Query → Bool
  | .hostPanic => true
  | _ => false

section Every

variable (engine : Engine) {Kind : Query → Prop}
  (free : ∀ query, query.dispatchStep = none → query.panics = false → Kind query)
  {service operation : String} (sent : ∀ request step,
    Kind (.callService service operation request step (engine.callKey step)))

/-- Nothing follows a panic. -/
theorem every_panic {α : Type} (panics : Kind .hostPanic) (next : Empty → Work α) :
    (ask .hostPanic >>= next).Every Kind :=
  ⟨panics, fun never => never.elim⟩

include free in
theorem recordEvent_every (s : ExecSession) (record : EventRecord) :
    (recordEvent engine s record).Every Kind :=
  every_recordEvent engine s record (free _ rfl rfl) fun _ _ => free _ rfl rfl

include free in
theorem pollCancelled_every : (pollCancelled engine).Every Kind := by
  unfold pollCancelled
  repeat' first
    | with_reducible exact every_pure ..
    | with_reducible exact every_ask (free _ rfl rfl)
    | with_reducible refine .bind ?_ fun _ => ?_
    | with_reducible refine .ite ?_ ?_
    | split

include free in
theorem replayAttempts_every (record : EventRecord) (key : String) (left : Nat) :
    (replayAttempts record key left).Every Kind := by
  induction left with
  | zero => exact every_pure ..
  | succ left ih =>
    unfold replayAttempts
    repeat' first
      | with_reducible exact every_pure ..
      | with_reducible exact every_ask (free _ rfl rfl)
      | with_reducible exact ih
      | with_reducible refine .bind ?_ fun _ => ?_
      | with_reducible refine .ite ?_ ?_
      | split

include free sent in
theorem retryAttempts_every (policy : RetryPolicy) (codes : List String) (request : String)
    (retryStep : Nat) (buffer : OutBuf) (left : Nat) (panics : left = 0 → Kind .hostPanic) :
    ∀ attempt s, (retryAttempts engine policy codes service operation request retryStep buffer left
      attempt s).Every Kind := by
  induction left with
  | zero => exact fun _ _ => every_panic (panics rfl) _
  | succ left ih =>
    intro attempt s
    unfold retryAttempts finishRetry callService
    repeat' first
      | with_reducible exact every_pure ..
      | with_reducible exact every_ask (free _ rfl rfl)
      | with_reducible exact every_ask (sent ..)
      | with_reducible exact recordEvent_every engine free ..
      | with_reducible exact ih (fun none => absurd none ‹_›) ..
      | with_reducible refine .bind ?_ fun _ => ?_
      | split

include free in
theorem beatHeart_every (ticks : Nat) :
    ∀ cancelled s, (beatHeart engine service operation ticks cancelled s).Every Kind := by
  induction ticks with
  | zero => exact fun _ _ => every_pure ..
  | succ ticks ih =>
    intro cancelled s
    exact (recordEvent_every engine free ..).bind fun _ =>
      (pollCancelled_every engine free).bind fun _ => ih ..

include free in
theorem pollSignals_every (names : List String) :
    (pollSignals names).Every Kind := by
  induction names with
  | nil => exact every_pure ..
  | cons name names ih =>
    refine .bind (every_ask (free _ rfl rfl)) fun _ => ?_
    split
    · exact every_pure ..
    · exact ih
    · exact ih

include free in
theorem stopBeforeNewWork_every (s : ExecSession) :
    (stopBeforeNewWork engine s).Every Kind :=
  every_stopBeforeNewWork engine s (free _ rfl rfl)

include free sent in
theorem freshCall_every (s : ExecSession) (request : String) (buffer : OutBuf) :
    (freshCall engine s service operation request buffer).Every Kind := by
  unfold freshCall freshCallWithIntent recordEventPersisted recordTime dispatchCall continueAsNew
    callService
  repeat' first
    | with_reducible exact every_pure ..
    | with_reducible exact every_ask (free _ rfl rfl)
    | with_reducible exact every_ask (sent ..)
    | with_reducible exact recordEvent_every engine free ..
    | with_reducible exact pollCancelled_every engine free
    | with_reducible refine .bind ?_ fun _ => ?_
    | with_reducible refine .ite ?_ ?_
    | split

include free in
theorem replayPendingIntent_every (s : ExecSession) (record : EventRecord) (buffer : OutBuf) :
    (replayPendingIntent engine s record buffer).Every Kind := by
  unfold replayPendingIntent resolveAmbiguityViaKeyReplay resolveAmbiguity replayUnderOriginalKey
    persistAmbiguityResolution recordTime
  repeat' first
    | with_reducible exact every_pure ..
    | with_reducible exact every_ask (free _ rfl rfl)
    | with_reducible exact replayAttempts_every free ..
    | with_reducible refine .bind ?_ fun _ => ?_
    | with_reducible refine .ite ?_ ?_
    | split

include free sent in
theorem replayCall_every (s : ExecSession) (request : String) (buffer : OutBuf) :
    (replayCall engine s service operation request buffer).Every Kind := by
  unfold replayCall
  repeat' first
    | with_reducible exact every_pure ..
    | with_reducible exact freshCall_every engine free sent ..
    | with_reducible exact replayPendingIntent_every engine free ..
    | with_reducible refine .bind ?_ fun _ => ?_
    | with_reducible refine .ite ?_ ?_
    | split

include free in
/-- What holds of every query but a request, and of the requests of a call that sends some,
holds of all that a call asks.

Proof: the calls are composed of the parts above and of single queries. -/
theorem HostCall.execute_every (call : HostCall) (s : ExecSession) (panics : Kind .hostPanic)
    (sent : ∀ service operation, call.target = some (service, operation) → ∀ request step,
      Kind (.callService service operation request step (engine.callKey step))) :
    (call.execute engine s).Every Kind := by
  cases call <;> (try have sent := sent _ _ rfl) <;> dsimp only [execute] <;>
    [unfold Cleat.durableCall;
      unfold Cleat.durableCallWithRetry freshCallWithRetry;
      unfold Cleat.durableCallWithHeartbeat replayCallWithHeartbeat freshCallWithHeartbeat
        finishHeartbeat callService;
      unfold Cleat.sideEffect replaySideEffect freshSideEffect;
      unfold Cleat.createPromise freshCreatePromise;
      unfold Cleat.awaitPromise awaitStore awaitPending;
      unfold Cleat.durableAwaitSignals replayAwaitSignals resumeAwaitSignals freshAwaitSignals
        findSignal receiveSignal;
      unfold Cleat.signalWorkflow beginSignalWorkflow freshSignalWorkflow signalAuthorized;
      unfold Cleat.setScope replaySetScope freshSetScope clearScope releaseCurrentScope acquireScope
        recordScope] <;>
    repeat' first
      | with_reducible exact every_pure ..
      | with_reducible exact every_ask (free _ rfl rfl)
      | with_reducible exact recordEvent_every engine free ..
      | with_reducible exact stopBeforeNewWork_every engine free ..
      | with_reducible exact freshCall_every engine free sent ..
      | with_reducible exact replayCall_every engine free sent ..
      | with_reducible exact retryAttempts_every engine free sent _ _ _ _ _ _ (fun _ => panics) ..
      | with_reducible exact every_panic panics _
      | with_reducible exact every_ask (sent ..)
      | with_reducible exact beatHeart_every engine free ..
      | with_reducible exact pollSignals_every free ..
      | with_reducible refine .bind ?_ fun _ => ?_
      | dsimp only
      | with_reducible refine .ite ?_ ?_
      | split

end Every

/-- A request to the service carries the key of its step. -/
def Query.Keyed (engine : Engine) : Query → Prop
  | .callService _ _ _ step key => key = engine.callKey step
  | _ => True

/-- Every request the engine sends carries the key of its step. -/
theorem HostCall.execute_keyed (engine : Engine) (call : HostCall) (s : ExecSession) :
    (call.execute engine s).Every (Query.Keyed engine) := by
  refine execute_every engine (fun query unsent _ => ?_) call s trivial fun _ _ _ _ _ => rfl
  cases query <;> trivial

/-- A call of another kind sends no request. -/
theorem HostCall.execute_unsent (engine : Engine) (call : HostCall) (s : ExecSession)
    (other : call.kind ∉ serviceKinds) :
    (call.execute engine s).Every fun query => query.dispatchStep = none := by
  refine execute_every engine (fun _ unsent _ => unsent) call s rfl fun _ _ sends => ?_
  cases call with
  | durableCall | durableCallWithRetry | durableCallWithHeartbeat =>
    simp [kind, serviceKinds] at other
  | _ => cases sends

/-- The answers that turn a call away before it starts: the run is cancelled, or the worker
may not start work. -/
def isRefusal : Observed → Bool
  | ⟨.pollCancellation, .ok cancelled⟩ => cancelled
  | ⟨.canStartNewWork, admitted⟩ => !admitted
  | _ => false

/-- The circumstances in which an ordinary call may return without a record: it is turned
away, or it needs an intent that cannot be written. -/
def CallTurnedAway (engine : Engine) (service operation : String) (trace : Trace) : Prop :=
  (∃ observed ∈ trace, isRefusal observed = true) ∨
    engine.callSemantics service operation = .writeAheadIntent ∧ engine.intentStoreError ≠ none

instance (engine : Engine) (service operation : String) (trace : Trace) :
    Decidable (CallTurnedAway engine service operation trace) :=
  inferInstanceAs (Decidable (_ ∨ _))

/-- The circumstances in which a service call may return without a record: those of an
ordinary call, and for a call with a policy also that the host does not run it. -/
def TurnedAway (engine : Engine) (s : ExecSession) (trace : Trace) : HostCall → Prop
  | .durableCall service operation _ _ => CallTurnedAway engine service operation trace
  | .durableCallWithRetry service operation _ policy _ =>
    CallTurnedAway engine service operation trace ∨
      s.isReplay = false ∧ (retryPolicyFitsBudget engine policy engine.hostRetryBudget = false ∨
        nonRetryableCodes engine policy = none)
  | _ => False

instance (engine : Engine) (s : ExecSession) (trace : Trace) :
    DecidablePred (TurnedAway engine s trace)
  | .durableCall service operation _ _ =>
    inferInstanceAs (Decidable (CallTurnedAway engine service operation trace))
  | .durableCallWithRetry _ _ _ _ _ => inferInstanceAs (Decidable (_ ∨ _ ∧ (_ ∨ _)))
  | .durableCallWithHeartbeat _ _ _ _ _ | .sideEffect _ _ | .createPromise _ _
  | .awaitPromise _ _ _ | .durableAwaitSignals _ _ _ _ | .signalWorkflow _ _ _ | .setScope _ _ _ =>
    instDecidableFalse

/-- A call that returned in an active session has moved beyond a step. -/
def Moves (count : Nat) (outcome : Option Replied) : Prop :=
  ∀ reply after, outcome = some (reply, after) → reply.suspends = false →
    after.suspendErr = none → count < after.stepCount

/-- A call has moved beyond a step, or it has sent nothing and is excused. -/
abbrev MovesUnless (count : Nat) (excuse : Trace → Prop) (trace : Trace)
    (outcome : Option Replied) : Prop :=
  Moves count outcome ∨ Undispatched trace ∧ excuse trace

section Moves

variable {engine : Engine} {Usual : Observed → Prop} {count : Nat}
  {service operation request : String} {buffer : OutBuf}

theorem Moves.cut : Moves count none := by
  intro reply after given
  cases given

variable {reply : Reply} {s : ExecSession} {record : EventRecord} {interval : Int} {trace : Trace}

theorem Moves.beyond {after : ExecSession} (moved : count < after.stepCount) :
    Moves count (some (reply, after)) := by
  intro reply' after' given _ _
  cases given
  exact moved

theorem Moves.suspended {after : ExecSession}
    (suspended : reply.suspends = true ∨ after.suspendErr ≠ none) :
    Moves count (some (reply, after)) := by
  intro reply' after' given resumes active
  cases given
  rcases suspended with suspends | parked
  · rw [resumes] at suspends
    cases suspends
  · exact absurd active parked

/-- Work that does not hand on a session does not matter. -/
theorem ensures_skip_moves {β : Type} {first : Work β} {next : β → Work Replied}
    (moves : ∀ value, (next value).Ensures Usual fun _ => Moves count) :
    (first >>= next).Ensures Usual fun _ => Moves count := by
  induction first with
  | done value => exact moves value
  | ask query more ih => exact ⟨.cut, fun answer _ => ih answer⟩

/-- A program that records an event and goes on from the next step. -/
theorem ensures_record_moves {next : EventPersistence × ExecSession → Work Replied}
    (moves : ∀ persistence after, after.stepCount = s.stepCount + 1 →
      (next (persistence, after)).Ensures Usual fun _ => Moves count) :
    (recordEvent engine s record >>= next).Ensures Usual fun _ => Moves count := by
  rw [ensures_bind]
  refine (recordEvent_appends engine s record).mono fun trace outcome appends => ?_
  cases outcome with
  | none => exact .cut
  | some recorded =>
    obtain ⟨persistence, after⟩ := recorded
    exact moves persistence after
      (congrArg stepCount (appends.2.2 persistence after rfl).2)

/-- A call that sends its request moves on, or suspends. -/
theorem dispatchCall_moves (placed : count = s.stepCount) :
    (dispatchCall engine s service operation request buffer).Ensures Usual fun _ => Moves count := by
  unfold dispatchCall
  repeat' first
    | dsimp only
    | split
    | exact .beyond (by omega)
    | exact Moves.suspended (.inr (by simp))
    | refine ensures_record_moves fun _ after moved => ?_
    | refine ensures_skip_moves fun _ => ?_

/-- A write-ahead call that could write its rows moves on. -/
theorem freshCallWithIntent_moves (placed : count = s.stepCount)
    (able : engine.intentStoreError = none) :
    (freshCallWithIntent engine s service operation request s.stepCount >>= fun result =>
      pure (intentReply buffer result.1, result.2)).Ensures Recordable fun _ => Moves count := by
  unfold freshCallWithIntent callService
  rw [able]
  refine ⟨.cut, fun written usual => ?_⟩
  cases written with
  | error reason => exact usual.elim
  | ok createdAt => ?_
  refine ⟨.cut, fun outcome _ => ⟨.cut, fun clockMs _ => ⟨.cut,
    fun completed usual => ?_⟩⟩⟩
  cases completed with
  | error reason => exact usual.elim
  | ok value => ?_
  unfold recordEventPersisted recordTime
  split
  · exact ⟨Moves.cut, fun _ _ => Moves.beyond (by simp [appendEvent, placed])⟩
  · exact Moves.beyond (by simp [appendEvent, placed])

/-- A call that is not in the history moves on, unless it is turned away. -/
theorem freshCall_moves (placed : count = s.stepCount) :
    (freshCall engine s service operation request buffer).Ensures Recordable
      (MovesUnless count (CallTurnedAway engine service operation)) := by
  unfold freshCall
  have polled : (pollCancelled engine).Ensures Recordable fun trace outcome => Undispatched trace ∧
      (outcome = some true → ∃ observed ∈ trace, isRefusal observed = true) := by
    unfold pollCancelled
    split
    · simp only [ask_eq, ask_bind, done_bind, ensures_ask]
      refine ⟨⟨undispatched_nil, by simp⟩, fun answer _ => ?_⟩
      cases answer with
      | error reason => simp
      | ok cancelled => simp [isRefusal]
    · simp
  rw [ensures_bind]
  refine polled.mono fun polls cancelled asks => ?_
  obtain ⟨unsent, refuses⟩ := asks
  rcases cancelled with _ | cancelled
  · exact .inl .cut
  cases cancelled with
  | true =>
    obtain ⟨observed, member, refusal⟩ := refuses rfl
    exact .inr ⟨by simpa using unsent, .inl ⟨observed, by simpa using member, refusal⟩⟩
  | false => ?_
  refine ⟨.inl .cut, fun admitted _ => ?_⟩
  have asked : Undispatched (polls ++ [⟨.canStartNewWork, admitted⟩]) := by
    simpa [or_imp, forall_and] using unsent
  cases admitted with
  | false =>
    refine .inr ⟨asked, .inl ⟨⟨.canStartNewWork, false⟩, ?_, rfl⟩⟩
    simp
  | true => ?_
  split
  · unfold continueAsNew
    rw [bind_assoc]
    refine mono (ensures_record_moves fun _ after _ => .suspended
      (.inr (by simp))) fun _ _ => .inl
  · have counted : count = { s with eventCount := s.eventCount + 1 }.stepCount := placed
    cases semantics : engine.callSemantics service operation with
    | atLeastOnce =>
      exact mono (dispatchCall_moves counted) fun _ _ moves => .inl moves
    | writeAheadIntent =>
      cases able : engine.intentStoreError with
      | none =>
        exact mono (freshCallWithIntent_moves counted able)
          fun _ _ moves => .inl moves
      | some reason =>
        simp only [freshCallWithIntent, able]
        refine .inr ⟨by simpa using asked, .inr ⟨semantics, by simp [able]⟩⟩

/-- The attempts of a policy move on from wherever they begin. -/
theorem retryAttempts_moves (policy : RetryPolicy) (codes : List String) (retryStep left : Nat) :
    ∀ (attempt : Int) (s : ExecSession), count ≤ s.stepCount →
      (retryAttempts engine policy codes service operation request retryStep buffer left attempt
        s).Ensures Usual fun _ => Moves count := by
  induction left with
  | zero => exact fun _ _ _ => ⟨.cut, fun never => never.elim⟩
  | succ left ih =>
    intro attempt s placed
    unfold retryAttempts finishRetry
    repeat' first
      | dsimp only
      | split
      | exact .beyond (by omega)
      | exact Moves.suspended (.inl (by simp))
      | exact ih _ _ (by omega)
      | refine ensures_record_moves fun _ after moved => ?_
      | refine ensures_skip_moves fun _ => ?_

/-- Heartbeats do not move a session back. -/
theorem beatHeart_rises (service operation : String) (ticks : Nat) :
    ∀ (cancelled : Bool) (s : ExecSession),
      (beatHeart engine service operation ticks cancelled s).Ensures Usual fun _ outcome =>
        ∀ cancelled after, outcome = some (cancelled, after) → s.stepCount ≤ after.stepCount := by
  induction ticks with
  | zero =>
    intro cancelled s cancelled' after given
    cases given
    exact Nat.le_refl _
  | succ ticks ih =>
    intro cancelled s
    unfold beatHeart
    rw [ensures_bind]
    refine (recordEvent_appends engine s _).mono fun trace outcome appends => ?_
    cases outcome with
    | none => simp
    | some recorded =>
      obtain ⟨persistence, session⟩ := recorded
      have moved : session.stepCount = s.stepCount + 1 :=
        congrArg stepCount (appends.2.2 persistence session rfl).2
      refine ensures_pollCancelled (by simp) fun polled polls _ => (ih _ session).mono ?_
      intro later outcome rises cancelled' after given
      have := rises cancelled' after given
      omega

/-- A call with heartbeats that is not in the history moves on. -/
theorem freshCallWithHeartbeat_moves (placed : count ≤ s.stepCount) :
    (freshCallWithHeartbeat engine s service operation request interval buffer).Ensures Usual
      fun _ => Moves count := by
  refine ensures_skip_moves fun outcome => ?_
  split
  · exact ⟨.cut, fun never => never.elim⟩
  · refine ensures_skip_moves fun ticks => ?_
    rw [ensures_bind]
    refine (beatHeart_rises service operation ticks false s).mono fun trace beaten rises => ?_
    cases beaten with
    | none => exact .cut
    | some beaten =>
      obtain ⟨cancelled, session⟩ := beaten
      have risen := rises cancelled session rfl
      refine ensures_record_moves fun _ after moved => ?_
      cases outcome <;> exact .beyond (show count < after.stepCount by omega)

/-- Replaying a pending call leaves the session behind the call's row. -/
theorem replayPendingIntent_moves (placed : count < s.stepCount) :
    (replayPendingIntent engine s record buffer).Ensures Usual fun _ => Moves count := by
  refine (replayPendingIntent_ends s buffer).mono fun trace outcome replayed => ?_
  cases replayed with
  | cut => exact .cut
  | resolved => exact .beyond placed
  | ambiguous =>
    refine .beyond ?_
    unfold recordAmbiguity
    split <;> exact placed

/-- A replayed call moves past its row, or is executed like one that has none. -/
theorem replayCall_moves (placed : count ≤ s.stepCount) :
    (replayCall engine s service operation request buffer).Ensures Recordable
      (MovesUnless count (CallTurnedAway engine service operation)) := by
  unfold replayCall
  split
  · refine mono (freshCall_moves rfl) fun trace outcome moves => moves.imp_left fun moves => ?_
    intro reply after given resumes active
    exact Nat.lt_of_le_of_lt placed (moves reply after given resumes active)
  · rename_i record _
    have advanced : count < (advanceReplayStep engine s record).stepCount := by
      simp only [advanceReplayStep]
      omega
    repeat' first
      | split
      | exact .inl (.beyond advanced)
      | exact (replayPendingIntent_moves advanced).mono fun _ _ moves => .inl moves

/-- Consuming recorded attempts moves the session on by their number, and a policy that is
to be resumed has some. -/
theorem replayRetryAttempts_moves (rows : History) (found : ReplayedAttempts)
    (placed : count + found.spent ≤ found.session.stepCount) :
    count + (replayRetryAttempts engine service operation rows found).spent ≤
        (replayRetryAttempts engine service operation rows found).session.stepCount ∧
      ((replayRetryAttempts engine service operation rows found).resume = true →
        0 < (replayRetryAttempts engine service operation rows found).spent) := by
  induction rows generalizing found with
  | nil => exact ⟨placed, by simp [replayRetryAttempts]⟩
  | cons row rows ih =>
    unfold replayRetryAttempts
    split
    · exact ⟨placed, by simp⟩
    · split
      · exact ⟨placed, by simp⟩
      · apply ih
        simp only [advanceReplayStep]
        omega

/-- Consuming heartbeats does not move a session back. -/
theorem replayHeartbeats_rises (rows : History) (s : ExecSession) :
    s.stepCount ≤ (replayHeartbeats engine rows s).stepCount := by
  induction rows generalizing s with
  | nil => exact Nat.le_refl _
  | cons row rows ih =>
    unfold replayHeartbeats
    split
    · exact Nat.le_trans (Nat.le_succ _) (ih (advanceReplayStep engine s row))
    · exact Nat.le_refl _

/-- A program that stops if it must not start work, and otherwise goes on. -/
theorem ensures_unlessStopped_moves {fresh : Work Replied} {excuse : Trace → Prop}
    (moves : fresh.Ensures Recordable (MovesUnless count excuse))
    (kept : ∀ earlier trace, excuse trace → excuse (earlier ++ trace)) :
    (stopBeforeNewWork engine s >>= fun stop =>
      if stop then pure (suspendReply, s) else fresh).Ensures Recordable
      (MovesUnless count excuse) := by
  refine ensures_stopBeforeNewWork (.inl .cut) fun stop asked asks => ?_
  cases stop with
  | true => exact .inl (Moves.suspended (.inl (by simp)))
  | false =>
    refine moves.mono fun trace outcome moves => moves.imp_right fun ⟨unsent, excused⟩ => ?_
    exact ⟨forall_mem_append.mpr ⟨asks.silent.undispatched, unsent⟩, kept asked trace excused⟩

theorem CallTurnedAway.after {earlier : Trace}
    (excused : CallTurnedAway engine service operation trace) :
    CallTurnedAway engine service operation (earlier ++ trace) := by
  rcases excused with ⟨observed, member, refusal⟩ | unable
  · exact .inl ⟨observed, mem_append_right _ member, refusal⟩
  · exact .inr unable

/-- A call with a policy moves past its attempts and its call. -/
theorem durableCallWithRetry_moves {policy : RetryPolicy} :
    (durableCallWithRetry engine s service operation request policy buffer).Ensures Recordable
      (MovesUnless s.stepCount fun trace => TurnedAway engine s trace
        (.durableCallWithRetry service operation request policy buffer)) := by
  unfold durableCallWithRetry
  split
  · have attempts := @replayRetryAttempts_moves engine s.stepCount service operation s.remaining
      ⟨s, 0, none, false⟩ (Nat.le_refl s.stepCount)
    generalize replayRetryAttempts engine service operation s.remaining
      ⟨s, 0, none, false⟩ = found at attempts ⊢
    obtain ⟨placed, begun⟩ := attempts
    dsimp only
    split
    · have behind : s.stepCount ≤ found.session.stepCount := by omega
      refine (replayCall_moves behind).mono fun trace outcome moves => ?_
      exact moves.imp_right fun ⟨unsent, excused⟩ => ⟨unsent, .inl excused⟩
    · rename_i resumes
      have behind : s.stepCount < (exitReplay found.session).stepCount := by
        have spent := begun (by simpa using resumes)
        simp only [exitReplay]
        omega
      refine ensures_stopBeforeNewWork (.inl .cut) fun stop asked _ => ?_
      cases stop with
      | true => exact .inl (Moves.suspended (.inl (by simp)))
      | false =>
        simp only [Bool.false_eq_true, if_false]
        unfold freshCallWithRetry
        split
        · exact .inl (.beyond behind)
        · refine (retryAttempts_moves policy _ _ _ _ _ (Nat.le_of_lt behind)).mono ?_
          exact fun _ _ moves => .inl moves
  · rename_i replaying
    have forward : s.isReplay = false := by simpa using replaying
    refine ensures_unlessStopped_moves ?_ fun earlier trace excused =>
      excused.imp_left CallTurnedAway.after
    split
    · rename_i long
      exact .inr ⟨undispatched_nil, .inr ⟨forward, .inl (by simpa using long)⟩⟩
    · unfold freshCallWithRetry
      split
      · rename_i undecodable
        exact .inr ⟨undispatched_nil, .inr ⟨forward, .inr undecodable⟩⟩
      · refine (retryAttempts_moves policy _ _ _ _ s (Nat.le_refl _)).mono ?_
        exact fun _ _ moves => .inl moves

/-- A replayed call with heartbeats moves past its row, or is executed. -/
theorem replayCallWithHeartbeat_moves :
    (replayCallWithHeartbeat engine s service operation request interval buffer).Ensures Usual
      fun _ => Moves s.stepCount := by
  have risen := @replayHeartbeats_rises engine s.remaining s
  unfold replayCallWithHeartbeat
  generalize replayHeartbeats engine s.remaining s = beaten at risen ⊢
  dsimp only
  split
  · exact freshCallWithHeartbeat_moves risen
  · rename_i record _
    have advanced : s.stepCount < (advanceReplayStep engine beaten record).stepCount := by
      simp only [advanceReplayStep]
      omega
    have ambiguous : s.stepCount <
        (recordAmbiguity (advanceReplayStep engine beaten record) record).stepCount := by
      unfold recordAmbiguity
      split <;> exact advanced
    repeat' first
      | split
      | exact .beyond advanced
      | exact .beyond ambiguous

/-- A service call that returned in an active session has moved past its first step, or it
has sent nothing and was turned away. -/
theorem execute_moves {call : HostCall} {outcome : Option Replied}
    (kind : call.kind ∈ serviceKinds) (recordable : ∀ observed ∈ trace, Recordable observed)
    (runs : (call.execute engine s).Runs trace outcome) :
    MovesUnless s.stepCount (TurnedAway engine s · call) trace outcome := by
  have ensures : (call.execute engine s).Ensures Recordable
      (MovesUnless s.stepCount (TurnedAway engine s · call)) := by
    cases call with
    | durableCall service operation request buffer =>
      unfold HostCall.execute Cleat.durableCall
      dsimp only
      split
      · exact replayCall_moves (Nat.le_refl _)
      · exact ensures_unlessStopped_moves (freshCall_moves rfl) fun _ _ => .after
    | durableCallWithRetry service operation request policy buffer =>
      exact durableCallWithRetry_moves
    | durableCallWithHeartbeat service operation request interval buffer =>
      unfold HostCall.execute Cleat.durableCallWithHeartbeat
      dsimp only
      split
      · exact replayCallWithHeartbeat_moves.mono fun _ _ moves => .inl moves
      · refine ensures_stopBeforeNewWork (.inl .cut) fun stop asked _ => ?_
        cases stop with
        | true => exact .inl (Moves.suspended (.inl (by simp)))
        | false =>
          exact (freshCallWithHeartbeat_moves (Nat.le_refl _)).mono fun _ _ moves => .inl moves
    | _ => simp [HostCall.kind, serviceKinds] at kind
  exact ensures.of_runs runs recordable

end Moves

/-- The keys of the requests that a call sends. -/
def requestKeys (trace : Trace) : List (Option String) :=
  trace.filterMap fun observed =>
    match observed.query with
    | .callService _ _ _ _ key => some key
    | _ => none

/-- The requests of a run: the position of the call and the key of the request. -/
def requests (run : List EngineSegment) : List (Nat × Option String) :=
  run.flatMap fun segment => segment.steps.zipIdx.flatMap fun placed =>
    (requestKeys placed.1.trace).map fun key => (placed.2, key)

/-- The requests of one call carry one key, and no key is carried by requests of two calls. -/
def KeysStable (run : List EngineSegment) : Prop :=
  ∀ one ∈ requests run, ∀ two ∈ requests run,
    (one.1 = two.1 → one.2 = two.2) ∧ (one.2 ≠ none → one.2 = two.2 → one.1 = two.1)

/-- A call that has been sent is not turned away when it is repeated. -/
def TakenAgain (engine : Engine) (step again : EngineStep) : Prop :=
  ¬ Undispatched step.trace → ¬ TurnedAway engine again.before again.trace again.call

instance (engine : Engine) (step again : EngineStep) : Decidable (TakenAgain engine step again) := by
  unfold TakenAgain Undispatched
  infer_instance

variable {key : Option String}

theorem exists_of_requestKeys {trace : Trace} (keyed : key ∈ requestKeys trace) :
    ∃ service operation request step answer,
      ⟨.callService service operation request step key, answer⟩ ∈ trace := by
  obtain ⟨⟨query, answer⟩, member, keyed⟩ := mem_filterMap.mp keyed
  cases query <;> cases keyed
  exact ⟨_, _, _, _, _, member⟩

theorem exists_of_requests {index : Nat} {run : List EngineSegment}
    (sent : (index, key) ∈ requests run) :
    ∃ (number : Nat) (segment : EngineSegment) (step : EngineStep), run[number]? = some segment ∧
      segment.steps[index]? = some step ∧ key ∈ requestKeys step.trace := by
  simp only [requests, mem_flatMap, mem_map, Prod.mk.injEq, Prod.exists,
    mem_zipIdx_iff_getElem?] at sent
  obtain ⟨segment, member, step, place, found, key, keyed, rfl, rfl⟩ := sent
  obtain ⟨number, here⟩ := mem_iff_getElem?.mp member
  exact ⟨number, segment, step, here, found, keyed⟩

/-- The texts of two numbers differ in their bytes. -/
theorem bytesOf_toString_injective : Function.Injective fun step : Nat => bytesOf (toString step) := by
  intro one two same
  have digits : Nat.toDigits 10 one = Nat.toDigits 10 two :=
    String.ofList_injective (bytesOf_injective same)
  rw [← Nat.ofDigitChars_toDigits (b := 10) (n := one) (by decide) (by decide), digits,
    Nat.ofDigitChars_toDigits (by decide) (by decide)]

/-- A key determines the step it was made for. -/
theorem callKey_injective {engine : Engine} (digest : Function.Injective engine.keyDigest)
    {one two : Nat} (keyed : engine.callKey one ≠ none)
    (same : engine.callKey one = engine.callKey two) : one = two := by
  unfold Engine.callKey at keyed same
  split at keyed
  · rename_i caller
    simp only [caller, if_true, Option.some.injEq, durableCallIdempotencyKey] at same
    exact bytesOf_toString_injective (append_cancel_left (digest same))
  · simp at keyed

section Requests

variable {engine : Engine} {guest : Guest HostCall Reply} {cuts : List Cut}

/-- A service call that is repeatable records what it does. -/
theorem HostCall.Repeatable.recordable {known : Option Reply} {call : HostCall} {s : ExecSession}
    {trace : Trace} (repeatable : call.Repeatable engine known s trace)
    (sends : call.kind ∈ serviceKinds) : ∀ observed ∈ trace, Recordable observed := by
  cases call with
  | durableCall service operation request buffer => exact CallAllowed.recordable repeatable
  | durableCallWithRetry service operation request policy buffer =>
    exact (RetryAllowed.call repeatable).recordable
  | durableCallWithHeartbeat service operation request interval buffer =>
    exact HeartbeatAllowed.recordable repeatable
  | _ => simp [HostCall.kind, serviceKinds] at sends

variable {number index : Nat} {segment : EngineSegment} {step : EngineStep} {key : Option String}
  (stored : engine.db = true) (admissible : Admissible engine (engineRun engine guest cuts))
  (found : (engineRun engine guest cuts)[number]? = some segment)
  (made : segment.steps[index]? = some step)

include admissible

include stored found made in
/-- What is known of a call that has sent a request: it was made in an active session, it
is a service call, and the request carries the key of the step at which it began. -/
theorem request_placed (keyed : key ∈ requestKeys step.trace) :
    (engineHost engine).parked step.before = false ∧ ¬ Undispatched step.trace ∧
      step.call.kind ∈ serviceKinds ∧ key = engine.callKey step.before.stepCount := by
  obtain ⟨service, operation, request, sentAt, answer, member⟩ := exists_of_requestKeys keyed
  have sent : ¬ Undispatched step.trace := fun unsent => by cases unsent _ member
  have runs := step_runs found made
  have active : (engineHost engine).parked step.before = false := by
    refine ((engineAccount stored guest).active_or_halts admissible found made).resolve_right ?_
    exact fun ⟨silent, _⟩ => sent (Silent.undispatched silent)
  refine ⟨active, sent, ?_, ?_⟩
  · by_contra other
    exact sent fun observed here =>
      (HostCall.execute_unsent engine step.call step.before other).of_runs runs observed here
  · have own : key = engine.callKey sentAt :=
      (HostCall.execute_keyed engine step.call step.before).of_runs runs _ member
    rcases (engineAccount stored guest).answered_or_made admissible found made
      active with ⟨view, answered⟩ | ⟨memo, began, executed⟩
    · exact absurd answered.undispatched sent
    · have started : sentAt = step.before.stepCount :=
        (executed.dispatched _ member sentAt rfl).trans (congrArg stepCount began).symm
      rw [own, started]

include found made in
/-- A service call that returned in an active session has moved beyond its step, unless it
sent nothing and was turned away. -/
theorem answered_moves {result : Replied} (sends : step.call.kind ∈ serviceKinds)
    (active : (engineHost engine).parked step.before = false)
    (answered : (engineHost engine).answered step.outcome = some result) :
    step.before.stepCount < result.2.stepCount ∨
      Undispatched step.trace ∧ TurnedAway engine step.before step.trace step.call := by
  have unsuspended : step.before.suspendErr = none := by simpa [engineHost] using active
  have allowed := admissible segment (mem_of_getElem? found) index step made
  have recordable := (allowed.repeatable unsuspended).recordable sends
  obtain ⟨returned, parked⟩ := Account.answered_eq_some answered
  obtain ⟨given, resumes⟩ := Account.returned_eq_some returned
  refine (execute_moves sends recordable (step_runs found made)).imp_left fun moves => ?_
  exact moves result.1 result.2 given resumes (by simpa [engineHost] using parked)

include stored

/-- A call that sends a request behind another one that has sent one does so at a later
step, whichever segments the two requests are sent in.

Proof: by comparing the segments. In the segment of the later request the earlier call has
returned. It has moved beyond its step there, for it is not turned away if it has been sent
before, and it would not be sent again if it had already returned. -/
theorem request_step_lt
    (taken : Recurs (TakenAgain engine) (engineRun engine guest cuts)) {one two lower upper : Nat}
    {first second : EngineSegment} {next : EngineStep} {other : Option String}
    (found : (engineRun engine guest cuts)[one]? = some first)
    (later : (engineRun engine guest cuts)[two]? = some second)
    (made : first.steps[lower]? = some step) (follows : second.steps[upper]? = some next)
    (keyed : key ∈ requestKeys step.trace) (keyedNext : other ∈ requestKeys next.trace)
    (below : lower < upper) : step.before.stepCount < next.before.stepCount := by
  obtain ⟨active, sent, sends, _⟩ := request_placed stored admissible found made keyed
  obtain ⟨activeNext, _⟩ := request_placed stored admissible later follows keyedNext
  obtain ⟨again, result, repeated, answered, activeAgain⟩ :=
    earlier_answered stored admissible later follows activeNext below
  obtain ⟨same, stands⟩ := (engineAccount stored guest).same_place admissible
    found later made repeated active activeAgain
  have starts : again.before.stepCount = step.before.stepCount :=
    congrArg stepCount stands
  have rises : result.2.stepCount ≤ next.before.stepCount :=
    (engineAccount stored guest).rank_le admissible later later below repeated
      follows answered activeNext
  have moves := answered_moves admissible later repeated (by rw [same]; exact sends) activeAgain
    answered
  rcases Nat.lt_trichotomy one two with before | rfl | before
  · have unrefused := recurs_iff.mp taken one two lower first second step again before found later
      made repeated sent
    have moved := moves.resolve_right fun away => unrefused away.2
    omega
  · cases found.symm.trans later
    cases made.symm.trans repeated
    have moved := moves.resolve_right fun away => sent away.1
    omega
  · obtain ⟨_, replayed, _⟩ := (engineAccount stored guest).repeats admissible
      later found repeated made before answered
    exact absurd replayed.undispatched sent

/-- Every call has one key of its own in every admissible run in which no call that has been
sent is turned away when it is repeated. -/
theorem keys_stable (taken : Recurs (TakenAgain engine) (engineRun engine guest cuts))
    (digest : Function.Injective engine.keyDigest) : KeysStable (engineRun engine guest cuts) := by
  rintro ⟨lower, key⟩ sent ⟨upper, other⟩ sentOther
  obtain ⟨one, first, step, found, made, keyed⟩ := exists_of_requests sent
  obtain ⟨two, second, again, foundOther, repeated, keyedOther⟩ := exists_of_requests sentOther
  obtain ⟨active, _, _, own⟩ := request_placed stored admissible found made keyed
  obtain ⟨activeOther, _, _, ownOther⟩ :=
    request_placed stored admissible foundOther repeated keyedOther
  constructor
  · rintro rfl
    obtain ⟨_, stands⟩ := (engineAccount stored guest).same_place admissible
      found foundOther made repeated active activeOther
    have starts : again.before.stepCount = step.before.stepCount :=
      congrArg stepCount stands
    rw [own, ownOther, starts]
  · intro some_ same
    rw [own] at some_
    rw [own, ownOther] at same
    have steps := callKey_injective digest some_ same
    rcases Nat.lt_trichotomy lower upper with below | equal | above
    · have := request_step_lt stored admissible taken found foundOther made repeated keyed
        keyedOther below
      omega
    · exact equal
    · have := request_step_lt stored admissible taken foundOther found repeated made keyedOther
        keyed above
      omega

end Requests

/-- A digest that spells out its bytes. -/
def spelledOut (bytes : List UInt8) : String :=
  String.ofList (bytes.map fun byte => Char.ofNat byte.toNat)

theorem spelledOut_injective : Function.Injective spelledOut := by
  have spelled : ∀ byte : UInt8, (Char.ofNat byte.toNat).toNat = byte.toNat := by
    intro byte
    have small := byte.toNat_lt
    have valid : byte.toNat.isValidChar := .inl (by omega)
    rw [Char.ofNat, dif_pos valid]
    rfl
  have chars : Function.Injective fun byte : UInt8 => Char.ofNat byte.toNat := by
    intro one two same
    have numbers := congrArg Char.toNat same
    simp only [spelled] at numbers
    exact UInt8.toNat_inj.mp numbers
  intro one two same
  exact map_injective_iff.mpr chars (String.ofList_injective same)

/-- An engine that sends keys from which the step can be read. -/
def keyedEngine : Engine where
  idempotentCaller := true
  keyDigest := spelledOut

/-- A guest that makes one call with heartbeats. -/
def heartbeatGuest : Guest HostCall Reply :=
  straight [.durableCallWithHeartbeat "svc" "op" "request" 5 roomy]

/-- The first segment records a heartbeat and ends before the call's event. -/
def heartbeatCuts : List Cut := [{ ticks := 1 : Surroundings }.cut [6], ({} : Surroundings).cut [9]]

/-- A call whose heartbeat has been recorded is sent again under the key of the step behind
the heartbeat. -/
theorem heartbeat_changes_key : ¬ ∀ (engine : Engine) (guest : Guest HostCall Reply)
    (cuts : List Cut), engine.db = true → Function.Injective engine.keyDigest →
    MadeOf serviceKinds guest → Persists (engineRun engine guest cuts) →
    KeysStable (engineRun engine guest cuts) := by
  intro claimed
  have stable := claimed keyedEngine heartbeatGuest heartbeatCuts rfl spelledOut_injective
    (straight_madeOf (by decide)) (by decide +kernel)
  have sent : requests (engineRun keyedEngine heartbeatGuest heartbeatCuts) =
      [(0, keyedEngine.callKey 0), (0, keyedEngine.callKey 1)] := rfl
  have same := (stable (0, keyedEngine.callKey 0) (by rw [sent]; simp) (0, keyedEngine.callKey 1)
    (by rw [sent]; simp)).1 rfl
  have keyed : keyedEngine.callKey 0 ≠ none := by simp [Engine.callKey, keyedEngine]
  cases callKey_injective spelledOut_injective keyed same

/-- A call that is cut before its event and sent again in front of another one. -/
theorem keys_stable_resent :
    KeysStable (engineRun keyedEngine (straight [.durableCall "svc" "op" "request" roomy,
        .durableCallWithHeartbeat "svc" "op" "request" 5 roomy])
      [({} : Surroundings).cut [4], ({} : Surroundings).cut [9, 9],
        ({} : Surroundings).cut [9, 9]]) :=
  keys_stable rfl (by decide +kernel) (by decide +kernel) spelledOut_injective

end Cleat
