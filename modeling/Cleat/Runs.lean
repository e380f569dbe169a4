import Cleat.HostCalls

/-!
# Runs of the engine

A run is a guest executed from an empty store through any number of segments, each cut
wherever its scripts end. This module states what a guest may rely on when a segment
repeats its earlier calls, and derives it from the engine's ledger for every run whose
calls are made in circumstances in which they can be repeated.

The conditions are on what a call finds and is answered, never on what it returns, except
that a reply which an earlier segment returned is part of what a call finds. Runs that
violate them break these promises; one such run stands beside each of the results.
-/
namespace Cleat

open Durable Durable.Program List Standing Host

abbrev EngineStep := Step Query Answer HostCall Reply ExecSession

abbrev EngineSegment := Segment Query Answer HostCall Reply EventRecord ExecSession

/-- What one segment is given: what its session is opened with, and the answers to the
queries of each of its calls. -/
abbrev Cut := Opening × List (Script Query Answer)

/-- The segments of a guest, from an empty store. -/
def engineRun (engine : Engine) (guest : Guest HostCall Reply) (cuts : List Cut) :
    List EngineSegment :=
  (engineHost engine).run guest [] [] cuts

/-- Every call is made in circumstances in which it returns what it has returned before. -/
def Admissible (engine : Engine) (run : List EngineSegment) : Prop :=
  ∀ segment ∈ run, segment.Meets (HostCall.Allowed engine)

instance (engine : Engine) (run : List EngineSegment) : Decidable (Admissible engine run) :=
  inferInstanceAs (Decidable (∀ segment ∈ run, _))

/-- The guest makes only calls of these kinds. -/
def MadeOf (kinds : List CallKind) (guest : Guest HostCall Reply) : Prop :=
  ∀ replies call, guest replies = some call → call.kind ∈ kinds

/-- A guest that makes one call after the other, whatever they return. -/
def straight (calls : List HostCall) : Guest HostCall Reply := fun replies => calls[replies.length]?

theorem straight_madeOf {kinds : List CallKind} {calls : List HostCall}
    (listed : ∀ call ∈ calls, call.kind ∈ kinds) : MadeOf kinds (straight calls) :=
  fun _ call made => listed call (mem_of_getElem? made)

/-- All that a run observed, in order. -/
def observations (run : List EngineSegment) : Trace :=
  run.flatMap fun segment => segment.steps.flatMap Step.trace

/-- Every event that is recorded is persisted. -/
def Persists (run : List EngineSegment) : Prop :=
  ∀ observed ∈ observations run, Durably observed

instance (run : List EngineSegment) : Decidable (Persists run) :=
  inferInstanceAs (Decidable (∀ observed ∈ observations run, _))

/-- Surroundings that give the same answer to a question every time. They stand in for the
environment of one segment where a concrete run is wanted. -/
structure Surroundings where
  clockMs : Int := 1000
  shutdown : Bool := false
  cancelled : Bool := false
  admitted : Bool := true
  service : ServiceAnswer := .ok "done"
  completed : Except String Unit := .ok ()
  promise : String → PromiseState := fun _ => .pending
  signal : Option SignalDelivery := none
  acquired : Except String Bool := .ok true
  ticks : Nat := 0
  plugin : String × Option String := ("done", none)
  chunks : Nat := 0
  chunk : StreamEvent := ⟨0, "", false⟩
  child : Option ChildRow := none
  childCompletedAtMs : Option Int := none
  cancellationReason : String := ""
  updates : List UpdateRequestInfo := []

/-- What the surroundings answer. They never answer a panic. -/
def Surroundings.answer (around : Surroundings) : (query : Query) → Option (Answer query)
  | .now => some around.clockMs
  | .shutdownObserved => some around.shutdown
  | .hardStopObserved => some around.shutdown
  | .canStartNewWork => some around.admitted
  | .flushEvent _ _ => some .persisted
  | .pollCancellation => some (.ok around.cancelled)
  | .callService _ _ _ _ _ => some around.service
  | .writeCallIntent _ => some (.ok around.clockMs)
  | .completeCallIntent _ _ => some around.completed
  | .resolveCallIntent _ => some (.ok ())
  | .serverNow => some (.ok around.clockMs)
  | .replayUnderOriginalKey _ _ _ _ => some (.ok ("", .cannotSay))
  | .resolveCall _ _ _ => some (.ok ("", .cannotSay))
  | .replayBackoff => some true
  | .newUUID => some (.ok "id")
  | .createPromise _ _ => some (.ok ())
  | .getPromise promiseID => some (.ok (around.promise promiseID))
  | .pollSignal _ => some (.ok around.signal)
  | .consumeSignal _ => some (.ok ())
  | .signalAuthCheck _ => some (.ok ())
  | .deliverSignal _ _ _ => some (.ok ())
  | .acquireConcurrencyKey _ => some around.acquired
  | .releaseConcurrencyKey _ => some (.ok true)
  | .backoff _ => some .elapsed
  | .heartbeatTicks => some around.ticks
  | .hostPanic => none
  | .checkPluginCall _ _ => some (.ok ())
  | .callPlugin _ _ _ _ => some around.plugin
  | .openStream _ _ _ _ => some (.ok around.chunks)
  | .nextChunk => some around.chunk
  | .getConcurrencyKeyCount => some (.ok 0)
  | .acquireLockKey _ _ => some around.acquired
  | .listSchedules => some (.ok [])
  | .createSchedule _ _ _ _ _ => some (.ok ())
  | .deleteSchedule _ => some (.ok true)
  | .fetch _ _ _ _ => some around.plugin
  | .startChildWorkflow _ _ _ _ => some (.ok "child")
  | .resolveVersionByTag _ _ => some (.ok 1)
  | .getChildCount => some (.ok 0)
  | .startChildWorkflowAtomic _ _ _ _ _ _ _ => some (.ok "child")
  | .getChildResult _ => some (.ok around.child)
  | .getChildCompletedAtMs _ => some (.ok around.childCompletedAtMs)
  | .pollCancellationReason => some (.ok (around.cancelled, around.cancellationReason))
  | .getPendingUpdateRequests => some (.ok around.updates)
  | .completeUpdateRequest _ _ _ => some (.ok ())
  | .resolvePromise _ _ => some (.ok ())
  | .rejectPromise _ _ => some (.ok ())

/-- A segment in which the surroundings answer up to so many queries of each call. -/
def Surroundings.cut (around : Surroundings) (queries : List Nat) : Cut :=
  ({}, queries.map fun count => List.replicate count around.answer)

/-- A buffer with room for every text of the concrete runs. -/
def roomy : OutBuf := ⟨64, 64⟩

/-- A call of this kind that had its final reply has the same again. -/
def AnsweredAgain (engine : Engine) (kind : CallKind) (step again : EngineStep) : Prop :=
  step.call.kind = kind → ∀ result ∈ (engineHost engine).answered step.outcome,
    again.call = step.call ∧ ∀ repeated ∈ again.outcome, repeated.1 = result.1

instance (engine : Engine) (kind : CallKind) (step again : EngineStep) :
    Decidable (AnsweredAgain engine kind step again) :=
  inferInstanceAs (Decidable (_ → _))

/-- A service call whose event was made durable is not sent again. -/
def RecordedCallKept (step again : EngineStep) : Prop :=
  step.call.kind = .durableCall → WritesCallEvent step.trace → Undispatched again.trace

instance (step again : EngineStep) : Decidable (RecordedCallKept step again) := by
  unfold RecordedCallKept WritesCallEvent Undispatched
  infer_instance

/-- Whatever is recorded is recorded at this step, and the session moves on when it has
been. -/
def Numbers (count : Nat) (trace : Trace) (outcome : Option Replied) : Prop :=
  ∀ record ∈ trace.filterMap persistedEvent, record.step = count ∧
    ∀ reply after, outcome = some (reply, after) → after.stepCount = count + 1

variable {trace : Trace} {count : Nat} {outcome : Option Replied}

/-- Nothing is recorded in a trace that writes nothing. -/
theorem Silent.persistedEvent_eq_nil (silent : Silent trace) :
    trace.filterMap persistedEvent = [] := by
  rw [filterMap_eq_nil_iff]
  intro observed member
  have reads := silent.reads observed member
  obtain ⟨query, answer⟩ := observed
  cases query <;> first | rfl | cases reads

theorem Numbers.silent (silent : Silent trace) :
    Numbers count trace outcome := by
  intro record written
  rw [silent.persistedEvent_eq_nil] at written
  cases written

theorem Numbers.after {earlier : Trace} (silent : Silent earlier)
    (numbers : Numbers count trace outcome) : Numbers count (earlier ++ trace) outcome := by
  intro record written
  rw [filterMap_append, silent.persistedEvent_eq_nil, nil_append] at written
  exact numbers record written

theorem freshSignalWorkflow_numbers {Usual : Observed → Prop} (engine : Engine) (s : ExecSession)
    (targetRunID signalName payload : String) :
    (freshSignalWorkflow engine s targetRunID signalName payload).Ensures Usual
      (Numbers s.stepCount) := by
  unfold freshSignalWorkflow
  rw [ensures_bind]
  refine (recordEvent_appends engine s _).mono fun trace outcome appends => ?_
  obtain ⟨_, own, moves⟩ := appends
  cases outcome with
  | none => exact fun record written => ⟨own record written, by simp⟩
  | some recorded =>
    obtain ⟨persistence, after⟩ := recorded
    have moved : after.stepCount = s.stepCount + 1 :=
      congrArg stepCount (moves persistence after rfl).2
    have done : Numbers s.stepCount trace (some (⟨0, []⟩, after)) := by
      intro record written
      refine ⟨own record written, fun reply session given => ?_⟩
      cases given
      exact moved
    dsimp only
    split
    · refine ⟨fun record written => ⟨own record (by simpa using written), by simp⟩,
        fun answer _ record written => done record ?_⟩
      simpa [persistedEvent] using written
    · simpa using done

/-- A signal's call records at most one event, at the step it begins at, and moves on when
it has. -/
theorem signalWorkflow_records {engine : Engine} {call : HostCall} {s : ExecSession}
    (runs : (call.execute engine s).Runs trace outcome) (signal : call.kind = .signalWorkflow) :
    Numbers s.stepCount trace outcome := by
  cases call with
  | signalWorkflow targetRunID signalName payload =>
    have fresh : ∀ session : ExecSession, session.stepCount = s.stepCount →
        (beginSignalWorkflow engine session targetRunID signalName payload).Always (Numbers s.stepCount) := by
      intro session placed
      refine ensures_stopBeforeNewWork (Numbers.silent silent_nil) fun stop asked asks => ?_
      cases stop with
      | true => exact Numbers.silent (by simpa using asks.silent)
      | false => ?_
      simp only [Bool.false_eq_true, if_false]
      have authorized : (signalAuthorized engine targetRunID).Always
          fun trace _ => Silent trace := by
        unfold signalAuthorized
        split
        · simp only [ask_eq, ask_bind, done_bind, ensures_ask]
          refine ⟨silent_nil, fun answer _ => ?_⟩
          cases answer <;> simp
        · simp
      rw [ensures_bind]
      refine authorized.mono fun checked outcome silent => ?_
      have before : Silent (asked ++ checked) :=
        (silent_append asked checked).mpr ⟨asks.silent, silent⟩
      cases outcome with
      | none => exact Numbers.silent before
      | some allowed =>
        cases allowed with
        | false => exact Numbers.silent (by simpa using before)
        | true =>
          rw [← placed]
          refine (freshSignalWorkflow_numbers engine session _ _ _).mono ?_
          intro trace outcome numbers
          rw [← append_assoc]
          exact numbers.after before
    have numbers : ((HostCall.signalWorkflow targetRunID signalName payload).execute engine
        s).Always (Numbers s.stepCount) := by
      simp only [HostCall.execute, Cleat.signalWorkflow]
      split
      · split
        · split
          · exact Numbers.silent silent_nil
          · exact fresh _ rfl
        · exact fresh _ rfl
      · exact fresh _ rfl
    exact numbers.of_runs runs fun _ _ => trivial
  | _ => cases signal

section Runs

variable {engine : Engine} {guest : Guest HostCall Reply} {cuts : List Cut}
  (stored : engine.db = true) (admissible : Admissible engine (engineRun engine guest cuts))

include stored admissible

/-- A call that had its final reply is made again in every later segment that gets as far,
with the same reply and from the same standing to the same standing. -/
theorem answers_recur :
    Recurs (fun step again => ∀ result ∈ (engineHost engine).answered step.outcome,
      again.call = step.call ∧ ∀ repeated ∈ again.outcome,
        repeated.1 = result.1 ∧ repeated.2.standing = result.2.standing)
      (engineRun engine guest cuts) := by
  rw [recurs_iff]
  intro early late index first second step again before one two made repeated result answered
  obtain ⟨same, _, answers⟩ := (engineAccount stored guest).repeats admissible
    one two made repeated before answered
  exact ⟨same, fun result' given => answers result'.1 result'.2 given⟩

omit stored admissible in
theorem parked_eq_false {s : ExecSession} (unsuspended : s.suspendErr = none) :
    (engineHost engine).parked s = false := by
  simp [engineHost, unsuspended]

/-- Calls at the same position begin at the same standing, unless one of them is made in a
session that has been suspended. -/
theorem standings_recur :
    Recurs (fun step again => step.before.suspendErr = none → again.before.suspendErr = none →
      again.before.standing = step.before.standing) (engineRun engine guest cuts) := by
  rw [recurs_iff]
  intro early late index first second step again _ one two made repeated active activeAgain
  exact ((engineAccount stored guest).same_place admissible one two made
    repeated (parked_eq_false active) (parked_eq_false activeAgain)).2

variable {index number : Nat} {first second segment : EngineSegment} {step : EngineStep}
  {result : Replied}

omit stored admissible in
/-- The rows written up to and including a call are found by the call at its position in
every later segment. -/
theorem rows_found {early late : Nat} (before : early < late)
    (one : (engineRun engine guest cuts)[early]? = some first)
    (two : (engineRun engine guest cuts)[late]? = some second)
    (made : first.steps[index]? = some step) (later : Nat) :
    (writes ((engineHost engine).rowsAt first index) step.trace).length ≤
      ((engineHost engine).rowsAt second later).length := by
  have grows : ∀ rows observed,
      length rows ≤ ((engineHost engine).write rows observed).length := length_applyObserved
  have reached : (engineHost engine).rowsAt first (index + 1) =
      writes ((engineHost engine).rowsAt first index) step.trace := by
    simp only [rowsAt, rowsAfter, take_add_one, made, Option.toList_some,
      foldl_append, foldl_cons, foldl_nil]
    rfl
  rw [← reached]
  exact Nat.le_trans (measure_le_loaded grows cuts [] [] early late first second before one
    two (index + 1)) (measure_le_rowsAfter grows _ _)

/-- No service call whose event is durable is sent again.

Proof: the later call is answered from its rows, or both calls were executed from the same
standing. In the latter case the event of the first reaches beyond that standing, so the
second finds a row. -/
theorem recordedCalls_kept :
    Recurs RecordedCallKept (engineRun engine guest cuts) := by
  rw [recurs_iff]
  intro early late index first second step again before one two made repeated ordinary called
  rcases (engineAccount stored guest).active_or_halts admissible one made with
    active | ⟨silent, _⟩
  swap
  · exact absurd called (not_writesCallEvent (Silent.reads silent))
  rcases (engineAccount stored guest).active_or_halts admissible two repeated with
    activeAgain | ⟨silent, _⟩
  swap
  · exact Silent.undispatched silent
  rcases (engineAccount stored guest).quiet_or_fresh admissible one two
    made repeated before active activeAgain with ⟨_, answered, _⟩ | ⟨memo, _, executed, executedAgain⟩
  · exact answered.undispatched
  · apply executedAgain.unwritten ordinary
    exact Nat.lt_of_lt_of_le (executed.written called) (rows_found before one two made index)

/-- What a guest that awaits promises may rely on: an await that has returned returns the
same again, and a recorded service call is not sent again. -/
@[mk_iff] structure PromisesReplay (engine : Engine) (run : List EngineSegment) : Prop where
  awaits : Recurs (AnsweredAgain engine .awaitPromise) run
  calls : Recurs RecordedCallKept run

instance (engine : Engine) (run : List EngineSegment) : Decidable (PromisesReplay engine run) :=
  decidable_of_iff' _ (promisesReplay_iff ..)

theorem answeredAgain_recurs (kind : CallKind) :
    Recurs (AnsweredAgain engine kind) (engineRun engine guest cuts) := by
  refine List.Pairwise.imp ?_ (answers_recur stored admissible)
  intro first second recur both member _ result answered
  obtain ⟨same, answers⟩ := recur both member result answered
  exact ⟨same, fun repeated given => (answers repeated given).1⟩

/-- Awaits on promises are replayed faithfully in every admissible run. -/
theorem promises_replay :
    PromisesReplay engine (engineRun engine guest cuts) :=
  ⟨answeredAgain_recurs stored admissible .awaitPromise, recordedCalls_kept stored admissible⟩

/-- A promise that has been settled does not change between two answers of its store. -/
def StaysSettled : Observed → Observed → Prop
  | ⟨.getPromise promiseID, .ok state⟩, ⟨.getPromise other, .ok later⟩ =>
    promiseID = other → state ≠ .pending → later = state
  | _, _ => True

instance (earlier later : Observed) : Decidable (StaysSettled earlier later) := by
  unfold StaysSettled
  split <;> infer_instance

/-- A guest that awaits a promise, calls a service and awaits another promise. -/
def promiseGuest : Guest HostCall Reply :=
  straight [.awaitPromise "p" 0 roomy, .durableCall "svc" "op" "request" roomy,
    .awaitPromise "q" 0 roomy]

/-- The first promise has been resolved. -/
def firstResolved : Surroundings where
  promise promiseID := if promiseID = "p" then .resolved "value" else .pending

omit stored admissible

/-- Replaying the record of a resumed await leaves the replay, so the recorded service call
behind it is sent again. -/
theorem resumed_await_resends : ¬ ∀ (engine : Engine) (guest : Guest HostCall Reply)
    (cuts : List Cut), engine.db = true → engine.promiseStore = true →
    MadeOf [.createPromise, .awaitPromise, .durableCall, .sideEffect] guest →
    Persists (engineRun engine guest cuts) →
    (observations (engineRun engine guest cuts)).Pairwise StaysSettled →
    PromisesReplay engine (engineRun engine guest cuts) := by
  intro claimed
  have replays := claimed {} promiseGuest
    [({} : Surroundings).cut [9], firstResolved.cut [9, 9, 9], firstResolved.cut [9, 9]] rfl rfl
    (straight_madeOf (by decide)) (by decide +kernel) (by decide +kernel)
  exact absurd replays (by decide +kernel)

/-- An await that is resumed, answered and, in a third segment, answered again. -/
theorem promises_replay_resumed :
    PromisesReplay {} (engineRun {} promiseGuest
      [({} : Surroundings).cut [9], firstResolved.cut [9], firstResolved.cut [9, 9]]) :=
  promises_replay rfl (by decide +kernel)

include stored admissible

/-- The calls in front of one that is made in an active session have their final replies. -/
theorem earlier_answered {lower upper : Nat}
    {next : EngineStep} (found : (engineRun engine guest cuts)[number]? = some segment)
    (later : segment.steps[upper]? = some next)
    (active : (engineHost engine).parked next.before = false) (below : lower < upper) :
    ∃ step result, segment.steps[lower]? = some step ∧
      (engineHost engine).answered step.outcome = some result ∧
      (engineHost engine).parked step.before = false := by
  obtain ⟨seed, scripts, steps⟩ := run_segment cuts found
  induction upper generalizing next with
  | zero => omega
  | succ upper ih =>
    rw [steps] at later
    obtain ⟨step, reply, made, returned⟩ := segment_next scripts later
    rw [← steps] at made
    have unparked : (engineHost engine).parked step.before = false := by
      refine ((engineAccount stored guest).active_or_halts admissible found made).resolve_right ?_
      rintro ⟨_, halts⟩
      rw [halts.stops] at returned
      cases returned
    rcases Nat.lt_or_ge lower upper with inside | outside
    · exact ih made unparked inside
    · obtain rfl : lower = upper := by omega
      refine ⟨step, (reply, next.before), made, ?_, unparked⟩
      simp [answered, returned, active]

/-- A call with a final reply is made in an active session. -/
theorem active_of_answered (found : (engineRun engine guest cuts)[number]? = some segment)
    (made : segment.steps[index]? = some step)
    (answered : (engineHost engine).answered step.outcome = some result) :
    (engineHost engine).parked step.before = false := by
  refine ((engineAccount stored guest).active_or_halts admissible found made).resolve_right ?_
  rintro ⟨_, halts⟩
  simp [Host.answered, halts.stops] at answered

omit stored admissible in
/-- A step of a run is an execution of its call. -/
theorem step_runs (found : (engineRun engine guest cuts)[number]? = some segment)
    (made : segment.steps[index]? = some step) :
    (step.call.execute engine step.before).Runs step.trace step.outcome := by
  obtain ⟨seed, scripts, steps⟩ := run_segment cuts found
  rw [steps] at made
  exact segment_runs scripts made

/-- A signal that one segment recorded is passed by every segment that gets beyond it.

Proof: by comparing the two segments. A later one finds the record. The segment itself
moved on when it wrote it. An earlier one that had returned made the later one replay. -/
theorem signal_passed {one two : Nat} {sender again : EngineStep} {record : EventRecord}
    (found : (engineRun engine guest cuts)[one]? = some first)
    (other : (engineRun engine guest cuts)[two]? = some second)
    (made : first.steps[index]? = some sender) (repeated : second.steps[index]? = some again)
    (signal : sender.call.kind = .signalWorkflow)
    (written : record ∈ sender.trace.filterMap persistedEvent)
    (active : (engineHost engine).parked sender.before = false)
    (answered : (engineHost engine).answered again.outcome = some result) :
    record.step < result.2.stepCount := by
  have activeAgain := active_of_answered stored admissible other repeated answered
  have records := signalWorkflow_records (step_runs found made) signal
  obtain ⟨placed, moves⟩ := records record written
  obtain ⟨same, stands⟩ := (engineAccount stored guest).same_place admissible
    found other made repeated active activeAgain
  have starts : again.before.stepCount = record.step :=
    (congrArg stepCount stands).trans placed.symm
  obtain ⟨returned, _⟩ := Account.answered_eq_some answered
  obtain ⟨given, _⟩ := Account.returned_eq_some returned
  rcases Nat.lt_trichotomy one two with before | rfl | before
  · rcases (engineAccount stored guest).quiet_or_fresh admissible found
      other made repeated before active activeAgain with
      ⟨view, replayed, viewed⟩ | ⟨memo, began, executed, executedAgain⟩
    · have advanced : again.before.stepCount < view.stepCount :=
        replayed.advanced (by rw [same]; exact signal)
      rw [← viewed result.1 result.2 given] at advanced
      exact starts ▸ advanced
    · have present : record.step ∈
          (writes ((engineHost engine).rowsAt first index) sender.trace).map EventRecord.step :=
        mem_steps_of_persistedEvent written
      obtain ⟨row, member, numbered⟩ := mem_map.mp present
      have inside := executed.dense.below row member
      have reached := rows_found before found other made index
      have ends : ((engineHost engine).rowsAt second index).length ≤ again.before.stepCount := by
        refine Nat.le_trans (executedAgain.unsent signal) (Nat.le_of_eq ?_)
        exact congrArg stepCount began.symm
      omega
  · cases found.symm.trans other
    cases made.symm.trans repeated
    rw [moves result.1 result.2 given, placed]
    omega
  · obtain ⟨_, replayed, _⟩ := (engineAccount stored guest).repeats admissible
      other found repeated made before answered
    have advanced : sender.before.stepCount < result.2.stepCount := replayed.advanced signal
    rw [placed]
    exact advanced

/-- An await does not pass over a step at which an outgoing signal has been recorded. -/
def KeepsOutgoing (engine : Engine) (sender await : EngineStep) : Prop :=
  sender.call.kind = .signalWorkflow → await.call.kind = .durableAwaitSignals →
    ∀ record ∈ sender.trace.filterMap persistedEvent,
    ∀ result ∈ (engineHost engine).answered await.outcome,
      ¬ (await.before.stepCount ≤ record.step ∧ record.step < result.2.stepCount)

instance (engine : Engine) (sender await : EngineStep) :
    Decidable (KeepsOutgoing engine sender await) :=
  inferInstanceAs (Decidable (_ → _ → ∀ record ∈ sender.trace.filterMap persistedEvent, _))

/-- No await of a run passes over an outgoing signal of the run, whichever segments the two
were made in. -/
def OutgoingKept (engine : Engine) (run : List EngineSegment) : Prop :=
  ∀ first ∈ run, ∀ sender ∈ first.steps, ∀ second ∈ run, ∀ await ∈ second.steps,
    KeepsOutgoing engine sender await

instance (engine : Engine) (run : List EngineSegment) : Decidable (OutgoingKept engine run) :=
  inferInstanceAs (Decidable (∀ first ∈ run, _))

/-- Outgoing signals are kept apart from awaits in every admissible run.

Proof: by comparing the positions of the two calls. An earlier signal has been passed when
the await begins, and a later one begins where the await has ended. -/
theorem outgoing_kept :
    OutgoingKept engine (engineRun engine guest cuts) := by
  intro first one sender made second two await awaited signal awaits record written result answered
  obtain ⟨one, found⟩ := mem_iff_getElem?.mp one
  obtain ⟨two, other⟩ := mem_iff_getElem?.mp two
  obtain ⟨lower, made⟩ := mem_iff_getElem?.mp made
  obtain ⟨upper, awaited⟩ := mem_iff_getElem?.mp awaited
  have awake := active_of_answered stored admissible other awaited answered
  have active : (engineHost engine).parked sender.before = false := by
    refine ((engineAccount stored guest).active_or_halts admissible found made).resolve_right ?_
    rintro ⟨silent, _⟩
    rw [Silent.persistedEvent_eq_nil silent] at written
    cases written
  have placed := (signalWorkflow_records (step_runs found made) signal record written).1
  rintro ⟨begins, passes⟩
  rcases Nat.lt_trichotomy lower upper with below | rfl | above
  · obtain ⟨again, given, repeated, returned, _⟩ :=
      earlier_answered stored admissible other awaited awake below
    have passed := signal_passed stored admissible found other made repeated signal written active
      returned
    have rises : given.2.stepCount ≤ await.before.stepCount :=
      (engineAccount stored guest).rank_le admissible other other below repeated
        awaited returned awake
    omega
  · obtain ⟨same, _⟩ := (engineAccount stored guest).same_place admissible found
      other made awaited active awake
    rw [same, signal] at awaits
    cases awaits
  · have rises : result.2.stepCount ≤ sender.before.stepCount :=
      (engineAccount stored guest).rank_le admissible other found above awaited
        made answered active
    omega

/-- What a guest that awaits and sends signals may rely on. -/
@[mk_iff] structure SignalsReplay (engine : Engine) (run : List EngineSegment) : Prop where
  awaits : Recurs (AnsweredAgain engine .durableAwaitSignals) run
  outgoing : OutgoingKept engine run
  calls : Recurs RecordedCallKept run

instance (engine : Engine) (run : List EngineSegment) : Decidable (SignalsReplay engine run) :=
  decidable_of_iff' _ (signalsReplay_iff ..)

/-- Awaits on signals are replayed faithfully in every admissible run. -/
theorem signals_replay :
    SignalsReplay engine (engineRun engine guest cuts) :=
  ⟨answeredAgain_recurs stored admissible .durableAwaitSignals, outgoing_kept stored admissible,
    recordedCalls_kept stored admissible⟩

/-- A guest that looks for a signal without waiting and then sends one. -/
def pollingGuest : Guest HostCall Reply :=
  straight [.durableAwaitSignals "a" 0 roomy roomy, .signalWorkflow "target" "b" "payload",
    .durableCall "svc" "op" "request" roomy]

omit stored admissible

/-- An await that found nothing and may not wait leaves no record, so its replay takes the
signal that the guest sent next for its own. -/
theorem outgoing_signal_received : ¬ ∀ (engine : Engine) (guest : Guest HostCall Reply)
    (cuts : List Cut), engine.db = true → engine.signalStore = true →
    MadeOf [.durableAwaitSignals, .signalWorkflow, .durableCall] guest →
    Persists (engineRun engine guest cuts) →
    SignalsReplay engine (engineRun engine guest cuts) := by
  intro claimed
  have replays := claimed {} pollingGuest
    [({} : Surroundings).cut [9, 9], ({} : Surroundings).cut [9, 9]] rfl rfl
    (straight_madeOf (by decide)) (by decide +kernel)
  exact absurd replays (by decide +kernel)

/-- A guest that waits for a signal, sends one and calls a service. -/
def waitingGuest : Guest HostCall Reply :=
  straight [.durableAwaitSignals "a" 1000 roomy roomy, .signalWorkflow "target" "b" "payload",
    .durableCall "svc" "op" "request" roomy]

/-- An await that suspends, receives its signal and is replayed with all that follows. -/
theorem signals_replay_received :
    SignalsReplay {} (engineRun {} waitingGuest
      [({} : Surroundings).cut [9], { signal := some ⟨1, "x", 0⟩ : Surroundings }.cut [9, 9, 9],
        ({} : Surroundings).cut [9, 9, 9]]) :=
  signals_replay rfl (by decide +kernel)

include stored admissible

/-- The scope of a session: whether it has one, its object, its instance and the keys held. -/
def ExecSession.scope (s : ExecSession) : Bool × String × String × List String :=
  (s.scopeSet, s.scopeObjType, s.scopeInstKey, s.heldScopes)

/-- A scope that had been set is set again to the same. -/
def ScopeSetAgain (engine : Engine) (step again : EngineStep) : Prop :=
  step.call.kind = .setScope → ∀ result ∈ (engineHost engine).answered step.outcome,
    again.call = step.call ∧ ∀ repeated ∈ again.outcome, repeated.2.scope = result.2.scope

instance (engine : Engine) (step again : EngineStep) :
    Decidable (ScopeSetAgain engine step again) :=
  inferInstanceAs (Decidable (_ → _))

/-- A call begins at the step it has begun at before, unless it is made in a session that
has been suspended. -/
def StepKept (step again : EngineStep) : Prop :=
  step.before.suspendErr = none → again.before.suspendErr = none →
    again.before.stepCount = step.before.stepCount

instance (step again : EngineStep) : Decidable (StepKept step again) :=
  inferInstanceAs (Decidable (_ → _))

/-- What a guest that sets scopes may rely on. -/
@[mk_iff] structure ScopesReplay (engine : Engine) (run : List EngineSegment) : Prop where
  scopes : Recurs (ScopeSetAgain engine) run
  steps : Recurs StepKept run
  calls : Recurs RecordedCallKept run

instance (engine : Engine) (run : List EngineSegment) : Decidable (ScopesReplay engine run) :=
  decidable_of_iff' _ (scopesReplay_iff ..)

/-- Scopes are replayed faithfully in every admissible run. -/
theorem scopes_replay :
    ScopesReplay engine (engineRun engine guest cuts) := by
  refine ⟨?_, ?_, recordedCalls_kept stored admissible⟩
  · refine List.Pairwise.imp ?_ (answers_recur stored admissible)
    intro first second recur both member _ result answered
    obtain ⟨same, answers⟩ := recur both member result answered
    refine ⟨same, fun repeated given => ?_⟩
    have stands := (answers repeated given).2
    exact congrArg (fun standing : Standing => (standing.scopeSet, standing.scopeObjType,
      standing.scopeInstKey, standing.heldScopes)) stands
  · refine List.Pairwise.imp ?_ (standings_recur stored admissible)
    intro first second recur both member active activeAgain
    exact congrArg stepCount (recur both member active activeAgain)

/-- A guest that enters a scope and calls a service in it. -/
def scopedGuest : Guest HostCall Reply :=
  straight [.setScope "object" "key" roomy, .durableCall "svc" "op" "request" roomy]

/-- The key is held by another run. -/
def contended : Surroundings where
  acquired := .ok false

omit stored admissible

/-- Replaying the record of a refused acquisition leaves the replay even when the history
goes on, so the recorded service call behind it is sent again. -/
theorem retried_scope_resends : ¬ ∀ (engine : Engine) (guest : Guest HostCall Reply)
    (cuts : List Cut), engine.db = true → engine.concurrencyKeyStore = true →
    MadeOf [.setScope, .durableCall] guest → Persists (engineRun engine guest cuts) →
    ScopesReplay engine (engineRun engine guest cuts) := by
  intro claimed
  have replays := claimed {} scopedGuest
    [contended.cut [9], ({} : Surroundings).cut [9, 9], ({} : Surroundings).cut [9, 9]] rfl rfl
    (straight_madeOf (by decide)) (by decide +kernel)
  exact absurd replays (by decide +kernel)

/-- A scope that is refused, set, and set again in a third segment. -/
theorem scopes_replay_retried :
    ScopesReplay {} (engineRun {} scopedGuest
      [contended.cut [9], ({} : Surroundings).cut [9], ({} : Surroundings).cut [9, 9]]) :=
  scopes_replay rfl (by decide +kernel)

include stored admissible

/-- A service call that had its final reply takes the step it has taken before, so that it
consumes the record it wrote itself, and is not sent again. -/
def OutcomeKept (engine : Engine) (step again : EngineStep) : Prop :=
  step.call.kind = .durableCall → ∀ result ∈ (engineHost engine).answered step.outcome,
    again.before.stepCount = step.before.stepCount ∧
      (∀ repeated ∈ again.outcome, repeated.2.stepCount = result.2.stepCount) ∧
      ∀ observed ∈ again.trace, observed.query.dispatchStep = none

instance (engine : Engine) (step again : EngineStep) : Decidable (OutcomeKept engine step again) :=
  inferInstanceAs (Decidable (_ → _))

/-- What a guest that calls services may rely on: a call that has returned returns the same
again, from its own record. -/
@[mk_iff] structure CallsReplay (engine : Engine) (run : List EngineSegment) : Prop where
  answers : Recurs (AnsweredAgain engine .durableCall) run
  outcomes : Recurs (OutcomeKept engine) run

instance (engine : Engine) (run : List EngineSegment) : Decidable (CallsReplay engine run) :=
  decidable_of_iff' _ (callsReplay_iff ..)

/-- A call that had its final reply is answered from the rows, in a session that stands where
the first one stood. -/
theorem outcomes_kept :
    Recurs (OutcomeKept engine) (engineRun engine guest cuts) := by
  rw [recurs_iff]
  intro early late index first second step again before one two made repeated _ result answered
  obtain ⟨_, replayed, answers⟩ := (engineAccount stored guest).repeats admissible
    one two made repeated before answered
  have stands := (engineAccount stored guest).repeats_place admissible
    one two made repeated before answered
  refine ⟨congrArg stepCount stands, fun result' given => ?_, replayed.undispatched⟩
  exact congrArg stepCount (answers result'.1 result'.2 given).2

/-- The outcomes of service calls are replayed faithfully in every admissible run. -/
theorem calls_replay :
    CallsReplay engine (engineRun engine guest cuts) :=
  ⟨answeredAgain_recurs stored admissible .durableCall, outcomes_kept stored admissible⟩

/-- A guest that calls one service and then another. -/
def callingGuest : Guest HostCall Reply :=
  straight [.durableCall "svc" "first" "request" roomy, .durableCall "svc" "second" "request" roomy]

/-- The worker may not start work. -/
def unadmitted : Surroundings where
  admitted := false

/-- A segment that is refused the first call and makes the second. -/
def refusedFirst : Cut :=
  ({}, [List.replicate 9 unadmitted.answer, List.replicate 9 ({} : Surroundings).answer])

omit stored admissible

/-- A call that is refused leaves no record, so its replay meets the record of the call that
came after it. -/
theorem refused_call_meets_next_record : ¬ ∀ (engine : Engine) (guest : Guest HostCall Reply)
    (cuts : List Cut), engine.db = true → MadeOf [.durableCall] guest →
    Persists (engineRun engine guest cuts) → CallsReplay engine (engineRun engine guest cuts) := by
  intro claimed
  have replays := claimed {} callingGuest [refusedFirst, ({} : Surroundings).cut [9, 9]] rfl
    (straight_madeOf (by decide)) (by decide +kernel)
  exact absurd replays (by decide +kernel)

/-- Two calls that are made in one segment and replayed in the next. -/
theorem calls_replay_recorded :
    CallsReplay {} (engineRun {} callingGuest
      [({} : Surroundings).cut [9, 9], ({} : Surroundings).cut [9, 9]]) :=
  calls_replay rfl (by decide +kernel)

end Runs

end Cleat
