import Cleat.PromiseReplay
import Cleat.Signals

/-!
# Replaying signals

An await that received a signal owns its `signal_received` row, behind an `await_signals`
row if it had suspended. An await that timed out after suspending owns the latter alone.
An await without a positive time-out that finds nothing owns no row at all, and neither
does a signal that the caller is not authorized to send.

Rows do not say which call they belong to, and a signal sent to another run is recorded as
`signal_received` too. `AwaitSignalsAllowed` is the condition under which an await is
replayed from its own rows.
-/
namespace Cleat

open Durable Durable.Program Leaves

attribute [local simp] durableAwaitSignals replayAwaitSignals

/-- The row of a received signal, with the reply an await gives for it. -/
def ReceivedBy (nameBuffer payloadBuffer : OutBuf) (row : EventRecord) (reply : Reply) : Prop :=
  row.eventType = .signalReceived ∧
    reply = signalReceived nameBuffer payloadBuffer row.signalName row.signalPayload

/-- An await owns the row of its signal, behind the row of its suspension if it suspended,
or the latter alone if it timed out. One that may not suspend and found nothing owns no
row. -/
def awaitSignalsFormat (before : Standing) (timeoutMs : Int) (nameBuffer payloadBuffer : OutBuf) :
    Format where
  Block reply recorded block after := after = before.forward block.length ∧
    ((∃ row, block = [row] ∧ recorded = true ∧ ReceivedBy nameBuffer payloadBuffer row reply) ∨
      (∃ begun row, block = [begun, row] ∧ recorded = true ∧ begun.eventType = .awaitSignals ∧
        ReceivedBy nameBuffer payloadBuffer row reply) ∨
      (∃ begun, block = [begun] ∧ recorded = false ∧ begun.eventType = .awaitSignals ∧
        0 < timeoutMs ∧ reply = signalsTimedOut) ∨
      (block = [] ∧ recorded = false ∧ timeoutMs ≤ 0 ∧ reply = signalsTimedOut))
  Tail tail := ∃ begun, tail = [begun] ∧ begun.eventType = .awaitSignals ∧ 0 < timeoutMs

/-- A sent signal owns its row, and one that was refused owns none. -/
def signalWorkflowFormat (before : Standing) : Format where
  Block reply recorded block after :=
    (∃ row, block = [row] ∧ row.eventType = .signalReceived ∧ recorded = true ∧
      reply = ⟨0, []⟩ ∧ after = before.forward 1) ∨
      (block = [] ∧ recorded = false ∧ reply = ⟨errSignalAuthRequired, []⟩ ∧ after = before)
  Tail _ := False

/-- The store has a signal under the name it is asked for. -/
def Finds : Observed → Prop
  | ⟨.pollSignal _, answer⟩ => ∃ delivery, answer = .ok (some delivery)
  | _ => False

/-- The store still has no signal, and nothing stops the session. -/
def StillMissing : Observed → Prop
  | ⟨.pollSignal _, .ok (some _)⟩ => False
  | ⟨.shutdownObserved, answer⟩ => answer = false
  | _ => True

instance : DecidablePred StillMissing := fun observed => by
  unfold StillMissing
  split <;> infer_instance

def stillExpired (begun : EventRecord) : Observed → Bool
  | ⟨.pollSignal _, .ok (some _)⟩ => false
  | ⟨.now, clockMs⟩ => awaitExpired begun clockMs
  | _ => true

/-- The store still has no signal and the deadline of the await has passed. -/
def StillExpired (begun : EventRecord) (observed : Observed) : Prop :=
  stillExpired begun observed = true

instance (begun : EventRecord) : DecidablePred (StillExpired begun) :=
  fun observed => inferInstanceAs (Decidable (stillExpired begun observed = true))

/-- The circumstances in which an await on signals returns what it has returned before. Its
events are persisted. One that has timed out after suspending is not followed by a
received signal, and if nothing follows it, it still times out. One that found nothing
and could not suspend is followed by nothing, and still finds nothing. -/
@[mk_iff] structure AwaitSignalsAllowed (engine : Engine) (timeoutMs : Int) (known : Option Reply)
    (s : ExecSession) (trace : Trace) : Prop where
  durable : ∀ observed ∈ trace, Durably observed
  unpaired : s.isReplay = true → known = some signalsTimedOut → 0 < timeoutMs →
    ∀ next ∈ s.history[s.stepCount + 1]?, next.eventType ≠ .signalReceived
  expired : s.isReplay = true → known = some signalsTimedOut → 0 < timeoutMs →
    ∀ begun ∈ s.current, s.history[s.stepCount + 1]? = none →
      ∀ observed ∈ trace, StillExpired begun observed
  missed : known = some signalsTimedOut → timeoutMs ≤ 0 →
    s.PastHistory ∧ engine.deferPhase = false ∧ ∀ observed ∈ trace, StillMissing observed

set_option synthInstance.maxSize 256 in
instance (engine : Engine) (timeoutMs : Int) (known : Option Reply) (s : ExecSession)
    (trace : Trace) : Decidable (AwaitSignalsAllowed engine timeoutMs known s trace) :=
  decidable_of_iff' _ (awaitSignalsAllowed_iff ..)

section AwaitSignals

variable {engine : Engine} {s : ExecSession} {signalNames : String} {timeoutMs : Int}
  {nameBuffer payloadBuffer : OutBuf} {trace : Trace}
  {outcome : Option Replied} {Usual : Observed → Prop}

@[simp] theorem suspends_signalReceived (name payload : String) :
    (signalReceived nameBuffer payloadBuffer name payload).suspends = false := by
  simp [suspends_eq, signalReceived, packAwaitSignalsResult]

@[simp] theorem suspends_signalsTimedOut : signalsTimedOut.suspends = false := by
  decide

variable {row begun : EventRecord} {reply : Reply} {observed : Observed} {count : Nat}

theorem ReceivedBy.resumes (received : ReceivedBy nameBuffer payloadBuffer row reply) :
    reply.suspends = false := by
  rw [received.2]
  simp

/-- Polling writes nothing, and reports only a signal that was found. -/
theorem pollSignals_spec (names : List String) :
    (pollSignals names).Ensures Usual fun trace outcome => Silent trace ∧
      ∀ found, outcome = some (some found) → ∃ observed ∈ trace, Finds observed := by
  induction names with
  | nil => simp [pollSignals]
  | cons name names ih =>
    have missed : ∀ answer : Except String (Option SignalDelivery),
        (pollSignals names).Ensures Usual fun trace outcome =>
          Silent (⟨.pollSignal name, answer⟩ :: trace) ∧
            ∀ found, outcome = some (some found) →
              ∃ observed ∈ ⟨.pollSignal name, answer⟩ :: trace, Finds observed := by
      intro answer
      refine ih.mono fun trace outcome polled =>
        ⟨by simpa using polled.1, fun found given => ?_⟩
      obtain ⟨observed, member, there⟩ := polled.2 found given
      exact ⟨observed, List.mem_cons_of_mem _ member, there⟩
    refine ⟨by simp, fun answer _ => ?_⟩
    rcases answer with reason | _ | delivery
    · exact missed (.error reason)
    · exact missed (.ok none)
    · exact ⟨by simp,
        fun _ _ => ⟨_, List.mem_singleton_self _, delivery, rfl⟩⟩

/-- Looking for a signal writes nothing, and reports only a signal that was found. -/
theorem findSignal_spec :
    (findSignal engine signalNames).Ensures Usual fun trace outcome => Silent trace ∧
      ∀ found, outcome = some (some found) → ∃ observed ∈ trace, Finds observed := by
  unfold findSignal
  split
  · exact pollSignals_spec _
  · exact ⟨silent_nil, by simp⟩

variable {before : Standing} {rows tail : History}

/-- Recording a signal completes an await. -/
theorem awaitSignals_received
    (begun : tail = [] ∨ (awaitSignalsFormat before timeoutMs nameBuffer payloadBuffer).Tail tail)
    (received : ReceivedBy nameBuffer payloadBuffer row reply) :
    (awaitSignalsFormat before timeoutMs nameBuffer payloadBuffer).Block reply true (tail ++ [row])
      (before.forward (tail ++ [row]).length) := by
  rcases begun with rfl | ⟨first, rfl, kind, _⟩
  · exact ⟨rfl, .inl ⟨row, rfl, rfl, received⟩⟩
  · exact ⟨rfl, .inr (.inl ⟨first, row, rfl, rfl, kind, received⟩)⟩

/-- A signal that was found is recorded, consumed and returned. -/
theorem receiveSignal_leaves {name : String} {delivery : SignalDelivery}
    (stored : engine.db = true) (caught : Caught s (rows ++ tail).length)
    (dense : Dense (rows ++ tail)) (stands : s.standing = before.forward tail.length)
    (begun : tail = [] ∨ (awaitSignalsFormat before timeoutMs nameBuffer payloadBuffer).Tail tail) :
    (receiveSignal engine s name delivery nameBuffer payloadBuffer).Ensures Durably
      (Leaves (awaitSignalsFormat before timeoutMs nameBuffer payloadBuffer) rows tail) := by
  -- the rows of an await in progress
  have unfinished : (awaitSignalsFormat before timeoutMs nameBuffer payloadBuffer).Unfinished tail :=
    .inl begun
  refine ensures_recordEvent stored caught.forward rfl (fun _ _ _ usual => usual)
    (silent dense silent_nil unfinished)
    (fun clockMs => silent dense (by simp) unfinished)
    fun clockMs checksum after recorded => ?_
  refine ⟨appended [_] [] dense caught.position (by simp) (by simp)
    (by simp) (.inr ⟨_, _, awaitSignals_received begun ⟨rfl, rfl⟩⟩),
    fun consumed _ => ?_⟩
  refine appended [_] [_] dense caught.position (by simp)
    (by simp) (by simp) (.inl ⟨by simp, ⟨true, ?_⟩,
      .inr (recorded.behind caught stands _).2⟩)
  rw [(recorded.behind caught stands _).1]
  exact awaitSignals_received begun ⟨rfl, rfl⟩

/-- An await that resumes from the row of its suspension. -/
theorem resumeAwaitSignals_leaves (stored : engine.db = true) (caught : Caught s (rows.length + 1))
    (dense : Dense (rows ++ [begun])) (stands : s.standing = before.forward 1)
    (kind : begun.eventType = .awaitSignals) (waits : 0 < timeoutMs) :
    (resumeAwaitSignals engine s begun nameBuffer payloadBuffer).Ensures Durably
      (Leaves (awaitSignalsFormat before timeoutMs nameBuffer payloadBuffer) rows [begun]) := by
  have inProgress : (awaitSignalsFormat before timeoutMs nameBuffer payloadBuffer).Unfinished [begun] :=
    .inl (.inr ⟨begun, rfl, kind, waits⟩)
  unfold resumeAwaitSignals
  rw [ensures_bind]
  refine findSignal_spec.mono fun polls outcome ⟨silent, _⟩ => ?_
  match outcome with
  | none => exact .silent dense silent inProgress
  | some (some (name, delivery)) =>
    exact Leaves.ensures_after polls silent (receiveSignal_leaves stored (by simpa using caught)
      dense stands (.inr ⟨begun, rfl, kind, waits⟩))
  | some none =>
    have asked : ∀ clockMs : Int, Silent (polls ++ [⟨.now, clockMs⟩]) := by
      intro clockMs
      simpa using silent
    simp only [ask_eq, ask_bind, done_bind, ensures_ask]
    refine ⟨Leaves.silent dense (by simpa using silent) inProgress, fun clockMs _ => ?_⟩
    split
    · exact Leaves.silent dense (asked clockMs) (.inl ⟨by simp, ⟨false, stands,
        .inr (.inr (.inl ⟨begun, rfl, rfl, kind, waits, rfl⟩))⟩, .inr caught⟩)
    · exact .silent dense (asked clockMs)
        (.inr ⟨.inl (suspends_suspendAwait _ _ caught.active), inProgress⟩)

/-- An await that begins at the end of the rows. -/
theorem freshAwaitSignals_leaves (stored : engine.db = true) (caught : Caught s rows.length)
    (dense : Dense rows) :
    (freshAwaitSignals engine s signalNames timeoutMs nameBuffer payloadBuffer).Ensures Durably
      (Leaves (awaitSignalsFormat s.standing timeoutMs nameBuffer payloadBuffer) rows []) := by
  have whole : Dense (rows ++ []) := by simpa using dense
  have nothing : (awaitSignalsFormat s.standing timeoutMs nameBuffer payloadBuffer).Unfinished [] :=
    .inl (.inl rfl)
  have stands : s.standing = s.standing.forward ([] : History).length := rfl
  refine ensures_unlessStopped whole nothing ?_
  simp only [caught.active.unsuspended, Option.isSome_none, Bool.false_and, Bool.false_eq_true,
    if_false]
  rw [ensures_bind]
  refine findSignal_spec.mono fun polls outcome ⟨silent, _⟩ => ?_
  match outcome with
  | none => exact .silent whole silent nothing
  | some (some (name, delivery)) =>
    exact Leaves.ensures_after polls silent
      (receiveSignal_leaves stored (by simpa using caught) whole stands (.inl rfl))
  | some none =>
    refine Leaves.ensures_after polls silent ?_
    dsimp only
    split
    · rename_i unwaited
      exact Leaves.silent whole silent_nil (.inl ⟨by simp, ⟨false, stands,
        .inr (.inr (.inr ⟨rfl, rfl, unwaited, rfl⟩))⟩, .inr caught⟩)
    · rename_i waited
      refine recordEvent_leaves stored (by simpa using caught) whole rfl rfl
        (fun _ _ _ usual => usual) nothing
        (fun after => suspendAwait after s!"await_signals({signalNames}, {timeoutMs}ms)"
          (unixMilli after.nowMs + durationOfMs timeoutMs)) (fun _ _ => rfl)
        fun clockMs after recorded => .inr ⟨?_, ?_⟩
      · exact .inl (suspends_suspendAwait _ _ (recorded.caught caught).active)
      · exact .inl (.inr ⟨_, rfl, rfl, by omega⟩)

theorem not_finds_of_expired (still : StillExpired begun observed) : ¬ Finds observed := by
  obtain ⟨query, answer⟩ := observed
  cases query with
  | pollSignal name =>
    rintro ⟨delivery, rfl⟩
    cases still
  | _ => exact fun finds => finds

theorem not_finds_of_missing (still : StillMissing observed) :
    ¬ Finds observed := by
  obtain ⟨query, answer⟩ := observed
  cases query with
  | pollSignal name =>
    rintro ⟨delivery, rfl⟩
    exact still
  | _ => exact fun finds => finds

/-- An await that may not suspend and still finds nothing writes nothing. -/
theorem freshAwaitSignals_missed (caught : Caught s count) (ordinary : engine.deferPhase = false)
    (waitless : timeoutMs ≤ 0) :
    (freshAwaitSignals engine s signalNames timeoutMs nameBuffer payloadBuffer).Ensures
      StillMissing fun trace outcome => Silent trace ∧
        ∀ reply after, outcome = some (reply, after) → reply = signalsTimedOut ∧ after = s := by
  have polled : ∀ (next : Option (String × SignalDelivery) → Work Replied)
      (asked : Trace), next none = pure (signalsTimedOut, s) → Silent asked →
      (findSignal engine signalNames >>= next).Ensures StillMissing fun trace outcome =>
        Silent (asked ++ trace) ∧
          ∀ reply after, outcome = some (reply, after) → reply = signalsTimedOut ∧ after = s := by
    intro next asked timesOut quiet
    rw [ensures_bind]
    refine findSignal_spec.usually.mono fun polls outcome spec => ?_
    obtain ⟨still, silent, finds⟩ := spec
    rcases outcome with _ | _ | signal
    · exact ⟨by simp [quiet, silent], by simp⟩
    · dsimp only
      rw [timesOut]
      refine ⟨by simp [quiet, silent], fun reply after given => ?_⟩
      cases given
      exact ⟨rfl, rfl⟩
    · obtain ⟨observed, member, there⟩ := finds signal rfl
      exact absurd there (not_finds_of_missing (still observed member))
  unfold freshAwaitSignals stopBeforeNewWork
  simp only [caught.active.unsuspended, Option.isSome_none, Bool.false_and, Bool.false_eq_true,
    if_false, waitless, if_true, ordinary, ask_eq, ask_bind, done_bind,
    ensures_ask]
  refine ⟨by simp, fun stop usual => ?_⟩
  obtain rfl : stop = false := usual
  exact polled _ [⟨.shutdownObserved, false⟩] rfl (by simp)

/-- An await that still times out does so without writing anything. -/
theorem resumeAwaitSignals_expired :
    (resumeAwaitSignals engine s begun nameBuffer payloadBuffer).Ensures (StillExpired begun)
      fun trace outcome => Silent trace ∧
        ∀ reply after, outcome = some (reply, after) → reply = signalsTimedOut ∧ after = s := by
  unfold resumeAwaitSignals
  rw [ensures_bind]
  refine findSignal_spec.usually.mono fun polls outcome ⟨still, silent, found⟩ => ?_
  match outcome, found with
  | none, _ => exact ⟨silent, by simp⟩
  | some (some signal), finds =>
    obtain ⟨observed, member, there⟩ := finds signal rfl
    exact absurd there (not_finds_of_expired (still observed member))
  | some none, _ =>
    simp only [ask_eq, ask_bind, done_bind, ensures_ask]
    refine ⟨⟨by simpa using silent, by simp⟩, fun clockMs passed => ?_⟩
    have expired : awaitExpired begun clockMs = true := passed
    rw [if_pos expired]
    refine ⟨by simpa using silent, fun reply after given => ?_⟩
    cases given
    exact ⟨rfl, rfl⟩

/-- An await that could not suspend and is repeated at the end of the rows, where it finds
nothing again. -/
theorem durableAwaitSignals_missed (place : AtEnd s count) (ordinary : engine.deferPhase = false)
    (waitless : timeoutMs ≤ 0) (missing : ∀ observed ∈ trace, StillMissing observed)
    (runs : (durableAwaitSignals engine s signalNames timeoutMs nameBuffer payloadBuffer).Runs trace
      outcome) :
    Silent trace ∧ ∀ reply after, outcome = some (reply, after) →
      reply = signalsTimedOut ∧ after.standing = s.standing ∧ Caught after count := by
  have repeated : ∀ session : ExecSession, Caught session count →
      session.standing = s.standing →
      durableAwaitSignals engine s signalNames timeoutMs nameBuffer payloadBuffer =
        freshAwaitSignals engine session signalNames timeoutMs nameBuffer payloadBuffer →
      Silent trace ∧ ∀ reply after, outcome = some (reply, after) →
        reply = signalsTimedOut ∧ after.standing = s.standing ∧ Caught after count := by
    intro session caught stands fresh
    rw [fresh] at runs
    obtain ⟨silent, answers⟩ :=
      (freshAwaitSignals_missed caught ordinary waitless).of_runs runs missing
    refine ⟨silent, fun reply after given => ?_⟩
    obtain ⟨rfl, rfl⟩ := answers reply after given
    exact ⟨rfl, stands, caught⟩
  rcases place with ahead | caught
  · exact repeated (exitReplay s) ahead.exit rfl
      (by simp [ahead.replaying, ahead.lookup_end])
  · exact repeated s caught rfl (by simp [caught.forward])

/-- A finished await returns its outcome again. -/
theorem durableAwaitSignals_replays :
    (awaitSignalsFormat s.standing timeoutMs nameBuffer payloadBuffer).ReplayedBy s
      (AwaitSignalsAllowed engine timeoutMs · s)
      (durableAwaitSignals engine s signalNames timeoutMs nameBuffer payloadBuffer) := by
  intro earlier block later reply recorded after known trace outcome _ ahead owns known_eq allowed
    runs
  obtain ⟨rfl, ⟨row, rfl, rfl, received⟩ | ⟨begun, row, rfl, rfl, kind, received⟩ |
    ⟨begun, rfl, rfl, kind, waits, rfl⟩ | ⟨rfl, rfl, waitless, rfl⟩⟩ := owns
  · exact .at_once (ahead.advance engine)
      (by simp [ahead.replaying, ahead.lookup, received.1, received.2]) runs received.resumes
      (standing_forward rfl rfl)
  · have stepped := ahead.advance engine
    exact .at_once (stepped.advance engine)
      (by simp [ahead.replaying, ahead.lookup, kind, stepped.lookup, received.1, received.2]) runs
      received.resumes (standing_forward rfl rfl)
  · have stepped := ahead.advance engine
    cases later with
    | nil =>
      simp only [durableAwaitSignals, ahead.replaying, ahead.lookup, kind, replayAwaitSignals,
        stepped.lookup_end, if_true, reduceCtorEq, if_false] at runs
      obtain ⟨silent, answers⟩ := resumeAwaitSignals_expired.of_runs runs
        (allowed.expired ahead.replaying (known_eq rfl) waits begun ahead.lookup ahead.lookup_next_end)
      refine ⟨writes_reads _ _ silent.reads, silent.undispatched, fun reply' after' given => ?_⟩
      obtain ⟨rfl, rfl⟩ := answers reply' after' given
      exact ⟨rfl, by simp, standing_forward rfl rfl, .inr ⟨rfl, stepped.exit⟩⟩
    | cons next later =>
      have other := allowed.unpaired ahead.replaying (known_eq rfl) waits next ahead.lookup_next
      exact .at_once stepped
        (by simp [ahead.replaying, ahead.lookup, kind, stepped.lookup, other]) runs (by simp)
        (standing_forward rfl rfl)
  · obtain ⟨past, ordinary, missing⟩ := allowed.missed (known_eq rfl) waitless
    obtain rfl : later = [] := by
      cases later with
      | nil => rfl
      | cons next later => exact absurd (past ahead.replaying) (by simp [ahead.lookup])
    obtain ⟨silent, answers⟩ :=
      durableAwaitSignals_missed (.inl ahead) ordinary waitless missing runs
    refine ⟨writes_reads _ _ silent.reads, silent.undispatched, fun reply' after' given => ?_⟩
    obtain ⟨rfl, stands, caught⟩ := answers reply' after' given
    exact ⟨rfl, by simp, stands, .inr ⟨rfl, caught⟩⟩

/-- An await at the end of the rows leaves its own. -/
theorem durableAwaitSignals_leaves (stored : engine.db = true) :
    (awaitSignalsFormat s.standing timeoutMs nameBuffer payloadBuffer).LeftBy s
      (AwaitSignalsAllowed engine timeoutMs none s)
      (durableAwaitSignals engine s signalNames timeoutMs nameBuffer payloadBuffer) := by
  intro rows tail trace outcome dense place begun allowed runs
  refine Program.Ensures.of_runs ?_ runs allowed.durable
  rcases place with ahead | ⟨rfl, caught⟩
  · rcases begun with rfl | ⟨row, rfl, kind, waits⟩
    · simp only [durableAwaitSignals, ahead.replaying, ahead.lookup_end, if_true]
      exact freshAwaitSignals_leaves stored ahead.exit (by simpa using dense)
    · have stepped := ahead.advance engine
      simp only [durableAwaitSignals, ahead.replaying, ahead.lookup, kind, replayAwaitSignals,
        stepped.lookup_end, if_true, reduceCtorEq, if_false]
      exact resumeAwaitSignals_leaves stored stepped.exit dense rfl kind waits
  · simp only [durableAwaitSignals, caught.forward, Bool.false_eq_true, if_false]
    exact freshAwaitSignals_leaves stored caught (by simpa using dense)

end AwaitSignals

section SignalWorkflow

variable {engine : Engine} {s : ExecSession} {targetRunID signalName payload : String}
  {trace : Trace} {outcome : Option Replied}

/-- A signal that was sent is not sent again. -/
theorem signalWorkflow_replays : (signalWorkflowFormat s.standing).ReplayedBy s
    (fun known trace => (∀ observed ∈ trace, Durably observed) ∧
      known ≠ some ⟨errSignalAuthRequired, []⟩)
    (signalWorkflow engine s targetRunID signalName payload) := by
  intro earlier block later reply recorded after known trace outcome _ ahead owns known_eq allowed
    runs
  obtain ⟨row, rfl, kind, _, rfl, rfl⟩ | ⟨_, rfl, rfl, _⟩ := owns
  swap
  · exact absurd (known_eq rfl) allowed.2
  exact .at_once (ahead.advance engine)
    (by simp [signalWorkflow, ahead.replaying, ahead.lookup, kind]) runs (by decide)
    (standing_forward rfl rfl)

variable {rows : History}

/-- Sending a signal records it first. -/
theorem freshSignalWorkflow_leaves (stored : engine.db = true) (caught : Caught s rows.length)
    (dense : Dense rows) :
    (freshSignalWorkflow engine s targetRunID signalName payload).Ensures Durably
      (Leaves (signalWorkflowFormat s.standing) rows []) := by
  have whole : Dense (rows ++ []) := by simpa using dense
  have nothing : (signalWorkflowFormat s.standing).Unfinished [] := .inl (.inl rfl)
  have silent : (⟨0, []⟩ : Reply).suspends = false := by decide
  refine ensures_recordEvent stored caught.forward rfl (fun _ _ _ usual => usual)
    (.silent whole silent_nil nothing)
    (fun clockMs => Leaves.silent whole (by simp) nothing)
    fun clockMs checksum after recorded => ?_
  have finished : ∀ row : EventRecord, row.eventType = .signalReceived →
      (signalWorkflowFormat s.standing).Ends rows.length [row] (some (⟨0, []⟩, after)) :=
    fun row kind => .inl ⟨silent, ⟨true, .inl ⟨row, rfl, kind, rfl, rfl, recorded.standing⟩⟩,
      .inr (recorded.caught caught)⟩
  dsimp only
  split
  · refine ⟨?_, fun delivered _ => ?_⟩
    · exact Leaves.appended [_] [] whole (by simp [stampEvent, caught.position])
        (by simp) (by simp) (by simp)
        (.inr ⟨_, _, .inl ⟨_, rfl, rfl, rfl, rfl, rfl⟩⟩)
    · exact Leaves.appended [_] [_] whole (by simp [stampEvent, caught.position])
        (by simp) (by simp) (by simp)
        (finished _ rfl)
  · exact Leaves.appended [_] [] whole (by simp [stampEvent, caught.position])
      (by simp) (by simp) (by simp) (finished _ rfl)

/-- A signal that is not in the history is sent, unless no work may start or the caller is
not authorized. -/
theorem beginSignalWorkflow_leaves (stored : engine.db = true) (caught : Caught s rows.length)
    (dense : Dense rows) :
    (beginSignalWorkflow engine s targetRunID signalName payload).Ensures Durably
      (Leaves (signalWorkflowFormat s.standing) rows []) := by
  have whole : Dense (rows ++ []) := by simpa using dense
  have fresh : (freshSignalWorkflow engine s targetRunID signalName payload).Ensures Durably
      (Leaves (signalWorkflowFormat s.standing) rows []) :=
    freshSignalWorkflow_leaves stored caught dense
  refine ensures_unlessStopped whole (.inl (.inl rfl)) ?_
  unfold signalAuthorized
  split
  · refine ⟨silent whole silent_nil (.inl (.inl rfl)), fun answer _ =>
      ensures_after [_] (by simp) ?_⟩
    cases answer with
    | ok value => exact fresh
    | error reason =>
      exact silent whole silent_nil (.inl ⟨by decide,
        ⟨false, .inr ⟨rfl, rfl, rfl, rfl⟩⟩, .inr caught⟩)
  · exact fresh

/-- Signalling another run at the end of the rows leaves the row of the signal. -/
theorem signalWorkflow_leaves (stored : engine.db = true) :
    (signalWorkflowFormat s.standing).LeftBy s (fun trace => ∀ observed ∈ trace, Durably observed)
      (signalWorkflow engine s targetRunID signalName payload) := by
  intro rows tail trace outcome dense place begun durable runs
  obtain rfl := begun.resolve_right id
  rw [List.append_nil] at dense
  refine Program.Ensures.of_runs ?_ runs durable
  rcases place with ahead | ⟨_, caught⟩
  · simp only [signalWorkflow, ahead.replaying, ahead.lookup_end, if_true]
    exact beginSignalWorkflow_leaves stored ahead.exit dense
  · simp only [signalWorkflow, caught.forward, Bool.false_eq_true, if_false]
    exact beginSignalWorkflow_leaves stored caught dense

end SignalWorkflow

end Cleat
