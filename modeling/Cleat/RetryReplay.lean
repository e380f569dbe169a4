import Cleat.CallReplay
import Cleat.Retries

/-!
# Replaying retry policies and heartbeats

A call with a retry policy owns the rows of its failed attempts and the row of the call
behind them. If the history ends among the attempts the policy is resumed, and the first
attempt's row carries the step that all its requests are sent for. The first call past the
history is executed as a single attempt, so it owns what an ordinary call owns.

A call with heartbeats owns the rows of its heartbeats and the row of the call behind them.
It cannot be resumed among its heartbeats: the request would be sent for a later step.
-/
namespace Cleat

open Durable Durable.Program List Leaves Program.Ensures

variable {engine : Engine} {s : ExecSession} {service operation request : String} {buffer : OutBuf}
  {before : Standing} {rows tail : History} {trace : Trace} {outcome : Option Replied}

attribute [local simp] Standing.forward

/-- A row of a failed attempt of this operation. -/
structure AttemptRow (service operation : String) (row : EventRecord) : Prop where
  kind : row.eventType = .callAttemptFailed
  service : row.service = service
  operation : row.op = operation

/-- The replies of policies that the host does not run. -/
def Rejected (engine : Engine) (buffer : OutBuf) (reply : Reply) : Prop :=
  reply = badParamDurableCall ∨ reply = retryPolicyRejected engine buffer

instance (engine : Engine) (buffer : OutBuf) : DecidablePred (Rejected engine buffer) :=
  fun _ => inferInstanceAs (Decidable (_ ∨ _))

/-- A policy owns the rows of its attempts and of its call, or of its attempts alone if
the host stopped to run it. -/
def retryFormat (engine : Engine) (before : Standing) (service operation : String)
    (buffer : OutBuf) : Format where
  Block reply recorded block after :=
    (callFormat engine before service operation buffer).Block reply recorded block after ∨
      (after = before.forward block.length ∧
        ∃ attempts, (∀ row ∈ attempts, AttemptRow service operation row) ∧
          ((∃ row, block = attempts ++ [row] ∧ CallRow service operation row ∧
            row.pending = false ∧ (recorded = true ∧ reply = recordedReply buffer row ∨
              recorded = false ∧ Unexplained buffer reply)) ∨
          (block = attempts ∧ recorded = false ∧ Rejected engine buffer reply)))
  Tail tail := (callFormat engine before service operation buffer).Tail tail ∨
    (tail ≠ [] ∧ ∀ row ∈ tail, AttemptRow service operation row)

/-- The circumstances in which a call with a retry policy returns what it has returned
before: those of an ordinary call, and if it has returned, the host ran its policy. -/
@[mk_iff] structure RetryAllowed (engine : Engine) (service operation : String) (buffer : OutBuf)
    (known : Option Reply) (s : ExecSession) (trace : Trace) : Prop where
  call : CallAllowed engine service operation buffer known s trace
  ran : ∀ reply ∈ known, ¬ Rejected engine buffer reply

instance (engine : Engine) (service operation : String) (buffer : OutBuf) (known : Option Reply)
    (s : ExecSession) (trace : Trace) :
    Decidable (RetryAllowed engine service operation buffer known s trace) :=
  decidable_of_iff' _ (retryAllowed_iff ..)

section Retry

variable {policy : RetryPolicy}

@[simp] theorem suspends_badParamDurableCall : badParamDurableCall.suspends = false := by
  decide

@[simp] theorem suspends_retryPolicyRejected :
    (retryPolicyRejected engine buffer).suspends = false := by
  simp [retryPolicyRejected]

/-- Recorded attempts are consumed and counted, and the first one's step is kept. -/
theorem replayRetryAttempts_attempts (engine : Engine) (attempts rest : History)
    (found : ReplayedAttempts) (owned : ∀ row ∈ attempts, AttemptRow service operation row) :
    ∃ resume, replayRetryAttempts engine service operation (attempts ++ rest) found =
      replayRetryAttempts engine service operation rest
        ⟨advanceAll engine found.session attempts, found.spent + attempts.length,
          found.firstStep.or (attempts.head?.map EventRecord.step), resume⟩ := by
  induction attempts generalizing found with
  | nil => exact ⟨found.resume, by simp [advanceAll]⟩
  | cons row attempts ih =>
    have first := owned row (by simp)
    have unfolded : replayRetryAttempts engine service operation (row :: attempts ++ rest) found =
        replayRetryAttempts engine service operation (attempts ++ rest)
          ⟨advanceReplayStep engine found.session row, found.spent + 1,
            some (found.firstStep.getD row.step), false⟩ := by
      simp [replayRetryAttempts, first.kind, first.service, first.operation]
    obtain ⟨resume, folded⟩ := ih _ fun other member => owned other (by simp [member])
    refine ⟨resume, unfolded.trans (folded.trans ?_)⟩
    congr 2
    · simp only [length_cons]
      omega
    · cases found.firstStep <;> rfl

variable {row : EventRecord} {rest : History} {reply : Reply}

/-- A record that is no attempt of this policy ends the search for attempts. -/
theorem replayRetryAttempts_other (found : ReplayedAttempts)
    (kind : row.eventType ≠ .callAttemptFailed) :
    replayRetryAttempts engine service operation (row :: rest) found =
      { found with resume := false } := by
  simp [replayRetryAttempts, kind]

/-- Sending the request of a policy changes no rows. -/
theorem Leaves.sent {format : Format} {query : Query} {answer : Answer query}
    (sends : query.dispatchStep = some rows.length) (read : query.isWrite = false)
    (leaves : Leaves format rows tail trace outcome) :
    Leaves format rows tail (⟨query, answer⟩ :: trace) outcome := by
  have reads : OnlyReads [⟨query, answer⟩] := by simpa using read
  refine leaves.continued [⟨query, answer⟩] (writes_reads _ _ reads) ?_ (not_writesCallEvent reads)
  intro observed member step sent
  cases mem_singleton.mp member
  rw [sends] at sent
  exact (Option.some.inj sent).symm

section

variable (attempts : ∀ row ∈ tail, AttemptRow service operation row)

include attempts

/-- A policy that stands behind its call's row. -/
theorem retryFormat_ends {after : ExecSession}
    (owned : CallRow service operation row) (complete : row.pending = false)
    (replied : reply = recordedReply buffer row ∨ Unexplained buffer reply)
    (stands : after.standing = before.forward (tail ++ [row]).length)
    (caught : Caught after (rows.length + (tail ++ [row]).length)) :
    (retryFormat engine before service operation buffer).Ends rows.length (tail ++ [row])
      (some (reply, after)) := by
  rcases replied with rfl | ⟨code, rfl⟩
  · exact .inl ⟨by simp, ⟨true, .inr ⟨stands, tail, attempts,
      .inl ⟨row, rfl, owned, complete, .inl ⟨rfl, rfl⟩⟩⟩⟩, .inr caught⟩
  · exact .inl ⟨by simp, ⟨false, .inr ⟨stands, tail, attempts,
      .inl ⟨row, rfl, owned, complete, .inr ⟨rfl, code, rfl⟩⟩⟩⟩, .inr caught⟩

/-- The rows of a policy among its attempts. -/
theorem retryFormat_unfinished :
    (retryFormat engine before service operation buffer).Unfinished tail := by
  by_cases vacant : tail = []
  · exact .inl (.inl vacant)
  · exact .inl (.inr (.inr ⟨vacant, attempts⟩))

variable (stored : engine.db = true) (caught : Caught s (rows ++ tail).length)
  (dense : Dense (rows ++ tail)) (stands : s.standing = before.forward tail.length)

include stored caught dense stands

/-- Recording the end of a policy completes its rows. -/
theorem finish_leaves {response err : String} {nonRetryable exhausted : Bool} {errCode : String}
    (replied : ∀ row : EventRecord, row.response = response → row.err = err →
      row.errNonRetryable = nonRetryable →
      reply = recordedReply buffer row ∨ Unexplained buffer reply) :
    (recordEvent engine s { callEvent s.stepCount service operation request response err with
        errNonRetryable := nonRetryable, errCode := errCode, retriesExhausted := exhausted } >>=
      fun result => pure (reply, result.2)).Ensures Recordable
      (Leaves (retryFormat engine before service operation buffer) rows tail) := by
  refine recordEvent_leaves stored caught dense rfl rfl (fun _ _ _ usual => usual)
    (retryFormat_unfinished attempts) (fun after => (reply, after)) (fun _ _ => rfl)
    fun clockMs after recorded => ?_
  obtain ⟨standing, moved⟩ := recorded.behind caught stands _
  exact retryFormat_ends attempts ⟨rfl, rfl, rfl⟩ rfl (replied _ rfl rfl rfl) standing moved

/-- Making the attempts that are left of a policy.

Proof: by induction on their number. An attempt ends the policy with the call's row, or
adds its own row to those of the attempts before it. -/
theorem retryAttempts_leaves {codes : List String} {left : Nat} {attempt : Int} :
    (retryAttempts engine policy codes service operation request rows.length buffer left attempt
      s).Ensures Recordable
      (Leaves (retryFormat engine before service operation buffer) rows tail) := by
  induction left generalizing s tail attempt with
  | zero =>
    exact ⟨silent dense silent_nil (retryFormat_unfinished attempts), fun never => never.elim⟩
  | succ left ih =>
    have unfinished : (retryFormat engine before service operation buffer).Unfinished tail :=
      retryFormat_unfinished attempts
    unfold retryAttempts callService
    simp only [ask_eq, ask_bind, done_bind, ensures_ask]
    refine ⟨silent dense silent_nil unfinished, fun answer _ => ?_⟩
    cases answer with
    | ok response =>
      refine (finish_leaves attempts stored caught dense stands fun row value err _ => ?_).mono
        fun trace outcome leaves => leaves.sent rfl rfl
      exact .inl (by simp [recordedReply, value, err])
    | error failure =>
      dsimp only
      split
      · refine (finish_leaves attempts stored caught dense stands fun row _ err code => ?_).mono
          fun trace outcome leaves => leaves.sent rfl rfl
        exact failedReply_eq _ _ row err code
      · split
        · refine (finish_leaves attempts stored caught dense stands
            fun row _ err code => ?_).mono fun trace outcome leaves => leaves.sent rfl rfl
          exact failedReply_eq _ _ row err code
        · refine (recordEvent_continues stored caught dense rfl rfl (fun _ _ _ usual => usual)
            unfinished (by simp [attemptEvent]) fun clockMs after recorded dense' => ?_).mono
              fun trace outcome leaves => leaves.sent rfl rfl
          have attempted : ∀ row ∈ tail ++ [rowOf (stampEvent s (attemptEvent s.stepCount
              service operation attempt failure.message) clockMs)],
              AttemptRow service operation row :=
            forall_mem_append.mpr ⟨attempts, forall_mem_singleton.mpr ⟨rfl, rfl, rfl⟩⟩
          have among : (retryFormat engine before service operation buffer).Unfinished _ :=
            retryFormat_unfinished attempted
          refine ⟨silent dense' silent_nil among, fun waited usual => ?_⟩
          refine ensures_after [_] (by simp) ?_
          cases waited with
          | contextDone reason => exact usual.elim
          | shutdownRequested =>
            exact silent dense' silent_nil (.inr ⟨.inl (by simp), among⟩)
          | elapsed =>
            obtain ⟨standing, moved⟩ := recorded.behind caught stands _
            exact ih attempted (by rwa [length_append]) dense' standing

/-- Running a policy whose first attempt's step is the next one. -/
theorem freshCallWithRetry_leaves {spent : Nat} {resumeStep : Option Nat}
    (resumes : resumeStep.getD s.stepCount = rows.length) :
    (freshCallWithRetry engine s service operation request policy buffer spent resumeStep).Ensures
      Recordable (Leaves (retryFormat engine before service operation buffer) rows tail) := by
  unfold freshCallWithRetry
  cases decoded : nonRetryableCodes engine policy with
  | none =>
    exact silent dense silent_nil (.inl ⟨by simp, ⟨false, .inr ⟨stands, tail, attempts,
      .inr ⟨rfl, rfl, .inl rfl⟩⟩⟩, .inr (by simpa using caught)⟩)
  | some codes =>
    simp only [resumes]
    exact retryAttempts_leaves attempts stored caught dense stands

end

/-- In front of a record that is no attempt, or of none, a policy is replayed as a single
attempt. -/
theorem durableCallWithRetry_single {count : Nat} (request : String) (ahead : Ahead s count rest)
    (other : ∀ row ∈ rest.head?, row.eventType ≠ .callAttemptFailed) :
    durableCallWithRetry engine s service operation request policy buffer =
      replayCall engine s service operation request buffer := by
  have remaining : s.remaining = rest := ahead.remaining_eq
  unfold durableCallWithRetry
  rw [if_pos ahead.replaying, remaining]
  cases rest with
  | nil => simp [replayRetryAttempts]
  | cons row rest =>
    simp [replayRetryAttempts_other _ (other row (by simp))]

/-- A finished policy is answered from its rows. -/
theorem durableCallWithRetry_replays :
    (retryFormat engine s.standing service operation buffer).ReplayedBy s
      (RetryAllowed engine service operation buffer · s)
      (durableCallWithRetry engine s service operation request policy buffer) := by
  intro earlier block later reply recorded after known trace outcome dense ahead owns known_eq
    allowed runs
  rcases owns with single | ⟨rfl, attempts, attempted, ⟨row, rfl, owned, complete,
    ⟨rfl, rfl⟩ | ⟨rfl, silent⟩⟩ | ⟨_, rfl, rejected⟩⟩
  · have other : ∀ row ∈ (block ++ later).head?, row.eventType ≠ .callAttemptFailed := by
      rcases single with ⟨row, rfl, owned, _⟩ | ⟨_, rfl, _, refused⟩
      · simp [owned.kind]
      · exact absurd refused (allowed.call.accepted reply (known_eq rfl))
    rw [durableCallWithRetry_single request ahead other] at runs
    exact replayCall_replays dense ahead single known_eq allowed.call runs
  · have remaining : s.remaining = attempts ++ (row :: later) := by
      rw [ahead.remaining_eq]
      simp
    have passed : Ahead (advanceAll engine s attempts) (earlier.length + attempts.length)
        (row :: later) := by
      have regrouped : Ahead s earlier.length (attempts ++ (row :: later)) := by simpa using ahead
      exact regrouped.advanceAll engine
    have replayed : durableCallWithRetry engine s service operation request policy buffer =
        replayCall engine (advanceAll engine s attempts) service operation request buffer := by
      unfold durableCallWithRetry
      obtain ⟨resume, found⟩ := replayRetryAttempts_attempts engine attempts (row :: later)
        ⟨s, 0, none, false⟩ attempted
      rw [if_pos ahead.replaying, remaining, found,
        replayRetryAttempts_other _ (by simp [owned.kind])]
      simp
    rw [replayed, replayCall_own request passed.lookup owned, complete] at runs
    have stepped := passed.advance engine
    refine Replays.at_once (by simpa [Nat.add_assoc] using stepped) rfl runs (by simp)
      (standing_forward (by simp) ?_)
    rw [stepped.position, ahead.position]
    simp [Nat.add_assoc]
  · exact absurd silent (allowed.call.explained reply (known_eq rfl))
  · exact absurd rejected (allowed.ran reply (known_eq rfl))

/-- A policy at the end of the rows leaves its own. -/
theorem durableCallWithRetry_leaves (stored : engine.db = true) :
    (retryFormat engine s.standing service operation buffer).LeftBy s
      (RetryAllowed engine service operation buffer none s)
      (durableCallWithRetry engine s service operation request policy buffer) := by
  intro rows tail trace outcome dense place begun allowed runs
  have single : ∀ ahead : Ahead s rows.length tail,
      (tail = [] ∨ (callFormat engine s.standing service operation buffer).Tail tail) →
      Leaves (retryFormat engine s.standing service operation buffer) rows tail trace
        outcome := by
    intro ahead started
    have other : ∀ row ∈ tail.head?, row.eventType ≠ .callAttemptFailed := by
      rcases started with rfl | ⟨row, rfl, ⟨owned, _⟩ | capped⟩
      · simp
      · simp [owned.kind]
      · simp [capped]
    rw [durableCallWithRetry_single request ahead other] at runs
    exact (replayCall_leaves stored dense ahead started allowed.call runs).1.widen
      (fun _ _ _ _ => .inl) (fun _ => .inl)
  rcases place with ahead | ⟨rfl, caught⟩
  · rcases begun with vacant | started | ⟨nonempty, attempts⟩
    · exact single ahead (.inl vacant)
    · exact single ahead (.inr started)
    · obtain ⟨first, others, rfl⟩ := exists_cons_of_ne_nil nonempty
      have remaining : s.remaining = first :: others := ahead.remaining_eq
      have passed : Ahead (advanceAll engine s (first :: others))
          (rows.length + (first :: others).length) [] := by
        have regrouped : Ahead s rows.length ((first :: others) ++ []) := by simpa using ahead
        exact regrouped.advanceAll engine
      have numbered : first.step = rows.length := dense.here
      have resumed : durableCallWithRetry engine s service operation request policy buffer =
          (stopBeforeNewWork engine (exitReplay (advanceAll engine s (first :: others))) >>=
            fun stop =>
              if stop then pure (suspendReply,
                exitReplay (advanceAll engine s (first :: others)))
              else freshCallWithRetry engine (exitReplay (advanceAll engine s (first :: others)))
                service operation request policy buffer (others.length + 1) (some first.step)) := by
        unfold durableCallWithRetry
        obtain ⟨resume, found⟩ := replayRetryAttempts_attempts engine (first :: others) []
          ⟨s, 0, none, false⟩ attempts
        rw [append_nil] at found
        rw [if_pos ahead.replaying, remaining, found]
        simp [replayRetryAttempts]
      rw [resumed] at runs
      refine of_runs ?_ runs allowed.call.recordable
      refine ensures_unlessStopped dense (retryFormat_unfinished attempts) ?_
      refine freshCallWithRetry_leaves attempts stored (by simpa using passed.exit) dense ?_
        (by simpa using numbered)
      refine standing_forward (by simp) ?_
      rw [ahead.position]
      exact passed.position
  · refine of_runs ?_ runs allowed.call.recordable
    simp only [durableCallWithRetry, caught.forward, Bool.false_eq_true, if_false]
    refine ensures_unlessStopped dense (.inl (.inl rfl)) ?_
    split
    · exact silent dense silent_nil (.inl ⟨by simp, ⟨false, .inr ⟨rfl, [], by simp,
        .inr ⟨rfl, rfl, .inr rfl⟩⟩⟩, .inr caught⟩)
    · exact freshCallWithRetry_leaves (by simp) stored (by simpa using caught) dense rfl
        caught.position

end Retry

/-- A call with heartbeats owns the rows of its heartbeats and of its call. -/
def heartbeatFormat (before : Standing) (service operation : String) (buffer : OutBuf) :
    Format where
  Block reply recorded block after := after = before.forward block.length ∧
    ∃ beats row, block = beats ++ [row] ∧ (∀ beat ∈ beats, beat.eventType = .heartbeat) ∧
      CallRow service operation row ∧ row.pending = false ∧
      (recorded = true ∧ reply = recordedReply buffer row ∨
        recorded = false ∧ Unexplained buffer reply)
  Tail tail := tail ≠ [] ∧ ∀ beat ∈ tail, beat.eventType = .heartbeat

/-- The circumstances in which a call with heartbeats returns what it has returned before.
Its events are persisted. If it has returned, it did not fail without a text. It is not
resumed among its heartbeats. -/
@[mk_iff] structure HeartbeatAllowed (buffer : OutBuf) (known : Option Reply) (s : ExecSession)
    (trace : Trace) : Prop where
  recordable : ∀ observed ∈ trace, Recordable observed
  explained : ∀ reply ∈ known, ¬ Unexplained buffer reply
  finished : s.isReplay = true → s.remaining ≠ [] →
    ∃ row ∈ s.remaining, row.eventType ≠ .heartbeat

instance (buffer : OutBuf) (known : Option Reply) (s : ExecSession) (trace : Trace) :
    Decidable (HeartbeatAllowed buffer known s trace) :=
  decidable_of_iff' _ (heartbeatAllowed_iff ..)

section Heartbeat

variable {interval : Int}

section

variable (beats : ∀ beat ∈ tail, beat.eventType = .heartbeat)

include beats

/-- The rows of a call among its heartbeats. -/
theorem heartbeatFormat_unfinished :
    (heartbeatFormat before service operation buffer).Unfinished tail := by
  by_cases vacant : tail = []
  · exact .inl (.inl vacant)
  · exact .inl (.inr ⟨vacant, beats⟩)

variable (stored : engine.db = true) (caught : Caught s (rows ++ tail).length)
  (dense : Dense (rows ++ tail)) (stands : s.standing = before.forward tail.length)

include stored caught dense stands

/-- Recording heartbeats and going on.

Proof: by induction on the ticks; each adds its row to those of the ticks before it. -/
theorem beatHeart_leaves {next : Bool × ExecSession → Work Replied} (ticks : Nat)
    (goes : ∀ cancelled after beats, Caught after (rows ++ beats).length → Dense (rows ++ beats) →
      after.standing = before.forward beats.length →
      (∀ beat ∈ beats, beat.eventType = .heartbeat) →
      (next (cancelled, after)).Ensures Recordable
        (Leaves (heartbeatFormat before service operation buffer) rows beats))
    {cancelled : Bool} :
    (beatHeart engine service operation ticks cancelled s >>= next).Ensures Recordable
      (Leaves (heartbeatFormat before service operation buffer) rows tail) := by
  induction ticks generalizing s tail cancelled with
  | zero => exact goes cancelled s tail caught dense stands beats
  | succ ticks ih =>
    rw [beatHeart, bind_assoc]
    refine recordEvent_continues stored caught dense rfl rfl (fun _ _ _ usual => usual)
      (heartbeatFormat_unfinished beats) (by simp [heartbeatEvent])
      fun clockMs after recorded dense' => ?_
    have beaten : ∀ beat ∈ tail ++ [rowOf (stampEvent s (heartbeatEvent s.stepCount service
        operation) clockMs)], beat.eventType = .heartbeat :=
      forall_mem_append.mpr ⟨beats, forall_mem_singleton.mpr rfl⟩
    obtain ⟨standing, moved⟩ := recorded.behind caught stands _
    rw [bind_assoc]
    exact ensures_pollCancelled
      (silent dense' silent_nil (heartbeatFormat_unfinished beaten))
      fun polled polls silent => ensures_after polls silent
        (ih beaten (by rwa [length_append]) dense' standing)

/-- Recording the result of a call with heartbeats completes its rows. -/
theorem finishHeartbeat_leaves (result : ServiceAnswer) (cancelled : Bool) :
    (finishHeartbeat engine s service operation request result cancelled buffer).Ensures Recordable
      (Leaves (heartbeatFormat before service operation buffer) rows tail) := by
  have finished : ∀ (reply : Reply) (row : EventRecord) (after : ExecSession), Recorded s after →
      CallRow service operation row → row.pending = false →
      (reply = recordedReply buffer row ∨ Unexplained buffer reply) →
      (heartbeatFormat before service operation buffer).Ends rows.length (tail ++ [row])
        (some (reply, after)) := by
    intro reply row after recorded owned complete replied
    obtain ⟨standing, moved⟩ := recorded.behind caught stands row
    rcases replied with rfl | ⟨code, rfl⟩
    · exact .inl ⟨by simp, ⟨true, standing, tail, row, rfl, beats, owned, complete,
        .inl ⟨rfl, rfl⟩⟩, .inr moved⟩
    · exact .inl ⟨by simp, ⟨false, standing, tail, row, rfl, beats, owned, complete,
        .inr ⟨rfl, code, rfl⟩⟩, .inr moved⟩
  cases result with
  | ok response =>
    refine recordEvent_leaves stored caught dense rfl rfl (fun _ _ _ usual => usual)
      (heartbeatFormat_unfinished beats)
      (fun after => (callSucceeded buffer (bytesOf response), after)) (fun _ _ => rfl) fun clockMs after recorded =>
        finished _ _ after recorded ⟨rfl, rfl, rfl⟩ rfl (.inl ?_)
    simp [recordedReply, rowOf, stampEvent, callEvent, Except.isOk, Except.toBool, outcomeErr,
      outcomeResponse]
  | error failure =>
    refine recordEvent_leaves stored caught dense rfl rfl (fun _ _ _ usual => usual)
      (heartbeatFormat_unfinished beats) (fun after => (callFailed buffer (bytesOf
      (if cancelled && !(Except.error failure : ServiceAnswer).isOk then
        cancelledCallError else outcomeErr (.error failure)))
      (recordedFailureCode (cancelled && !(Except.error failure :
        ServiceAnswer).isOk)), after)) (fun _ _ => rfl)
      fun clockMs after recorded =>
        finished _ _ after recorded ⟨rfl, rfl, rfl⟩ rfl (failedReply_eq _ _ _ rfl rfl)

end

/-- Executing a call with heartbeats. -/
theorem freshCallWithHeartbeat_leaves (stored : engine.db = true) (caught : Caught s rows.length)
    (dense : Dense rows) :
    (freshCallWithHeartbeat engine s service operation request interval buffer).Ensures Recordable
      (Leaves (heartbeatFormat s.standing service operation buffer) rows []) := by
  have whole : Dense (rows ++ []) := by simpa using dense
  have nothing : (heartbeatFormat s.standing service operation buffer).Unfinished [] :=
    .inl (.inl rfl)
  have sent : (Query.callService service operation request s.stepCount
      (if engine.idempotentCaller then some (durableCallIdempotencyKey engine engine.workflowID
        engine.workflowID s.stepCount) else none)).dispatchStep = some rows.length := by
    simp [caught.position]
  refine ⟨.silent whole silent_nil nothing, fun result _ => ?_⟩
  refine Program.Ensures.mono ?_ fun trace outcome leaves => .sent sent rfl leaves
  split
  · exact ⟨.silent whole silent_nil nothing, fun never => never.elim⟩
  · refine ⟨.silent whole silent_nil nothing, fun ticks _ => ?_⟩
    refine Leaves.ensures_after [_] (by simp) ?_
    refine beatHeart_leaves (by simp) stored (by simpa using caught) whole rfl ticks ?_
    intro cancelled after beats caught' dense' stands kinds
    exact finishHeartbeat_leaves kinds stored caught' dense' stands result cancelled

/-- Recorded heartbeats are consumed up to the next record of another kind. -/
theorem replayHeartbeats_beats {beats rest : History}
    (kinds : ∀ beat ∈ beats, beat.eventType = .heartbeat)
    (other : ∀ row ∈ rest.head?, row.eventType ≠ .heartbeat) :
    replayHeartbeats engine (beats ++ rest) s = advanceAll engine s beats := by
  induction beats generalizing s with
  | nil =>
    cases rest with
    | nil => rfl
    | cons row rest => simp [replayHeartbeats, advanceAll, other row (by simp)]
  | cons beat beats ih =>
    have first : beat.eventType = .heartbeat := kinds beat (by simp)
    have later : replayHeartbeats engine (beats ++ rest) (advanceReplayStep engine s beat) =
        advanceAll engine (advanceReplayStep engine s beat) beats :=
      ih fun other member => kinds other (by simp [member])
    simp only [cons_append, replayHeartbeats, first, if_true]
    exact later

/-- A finished call with heartbeats is answered from its rows. -/
theorem durableCallWithHeartbeat_replays :
    (heartbeatFormat s.standing service operation buffer).ReplayedBy s (HeartbeatAllowed buffer · s)
      (durableCallWithHeartbeat engine s service operation request interval buffer) := by
  intro earlier block later reply recorded after known trace outcome _ ahead owns known_eq allowed
    runs
  obtain ⟨rfl, beats, row, rfl, kinds, owned, complete, ⟨rfl, rfl⟩ | ⟨rfl, silent⟩⟩ := owns
  · have remaining : s.remaining = beats ++ (row :: later) := by
      rw [ahead.remaining_eq]
      simp
    have passed : Ahead (advanceAll engine s beats) (earlier.length + beats.length)
        (row :: later) := by
      have regrouped : Ahead s earlier.length (beats ++ (row :: later)) := by simpa using ahead
      exact regrouped.advanceAll engine
    have replayed : durableCallWithHeartbeat engine s service operation request interval buffer =
        .done (recordedReply buffer row,
          advanceReplayStep engine (advanceAll engine s beats) row) := by
      have consumed : replayHeartbeats engine (beats ++ (row :: later)) s =
          advanceAll engine s beats := replayHeartbeats_beats kinds (by simp [owned.kind])
      simp [durableCallWithHeartbeat, replayCallWithHeartbeat, ahead.replaying, remaining, consumed,
        passed.lookup, owned.kind, owned.service, owned.operation, EventRecord.isPendingIntent,
        complete]
    have stepped := passed.advance engine
    refine Replays.at_once (by simpa [Nat.add_assoc] using stepped) replayed runs (by simp)
      (standing_forward (by simp) ?_)
    rw [stepped.position, ahead.position]
    simp [Nat.add_assoc]
  · exact absurd silent (allowed.explained reply (known_eq rfl))

/-- A call with heartbeats at the end of the rows leaves its own. -/
theorem durableCallWithHeartbeat_leaves (stored : engine.db = true) :
    (heartbeatFormat s.standing service operation buffer).LeftBy s (HeartbeatAllowed buffer none s)
      (durableCallWithHeartbeat engine s service operation request interval buffer) := by
  intro rows tail trace outcome dense place begun allowed runs
  obtain rfl : tail = [] := by
    rcases begun with vacant | ⟨nonempty, beats⟩
    · exact vacant
    · rcases place with ahead | ⟨vacant, _⟩
      · have remaining : s.remaining = tail := ahead.remaining_eq
        obtain ⟨row, member, other⟩ := allowed.finished ahead.replaying (by rwa [remaining])
        exact absurd (beats row (remaining ▸ member)) other
      · exact vacant
  rw [append_nil] at dense
  refine of_runs ?_ runs allowed.recordable
  rcases place with ahead | ⟨_, caught⟩
  · have remaining : s.remaining = [] := ahead.remaining_eq
    simp only [durableCallWithHeartbeat, replayCallWithHeartbeat, ahead.replaying, if_true,
      remaining, replayHeartbeats, ahead.lookup_end]
    exact freshCallWithHeartbeat_leaves stored ahead.exit dense
  · simp only [durableCallWithHeartbeat, caught.forward, Bool.false_eq_true, if_false]
    exact ensures_unlessStopped (by simpa using dense) (.inl (.inl rfl))
      (freshCallWithHeartbeat_leaves stored caught dense)

end Heartbeat

end Cleat
