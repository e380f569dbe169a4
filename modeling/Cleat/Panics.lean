import Cleat.Updates
import Cleat.WriteAhead

/-!
# Arguments that make the host fail

Three calls use what the guest has passed to them without a check. A policy that has no attempt
left ends with the error of an attempt that was never made. A ticker is made of an interval, which
must be positive. A key is cut at a length that is read from the key itself.

For each of the calls this module says in which sessions and with which arguments the host fails
for some answers of its surroundings. Before it fails it has asked what it asks in other cases too:
a call with heartbeats has already sent its request.
-/
namespace Cleat

open Durable.Program

/-- The host does not fail, whatever it is answered. -/
abbrev NeverPanics {α : Type} (work : Work α) : Prop :=
  work.Every fun query => query.panics = false

section

variable {engine : Engine} {s : ExecSession} {service operation request : String}
  {policy : RetryPolicy} {buffer : OutBuf}

/-- Whether new work may start is asked first. -/
theorem neverPanics_start_iff {fresh : Work Replied} :
    NeverPanics (stopBeforeNewWork engine s >>= fun stop =>
        if stop then pure (suspendReply, s) else fresh) ↔
      (engine.mayStart s = true → NeverPanics fresh) := by
  unfold stopBeforeNewWork Engine.mayStart
  cases engine.deferPhase && !s.inDeferDrain with
  | true => exact iff_of_true (every_pure _) nofun
  | false =>
    refine ⟨fun never _ => never.2 false, fun never => ⟨rfl, fun stop => ?_⟩⟩
    cases stop with
    | true => exact every_pure _
    | false => exact never rfl

/-- The attempts of a policy end in an error unless there are none. -/
theorem freshCallWithRetry_neverPanics_iff {spent : Nat} {resumeStep : Option Nat} :
    NeverPanics (freshCallWithRetry engine s service operation request policy buffer spent
        resumeStep) ↔
      ¬((nonRetryableCodes engine policy).isSome = true ∧
        engine.allowedAttempts policy.maxAttempts ≤ spent) := by
  unfold freshCallWithRetry
  cases nonRetryableCodes engine policy with
  | none => exact iff_of_true (every_pure _) (by simp)
  | some codes =>
    dsimp only
    cases left : (engine.allowedAttempts policy.maxAttempts - spent).toNat with
    | zero =>
      refine iff_of_false (fun never => ?_) (not_not.mpr ⟨rfl, by omega⟩)
      cases never.1
    | succ left =>
      refine iff_of_true ?_ fun ⟨_, spent⟩ => by omega
      exact retryAttempts_every engine (fun _ _ quiet => quiet) (fun _ _ => rfl) _ _ _ _ _ _
        (fun none => absurd none (Nat.succ_ne_zero _)) ..

/-- The policy comes to be run and has no attempt left. -/
def RunsOut (engine : Engine) (s : ExecSession) (service operation : String)
    (policy : RetryPolicy) : Prop :=
  engine.mayStart s = true ∧ (nonRetryableCodes engine policy).isSome = true ∧
    if s.isReplay then
      s.remaining ≠ [] ∧
        s.remaining.all (EventRecord.isAttemptOf service operation) = true ∧
        engine.allowedAttempts policy.maxAttempts ≤ s.remaining.length
    else
      retryPolicyFitsBudget engine policy engine.hostRetryBudget = true ∧
        engine.allowedAttempts policy.maxAttempts ≤ 0

/-- The loop over the attempts panics when it is entered with none left. -/
theorem durableCallWithRetry_neverPanics_iff :
    NeverPanics (durableCallWithRetry engine s service operation request policy buffer) ↔
      ¬RunsOut engine s service operation policy := by
  unfold durableCallWithRetry RunsOut
  cases s.isReplay with
  | false =>
    simp only [Bool.false_eq_true, if_false]
    rw [neverPanics_start_iff]
    by_cases fits : retryPolicyFitsBudget engine policy engine.hostRetryBudget = true
    · simp only [fits, Bool.not_true, Bool.false_eq_true, if_false,
        freshCallWithRetry_neverPanics_iff]
      simp
    · simp only [fits]
      exact iff_of_true (fun _ => every_pure _) (by simp)
  | true =>
    obtain ⟨resumes, counts, may⟩ := replayRetryAttempts_found engine s service operation
    generalize replayRetryAttempts engine service operation s.remaining
      ⟨s, 0, none, false⟩ = found at resumes counts may ⊢
    simp only [if_true]
    cases resumed : found.resume with
    | false =>
      refine iff_of_true ?_ fun ⟨_, _, left, all, _⟩ => ?_
      · exact replayCall_every engine (fun _ _ quiet => quiet) (fun _ _ => rfl) ..
      · rw [resumes.mpr ⟨all, left⟩] at resumed
        cases resumed
    | true =>
      obtain ⟨all, left⟩ := resumes.mp resumed
      simp only [Bool.not_true, Bool.false_eq_true, if_false]
      rw [neverPanics_start_iff, freshCallWithRetry_neverPanics_iff, counts all, may]
      simp [all, left]

variable {intervalMs : Int}

/-- A ticker is made of a positive interval only. -/
theorem freshCallWithHeartbeat_neverPanics_iff :
    NeverPanics (freshCallWithHeartbeat engine s service operation request intervalMs buffer) ↔
      ¬durationOfMs intervalMs ≤ 0 := by
  constructor
  · intro never stopped
    have panics := never.2 (.ok "")
    dsimp only [andThen] at panics
    rw [if_pos stopped] at panics
    cases panics.1
  · intro ticking
    unfold freshCallWithHeartbeat finishHeartbeat callService
    simp only [ticking, if_false]
    repeat' first
      | with_reducible exact every_pure ..
      | with_reducible exact every_ask rfl
      | with_reducible exact recordEvent_every engine (fun _ _ quiet => quiet) ..
      | with_reducible exact beatHeart_every engine (fun _ _ quiet => quiet) ..
      | with_reducible refine .bind ?_ fun _ => ?_
      | split

/-- The call comes to make a ticker. In a replay it does not ask whether new work may start. -/
def Ticks (engine : Engine) (s : ExecSession) : Prop :=
  if s.isReplay then
    s.remaining.all (fun record => record.eventType = .heartbeat) = true
  else engine.mayStart s = true

/-- A call that is answered from the history makes no ticker. -/
theorem durableCallWithHeartbeat_neverPanics_iff :
    NeverPanics (durableCallWithHeartbeat engine s service operation request intervalMs buffer) ↔
      ¬(Ticks engine s ∧ durationOfMs intervalMs ≤ 0) := by
  unfold durableCallWithHeartbeat Ticks
  cases s.isReplay with
  | false =>
    simp only [Bool.false_eq_true, if_false]
    rw [neverPanics_start_iff, freshCallWithHeartbeat_neverPanics_iff, not_and]
  | true =>
    simp only [if_true, replayCallWithHeartbeat]
    rw [← @replayHeartbeats_end engine s, not_and]
    split
    · rename_i ended
      rw [freshCallWithHeartbeat_neverPanics_iff]
      simp only [ended, true_implies]
    · rename_i record found
      refine iff_of_true ?_ (by simp [found])
      exact .ite (every_pure _) (.ite (every_pure _) (.ite (every_pure _) (every_pure _)))

variable {requestID result errMsg : String}

/-- The completion is not in the history, and the session may complete it. -/
def Completes (engine : Engine) (s : ExecSession) : Prop :=
  engine.mayStart s = true ∧
    (s.isReplay = true → ∀ record ∈ s.current, record.eventType ≠ .updateCompleted)

/-- The request id is split before anything of the completion is written. -/
theorem freshCompleteUpdate_neverPanics_iff :
    NeverPanics (freshCompleteUpdate engine s requestID result errMsg) ↔
      (engine.mayStart s = true → splitPanics (bytesOf requestID) = false) := by
  unfold freshCompleteUpdate
  rw [neverPanics_start_iff]
  refine imp_congr_right fun _ => ?_
  cases splitPanics (bytesOf requestID) with
  | true =>
    refine iff_of_false (fun never => ?_) nofun
    cases never.1
  | false =>
    refine iff_of_true ?_ rfl
    simp only [Bool.false_eq_true, if_false, settleUpdate]
    repeat' first
      | with_reducible exact every_pure ..
      | with_reducible exact every_ask rfl
      | with_reducible exact recordEvent_every engine (fun _ _ quiet => quiet) ..
      | with_reducible refine .bind ?_ fun _ => ?_
      | split

/-- A completion that the history has splits no request id. -/
theorem durableCompleteUpdate_neverPanics_iff :
    NeverPanics (durableCompleteUpdate engine s requestID result errMsg) ↔
      ¬(Completes engine s ∧ splitPanics (bytesOf requestID) = true) := by
  have may : engine.mayStart (exitReplay s) = engine.mayStart s := rfl
  unfold durableCompleteUpdate Completes
  cases s.isReplay with
  | false =>
    simp only [Bool.false_eq_true, if_false]
    rw [freshCompleteUpdate_neverPanics_iff]
    simp
  | true =>
    simp only [if_true]
    cases s.current with
    | none =>
      simp only [freshCompleteUpdate_neverPanics_iff, may]
      simp
    | some record =>
      by_cases kind : record.eventType = .updateCompleted
      · simp only [kind, if_true]
        exact iff_of_true (every_pure _) (by simp [kind])
      · simp only [kind, if_false, freshCompleteUpdate_neverPanics_iff, may]
        simp [kind]

end

/-- The host does not fail, whatever it is answered, exactly if

* a policy that comes to be run has an attempt left,
* a call with heartbeats that comes to make a ticker has an interval that is positive as a
  duration of 64 bits, and
* the key of an update that comes to be completed does not claim a text that would end beyond the
  numbers of 64 bits. -/
theorem guest_arguments_panic_iff (engine : Engine) (s : ExecSession) :
    (∀ service operation request policy buffer,
        NeverPanics (durableCallWithRetry engine s service operation request policy buffer) ↔
          ¬RunsOut engine s service operation policy) ∧
      (∀ service operation request intervalMs buffer,
        NeverPanics (durableCallWithHeartbeat engine s service operation request intervalMs buffer) ↔
          ¬(Ticks engine s ∧ durationOfMs intervalMs ≤ 0)) ∧
      ∀ requestID result errMsg,
        NeverPanics (durableCompleteUpdate engine s requestID result errMsg) ↔
          ¬(Completes engine s ∧ splitPanics (bytesOf requestID) = true) :=
  ⟨fun _ _ _ _ _ => durableCallWithRetry_neverPanics_iff,
    fun _ _ _ _ _ => durableCallWithHeartbeat_neverPanics_iff,
    fun _ _ _ => durableCompleteUpdate_neverPanics_iff⟩

/-- A guest makes the host fail with a policy of no attempts, with an interval of nothing, and with
a key that claims a text as long as the largest number of 64 bits. -/
theorem guest_arguments_panic :
    ¬NeverPanics (durableCallWithRetry {} (Engine.openSession {} {} []) "svc" "op" ""
        ⟨0, 0, 100, 0, ""⟩ roomy) ∧
      ¬NeverPanics (durableCallWithHeartbeat {} (Engine.openSession {} {} []) "svc" "op" "" 0
        roomy) ∧
      ¬NeverPanics (durableCompleteUpdate {} (Engine.openSession {} {} [])
        "9223372036854775807:" "" "") := by
  rw [durableCallWithRetry_neverPanics_iff, durableCallWithHeartbeat_neverPanics_iff,
    durableCompleteUpdate_neverPanics_iff]
  refine ⟨not_not.mpr ⟨rfl, rfl, rfl, ?_⟩, not_not.mpr ⟨rfl, ?_⟩, not_not.mpr ⟨⟨rfl, nofun⟩, ?_⟩⟩
  · decide
  · decide
  · decide +kernel

end Cleat
