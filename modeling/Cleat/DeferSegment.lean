import Cleat.GuestCalls
import Cleat.WriteAhead

/-!
# Defer segments

A defer segment runs the cleanup of a workflow that has ended. The workflow's body is executed
once more to rebuild its state, and must not start anything: a call past the end of the recorded
history is to return the stop word.

Every call makes this check when its session has left replay. The first call past the end of the
history still finds a session that replays. Calls that leave replay and then make the check are
refused there as well, and calls that leave replay on the way into their fresh half are not.
-/
namespace Cleat

/-- When a call asks whether new work may start. -/
inductive StartCheck where
  | never | outsideReplay | pastReplay
deriving DecidableEq, Repr

/-- Some calls ask after they have left replay, others only when they find that the session does
not replay. -/
def GuestCall.startCheck : GuestCall → StartCheck
  | .durableSend .. | .durableScheduleInvoke .. | .scheduleCron .. | .childWorkflow ..
  | .host (.signalWorkflow ..) | .host (.durableAwaitSignals ..) => .pastReplay
  | .host (.durableCall ..) | .host (.durableCallWithRetry ..)
  | .host (.durableCallWithHeartbeat ..) | .host (.sideEffect ..) | .pluginCall ..
  | .pluginCallStreaming .. | .acquireLock .. => .outsideReplay
  | _ => .never

/-- The reply to a start whose close policy is not known, which is reported in every segment. -/
def GuestCall.refusal (engine : Engine) : GuestCall → Reply
  | .childWorkflow child buffer =>
    if validParentClosePolicy child.parentClosePolicy then suspendReply
    else simpleFailedWith buffer (bytesOf (s!"child workflow {engine.quoteString child.name}: " ++
      engine.parentClosePolicyError child.parentClosePolicy)) 4
  | _ => suspendReply

/-- The call is over before it has asked anything: nothing is sent, stored or recorded. -/
def EndsAtOnce (work : Work Replied) (reply : Reply) (s : ExecSession) : Prop :=
  work = .done (reply, exitReplay s)

theorem stopBeforeNewWork_deferred {engine : Engine} {s : ExecSession}
    (deferred : engine.mayStart s = false) : stopBeforeNewWork engine s = .done true := by
  have stopped : (engine.deferPhase && !s.inDeferDrain) = true := by
    simpa only [Engine.mayStart, Bool.not_eq_false'] using deferred
  rw [stopBeforeNewWork, if_pos stopped]
  rfl

/-- In a defer segment that does not drain its defers, a call past the end of the history neither
asks nor records anything and returns the stop word, once the session has left replay; calls that
make the check after they have left replay do so in every session. A start with an unknown close
policy reports that instead.

Proof: the check answers without asking, so each call reduces to its refusal. -/
theorem defer_segment_starts_nothing {engine : Engine} {s : ExecSession}
    (deferred : engine.deferPhase = true) (undrained : s.inDeferDrain = false)
    (past : s.history.length ≤ s.stepCount) (call : GuestCall)
    (checked : call.startCheck = .pastReplay ∨
      call.startCheck = .outsideReplay ∧ s.isReplay = false) :
    EndsAtOnce (call.execute engine s) (call.refusal engine) s := by
  have mayNot : engine.mayStart s = false := by simp [Engine.mayStart, deferred, undrained]
  have ended : s.current = none := List.getElem?_eq_none past
  have stopped := stopBeforeNewWork_deferred mayNot
  have stoppedLate : stopBeforeNewWork engine (exitReplay s) = .done true :=
    stopBeforeNewWork_deferred mayNot
  unfold EndsAtOnce
  cases replaying : s.isReplay with
  | false =>
    have left : exitReplay s = s := by rw [exitReplay, ← replaying]
    rw [left]
    rcases call with ⟨_ | _⟩ | _ <;> simp [GuestCall.startCheck] at checked <;>
      simp [GuestCall.execute, HostCall.execute, GuestCall.refusal, replaying, stopped, durableCall,
        durableCallWithRetry, durableCallWithHeartbeat, pluginCall, pluginCallStreaming,
        sideEffect, acquireLock, durableSend, durableScheduleInvoke, sendInBackground,
        scheduleCron, beginScheduleCron, childWorkflow, beginChildWorkflow, signalWorkflow,
        beginSignalWorkflow, durableAwaitSignals, freshAwaitSignals]
    -- What is left is the start of a child, by whether its close policy is known.
    split <;> simp_all
  | true =>
    rcases call with ⟨_ | _⟩ | _ <;> simp [GuestCall.startCheck, replaying] at checked <;>
      simp [GuestCall.execute, HostCall.execute, GuestCall.refusal, replaying, ended, stoppedLate,
        durableSend, durableScheduleInvoke, sendInBackground, scheduleCron, beginScheduleCron,
        childWorkflow, beginChildWorkflow, signalWorkflow, beginSignalWorkflow, durableAwaitSignals,
        freshAwaitSignals]
    split <;> simp_all

/-- A session at the end of a history of one event, which it was resumed from. -/
def endedSession : ExecSession :=
  { history := [callEvent 0 "svc" "first" "" "done" ""], stepCount := 1, isReplay := true, nowMs := 0 }

/-- An engine that runs a defer segment. -/
def deferEngine : Engine := { deferPhase := true }

theorem defer_segment_refuses_lock :
    EndsAtOnce ((GuestCall.acquireLock "key" 1000).execute deferEngine (exitReplay endedSession))
      suspendReply (exitReplay endedSession) :=
  defer_segment_starts_nothing rfl rfl (by decide) (.acquireLock "key" 1000) (.inr ⟨rfl, rfl⟩)

/-- The first service call past the end of the history, as a defer segment runs it. -/
def firstCallRun : Trace × Option Replied :=
  ((GuestCall.host (.durableCall "svc" "op" "" roomy)).execute deferEngine endedSession).run
    (List.replicate 9 ({} : Surroundings).answer)

/-- The first service call past the end of the history is sent and recorded, and a start with an
unknown close policy does not return the stop word. -/
theorem first_call_past_history_is_sent :
    endedSession.history.length ≤ endedSession.stepCount ∧ endedSession.inDeferDrain = false ∧
      (firstCallRun.1.any fun observed => observed.query.dispatchStep.isSome) = true ∧
      (firstCallRun.1.any fun observed => observed.query.isWrite) = true ∧
      firstCallRun.2.map Prod.fst ≠ some suspendReply ∧
      ((GuestCall.childWorkflow ⟨"child", "", 0, 0, "abandon"⟩ roomy).execute deferEngine
        endedSession).run [] ≠ ([], some (suspendReply, exitReplay endedSession)) := by
  refine ⟨by decide, rfl, by decide +kernel, by decide +kernel, by decide +kernel,
    fun same => ?_⟩
  have replies := congrArg (fun run => run.2.map Prod.fst) same
  revert replies
  decide +kernel

end Cleat
