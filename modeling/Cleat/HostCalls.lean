import Cleat.Durable.Ledger
import Cleat.RetryReplay
import Cleat.SignalReplay
import Cleat.ScopeReplay

/-!
# The engine as a host

The host calls of the modelled part of the engine, the engine as a host of deterministic
guests, and the ledger that it keeps: the rows each call owns, and the condition under
which a call that has returned returns the same again.

A guest may make any of these calls in any order. A word with the suspend bit stops it
after every call, also after those whose Go wrapper does not test for that bit.
-/
namespace Cleat

open Durable

/-- A host call with its arguments. -/
inductive HostCall where
  | durableCall (service operation request : String) (buffer : OutBuf)
  | durableCallWithRetry (service operation request : String) (policy : RetryPolicy)
      (buffer : OutBuf)
  | durableCallWithHeartbeat (service operation request : String) (heartbeatIntervalMs : Int)
      (buffer : OutBuf)
  | sideEffect (computedResult : String) (buffer : OutBuf)
  | createPromise (name : String) (buffer : OutBuf)
  | awaitPromise (promiseID : String) (timeoutMs : Int) (buffer : OutBuf)
  | durableAwaitSignals (signalNames : String) (timeoutMs : Int)
      (nameBuffer payloadBuffer : OutBuf)
  | signalWorkflow (targetRunID signalName payload : String)
  | setScope (objectType instanceKey : String) (buffer : OutBuf)
deriving DecidableEq, Repr

/-- The kinds of host calls. -/
inductive CallKind where
  | durableCall | durableCallWithRetry | durableCallWithHeartbeat | sideEffect | createPromise
  | awaitPromise | durableAwaitSignals | signalWorkflow | setScope
deriving DecidableEq, Repr

namespace HostCall

def kind : HostCall → CallKind
  | .durableCall _ _ _ _ => .durableCall
  | .durableCallWithRetry _ _ _ _ _ => .durableCallWithRetry
  | .durableCallWithHeartbeat _ _ _ _ _ => .durableCallWithHeartbeat
  | .sideEffect _ _ => .sideEffect
  | .createPromise _ _ => .createPromise
  | .awaitPromise _ _ _ => .awaitPromise
  | .durableAwaitSignals _ _ _ _ => .durableAwaitSignals
  | .signalWorkflow _ _ _ => .signalWorkflow
  | .setScope _ _ _ => .setScope

/-- What the engine does for a call. -/
def execute (engine : Engine) (call : HostCall) (s : ExecSession) : Work Replied :=
  match call with
  | .durableCall service operation request buffer =>
    Cleat.durableCall engine s service operation request buffer
  | .durableCallWithRetry service operation request policy buffer =>
    Cleat.durableCallWithRetry engine s service operation request policy buffer
  | .durableCallWithHeartbeat service operation request interval buffer =>
    Cleat.durableCallWithHeartbeat engine s service operation request interval buffer
  | .sideEffect computedResult buffer => Cleat.sideEffect engine s computedResult buffer
  | .createPromise name buffer => Cleat.createPromise engine s name buffer
  | .awaitPromise promiseID timeoutMs buffer =>
    Cleat.awaitPromise engine s promiseID timeoutMs buffer
  | .durableAwaitSignals signalNames timeoutMs nameBuffer payloadBuffer =>
    Cleat.durableAwaitSignals engine s signalNames timeoutMs nameBuffer payloadBuffer
  | .signalWorkflow targetRunID signalName payload =>
    Cleat.signalWorkflow engine s targetRunID signalName payload
  | .setScope objectType instanceKey buffer =>
    Cleat.setScope engine s objectType instanceKey buffer

/-- The rows a call owns. -/
def format (engine : Engine) (before : Standing) : HostCall → Format
  | .durableCall service operation _ buffer => callFormat engine before service operation buffer
  | .durableCallWithRetry service operation _ _ buffer =>
    retryFormat engine before service operation buffer
  | .durableCallWithHeartbeat service operation _ _ buffer =>
    heartbeatFormat before service operation buffer
  | .sideEffect computedResult buffer => sideEffectFormat before computedResult buffer
  | .createPromise _ buffer => createPromiseFormat before buffer
  | .awaitPromise _ _ buffer => awaitPromiseFormat before buffer
  | .durableAwaitSignals _ timeoutMs nameBuffer payloadBuffer =>
    awaitSignalsFormat before timeoutMs nameBuffer payloadBuffer
  | .signalWorkflow _ _ _ => signalWorkflowFormat before
  | .setScope objectType instanceKey buffer => setScopeFormat before objectType instanceKey buffer

/-- The condition on each kind of call under which it returns what it has returned before,
if it has. Awaits on promises and scopes need the store that they ask. -/
def Repeatable (engine : Engine) (known : Option Reply) (call : HostCall) (s : ExecSession)
    (trace : Trace) : Prop :=
  match call with
  | .durableCall service operation _ buffer =>
    CallAllowed engine service operation buffer known s trace
  | .durableCallWithRetry service operation _ _ buffer =>
    RetryAllowed engine service operation buffer known s trace
  | .durableCallWithHeartbeat _ _ _ _ buffer => HeartbeatAllowed buffer known s trace
  | .sideEffect _ _ => ∀ observed ∈ trace, Durably observed
  | .createPromise _ _ => CreatePromiseAllowed known trace
  | .awaitPromise _ _ _ => engine.promiseStore = true ∧ AwaitPromiseAllowed known s trace
  | .durableAwaitSignals _ timeoutMs _ _ => AwaitSignalsAllowed engine timeoutMs known s trace
  | .signalWorkflow _ _ _ => (∀ observed ∈ trace, Durably observed) ∧
      known ≠ some ⟨errSignalAuthRequired, []⟩
  | .setScope objectType instanceKey _ =>
    engine.concurrencyKeyStore = true ∧ ScopeAllowed objectType instanceKey s trace

instance (engine : Engine) (known : Option Reply) (call : HostCall) (s : ExecSession)
    (trace : Trace) : Decidable (Repeatable engine known call s trace) := by
  unfold Repeatable
  split <;> infer_instance

def observesShutdown : Observed → Bool
  | ⟨.shutdownObserved, answer⟩ => answer
  | _ => true

/-- A worker that is asked whether it shuts down says that it does. -/
def ObservesShutdown (observed : Observed) : Prop := observesShutdown observed = true

instance : DecidablePred ObservesShutdown :=
  fun observed => inferInstanceAs (Decidable (observesShutdown observed = true))

/-- The condition under which a call that is made in a suspended session comes to nothing:
the worker shuts down, and the call asks for that. An await on signals asks for the
suspension itself, and three calls ask for neither. -/
def Stops (call : HostCall) (s : ExecSession) (trace : Trace) : Prop :=
  s.isReplay = false ∧
    match call.kind with
    | .durableCall | .durableCallWithRetry | .durableCallWithHeartbeat | .sideEffect
    | .signalWorkflow => ∀ observed ∈ trace, ObservesShutdown observed
    | .durableAwaitSignals => s.inDeferDrain = false
    | .createPromise | .awaitPromise | .setScope => False

instance (call : HostCall) (s : ExecSession) (trace : Trace) :
    Decidable (Stops call s trace) := by
  unfold Stops
  cases call.kind <;> infer_instance

/-- The condition on a call: it is repeatable, or comes to nothing if its session has
already been suspended. -/
@[mk_iff] structure Allowed (engine : Engine) (known : Option Reply) (call : HostCall)
    (s : ExecSession) (trace : Trace) : Prop where
  repeatable : s.suspendErr = none → Repeatable engine known call s trace
  stops : s.suspendErr ≠ none → Stops call s trace

instance (engine : Engine) (known : Option Reply) (call : HostCall) (s : ExecSession)
    (trace : Trace) : Decidable (Allowed engine known call s trace) :=
  decidable_of_iff' _ (allowed_iff ..)

/-- What is known of a call that was answered from its rows between two standings. It sends
no request, and a signal's call moves past its row. -/
structure Answered (before : Standing) (call : HostCall) (after : Standing)
    (trace : Trace) : Prop where
  undispatched : Undispatched trace
  advanced : call.kind = .signalWorkflow → before.stepCount < after.stepCount

/-- What is known of a call that was executed over the given rows from the given standing.
Its requests are sent for the step it began at. If it made a call event durable, the rows
reach beyond that step, and an ordinary call sends a request only if they do not. A signal
is sent only behind the last row. -/
structure Executed (rows : History) (before : Standing) (call : HostCall)
    (trace : Trace) : Prop where
  dispatched : DispatchedAt before.stepCount trace
  dense : Dense (writes rows trace)
  written : WritesCallEvent trace → before.stepCount < (writes rows trace).length
  unwritten : call.kind = .durableCall → before.stepCount < rows.length → Undispatched trace
  unsent : call.kind = .signalWorkflow → rows.length ≤ before.stepCount

/-- A call's block ends as many steps further as it has rows. -/
theorem format_stepCount {engine : Engine} {before after : Standing} {call : HostCall}
    {reply : Reply} {recorded : Bool} {block : History}
    (owns : (call.format engine before).Block reply recorded block after) :
    after.stepCount = before.stepCount + block.length := by
  have single : ∀ {service operation buffer},
      (callFormat engine before service operation buffer).Block reply recorded block after →
      after.stepCount = before.stepCount + block.length := by
    rintro service operation buffer (⟨row, rfl, _, rfl, _⟩ | ⟨rfl, _, rfl, _⟩) <;> rfl
  cases call with
  | durableCall => exact single owns
  | durableCallWithRetry =>
    rcases owns with call | ⟨rfl, _⟩
    · exact single call
    · rfl
  | durableCallWithHeartbeat | awaitPromise | durableAwaitSignals => exact congrArg _ owns.1
  | sideEffect =>
    obtain ⟨row, rfl, _, _, _, _, rfl⟩ := owns
    rfl
  | createPromise =>
    obtain ⟨row, rfl, _, rfl, _⟩ := owns
    rfl
  | signalWorkflow =>
    rcases owns with ⟨row, rfl, _, _, _, rfl⟩ | ⟨rfl, _, _, rfl⟩ <;> rfl
  | setScope =>
    obtain ⟨_, _, owned⟩ := owns
    split at owned
    · obtain ⟨rfl, rfl⟩ := owned
      simp
    · obtain ⟨rfl, _⟩ := owned
      simp [Standing.forward]

section Obligations

variable {engine : Engine} {call : HostCall} {s : ExecSession} {trace : Trace}
  {outcome : Option Replied}

variable {block rows : History} {reply : Reply} {recorded : Bool} {after : Standing}
  {known : Option Reply}

/-- A finished call is answered from its rows. -/
theorem replays (stored : engine.db = true) : (call.format engine s.standing).ReplayedBy s
    (Repeatable engine · call s) (call.execute engine s) := by
  cases call with
  | durableCall => exact durableCall_replays
  | durableCallWithRetry => exact durableCallWithRetry_replays
  | durableCallWithHeartbeat => exact durableCallWithHeartbeat_replays
  | sideEffect => exact sideEffect_replays
  | createPromise => exact createPromise_replays
  | awaitPromise => exact awaitPromise_replays stored
  | durableAwaitSignals => exact durableAwaitSignals_replays
  | signalWorkflow => exact signalWorkflow_replays
  | setScope => exact setScope_replays stored

/-- A signal that has been sent moves past its row, and one that was refused is not
replayed. -/
theorem advanced {before : Standing}
    (owns : (call.format engine before).Block reply recorded block after)
    (known_eq : recorded = false → known = some reply)
    (repeatable : Repeatable engine known call s trace) (signal : call.kind = .signalWorkflow) :
    before.stepCount < after.stepCount := by
  cases call with
  | signalWorkflow targetRunID signalName payload =>
    rcases owns with ⟨row, rfl, _, _, _, rfl⟩ | ⟨_, rfl, rfl, _⟩
    · exact Nat.lt_succ_self _
    · exact absurd (known_eq rfl) repeatable.2
  | _ => cases signal

/-- A finished call that owns no row is answered again in a session that has none left. -/
theorem idles (caught : Caught s rows.length)
    (owns : (call.format engine s.standing).Block reply recorded [] after)
    (known_eq : recorded = false → known = some reply)
    (repeatable : Repeatable engine known call s trace)
    (runs : (call.execute engine s).Runs trace outcome) :
    Silent trace ∧ ∀ reply' session, outcome = some (reply', session) →
      reply' = reply ∧ reply'.suspends = false ∧ session.standing = after ∧
        Caught session rows.length := by
  cases call with
  | durableCall =>
    obtain ⟨_, ⟨⟩, _⟩ | ⟨_, rfl, _, refused⟩ := owns
    exact absurd refused (repeatable.accepted reply (known_eq rfl))
  | durableCallWithRetry =>
    rcases owns with (⟨_, ⟨⟩, _⟩ | ⟨_, rfl, _, refused⟩) | ⟨_, attempts, _,
      ⟨row, impossible, _⟩ | ⟨_, rfl, rejected⟩⟩
    · exact absurd refused (repeatable.call.accepted reply (known_eq rfl))
    · simp at impossible
    · exact absurd rejected (repeatable.ran reply (known_eq rfl))
  | durableCallWithHeartbeat =>
    obtain ⟨_, beats, row, impossible, _⟩ := owns
    simp at impossible
  | sideEffect | createPromise =>
    obtain ⟨_, ⟨⟩, _⟩ := owns
  | awaitPromise =>
    obtain ⟨_, ⟨_, ⟨⟩, _⟩ | ⟨_, _, ⟨⟩, _⟩ | ⟨_, ⟨⟩, _⟩⟩ := owns
  | durableAwaitSignals =>
    obtain ⟨rfl, ⟨_, ⟨⟩, _⟩ | ⟨_, _, ⟨⟩, _⟩ | ⟨_, ⟨⟩, _⟩ | ⟨_, rfl, waitless, rfl⟩⟩ := owns
    obtain ⟨_, ordinary, missing⟩ := AwaitSignalsAllowed.missed repeatable (known_eq rfl) waitless
    obtain ⟨silent, answers⟩ :=
      durableAwaitSignals_missed (.inr caught) ordinary waitless missing runs
    refine ⟨silent, fun reply' session given => ?_⟩
    obtain ⟨rfl, stands, moved⟩ := answers reply' session given
    exact ⟨rfl, by simp, stands, moved⟩
  | signalWorkflow =>
    obtain ⟨_, ⟨⟩, _⟩ | ⟨_, rfl, rfl, _⟩ := owns
    exact absurd (known_eq rfl) repeatable.2
  | setScope objectType instanceKey buffer =>
    obtain ⟨_, rfl, owned⟩ := owns
    split at owned
    · rename_i clearing
      obtain ⟨_, rfl⟩ := owned
      obtain ⟨silent, answers⟩ := setScope_clear_caught clearing runs caught
      refine ⟨silent, fun reply' session given => ?_⟩
      obtain ⟨rfl, stands, moved⟩ := answers reply' session given
      exact ⟨rfl, by simp, stands, moved⟩
    · obtain ⟨_, ⟨_, ⟨⟩, _⟩ | ⟨_, _, ⟨⟩, _⟩⟩ := owned

/-- A call at the end of the rows leaves its own. An ordinary call that has begun sends no
request. -/
theorem leaves {tail : History} (stored : engine.db = true) (dense : Dense (rows ++ tail))
    (place : Ahead s rows.length tail ∨ tail = [] ∧ Caught s rows.length)
    (begun : tail = [] ∨ (call.format engine s.standing).Tail tail)
    (repeatable : Repeatable engine none call s trace)
    (runs : (call.execute engine s).Runs trace outcome) :
    Leaves (call.format engine s.standing) rows tail trace outcome ∧
      (call.kind = .durableCall → tail ≠ [] → Undispatched trace) := by
  cases call with
  | durableCall service operation request buffer =>
    obtain ⟨left, quiet⟩ := durableCall_leaves stored dense place begun repeatable runs
    exact ⟨left, fun _ => quiet⟩
  | durableCallWithRetry =>
    exact ⟨durableCallWithRetry_leaves stored dense place begun repeatable runs, nofun⟩
  | durableCallWithHeartbeat =>
    exact ⟨durableCallWithHeartbeat_leaves stored dense place begun repeatable runs, nofun⟩
  | sideEffect => exact ⟨sideEffect_leaves stored dense place begun repeatable runs, nofun⟩
  | createPromise => exact ⟨createPromise_leaves stored dense place begun repeatable runs, nofun⟩
  | awaitPromise => exact ⟨awaitPromise_leaves stored dense place begun repeatable runs, nofun⟩
  | durableAwaitSignals =>
    exact ⟨durableAwaitSignals_leaves stored dense place begun repeatable runs, nofun⟩
  | signalWorkflow => exact ⟨signalWorkflow_leaves stored dense place begun repeatable.1 runs, nofun⟩
  | setScope => exact ⟨setScope_leaves stored dense place begun repeatable runs, nofun⟩

/-- Nothing is written or sent, and the guest is told to stop. -/
def StopsGuest (trace : Trace) (outcome : Option Replied) : Prop :=
  Silent trace ∧ ∀ reply after, outcome = some (reply, after) → reply.suspends = true

/-- A call that must not start work asks at most for that, and stops the guest. -/
theorem ensures_stopped {fresh : Work Replied} :
    (stopBeforeNewWork engine s >>= fun stop =>
      if stop then pure (suspendReply, s) else fresh).Ensures ObservesShutdown
      StopsGuest := by
  have stopped : ∀ asked, AsksToStop asked →
      StopsGuest asked (some (suspendReply, s)) := by
    intro asked asks
    refine ⟨asks.silent, fun reply after given => ?_⟩
    cases given
    simp
  unfold stopBeforeNewWork
  split
  · exact stopped [] (.inl rfl)
  · refine ⟨⟨silent_nil, by simp⟩, fun answer shutdown => ?_⟩
    obtain rfl : answer = true := shutdown
    exact stopped [⟨.shutdownObserved, true⟩] (.inr ⟨true, rfl⟩)

/-- A call that comes to nothing neither writes nor sends anything, and stops the guest. -/
theorem stops_silent (suspended : s.suspendErr ≠ none) (stops : Stops call s trace)
    (runs : (call.execute engine s).Runs trace outcome) : StopsGuest trace outcome := by
  obtain ⟨forward, stops⟩ := stops
  cases call with
  | durableCall | durableCallWithRetry | durableCallWithHeartbeat | sideEffect | signalWorkflow =>
    refine Program.Ensures.of_runs ?_ runs stops
    simp only [execute, Cleat.durableCall, Cleat.durableCallWithRetry, Cleat.sideEffect,
      Cleat.durableCallWithHeartbeat, Cleat.signalWorkflow, beginSignalWorkflow, forward,
      Bool.false_eq_true, if_false]
    exact ensures_stopped
  | durableAwaitSignals signalNames timeoutMs nameBuffer payloadBuffer =>
    have undrained : s.inDeferDrain = false := stops
    have halts : ((HostCall.durableAwaitSignals signalNames timeoutMs nameBuffer
        payloadBuffer).execute engine s).Always StopsGuest := by
      simp only [execute, Cleat.durableAwaitSignals, freshAwaitSignals, forward, undrained,
        Option.isSome_iff_ne_none.mpr suspended, Bool.not_false, Bool.and_self,
        Bool.false_eq_true, if_false, if_true]
      refine ensures_stopBeforeNewWork ⟨silent_nil, by simp⟩ fun stop asked asks => ?_
      cases stop <;>
      · refine ⟨by simpa using asks.silent, fun reply after given => ?_⟩
        cases given
        simp
    exact halts.of_runs runs fun _ _ => trivial
  | createPromise | awaitPromise | setScope => exact stops.elim

end Obligations

end HostCall

/-- The engine as a host of deterministic guests. A suspended session is parked. -/
def engineHost (engine : Engine) :
    Host Query Answer HostCall Reply EventRecord ExecSession Opening where
  execute := HostCall.execute engine
  load := engine.openSession
  write := applyObserved
  suspends := Reply.suspends
  parked s := s.suspendErr.isSome

attribute [local simp] engineHost

section Ledger

variable {engine : Engine}

theorem Active.unparked {s : ExecSession} (active : Active s) :
    (engineHost engine).parked s = false := by
  simp [active.unsuspended]

/-- What a call leaves, as the ledger asks for it. -/
theorem Leaves.frontier {call : HostCall} {before : Standing} {rows tail : History} {trace : Trace}
    {outcome : Option Replied} (left : Leaves (call.format engine before) rows tail trace outcome)
    (quiet : call.kind = .durableCall → tail ≠ [] → Undispatched trace)
    (begun : tail = [] ∨ (call.format engine before).Tail tail)
    (placed : before.stepCount = rows.length) :
    call.Executed (rows ++ tail) before trace ∧
      ∃ written, (engineHost engine).writeAll (rows ++ tail) trace = rows ++ written ∧
        Dense (rows ++ written) ∧
        match (engineHost engine).answered outcome with
        | some (reply, after) =>
          (∃ recorded, (call.format engine before).Block reply recorded written after.standing) ∧
            (Ahead after (rows ++ written).length [] ∨ Caught after (rows ++ written).length)
        | none =>
          ((written = [] ∨ (call.format engine before).Tail written) ∨
            ∃ reply after, (call.format engine before).Block reply true written after) ∧
          ∀ reply after, (engineHost engine).returned outcome = some (reply, after) →
            ∀ known next later ending, HostCall.Allowed engine known next after later →
              (next.execute engine after).Runs later ending →
              Silent later ∧ (engineHost engine).Halts later ending := by
  obtain ⟨written, wrote, dense, owned, ends⟩ := left.left
  refine ⟨⟨placed ▸ left.dispatched, wrote ▸ dense, fun called => ?_, fun ordinary beyond => ?_,
    fun signal => ?_⟩, written, wrote, dense, ?_⟩
  · have nonempty := List.length_pos_of_ne_nil (owned called)
    rw [wrote, placed, List.length_append]
    omega
  · apply quiet ordinary
    rintro rfl
    simp [placed] at beyond
  · cases call with
    | signalWorkflow targetRunID signalName payload =>
      rcases begun with rfl | impossible
      · simp [placed]
      · exact impossible.elim
    | _ => cases signal
  · match outcome, ends with
    | none, unfinished => exact ⟨unfinished, by simp [Host.returned]⟩
    | some (reply, after), .inl ⟨resumes, owns, place⟩ =>
      have active : Active after := by
        rcases place with ahead | caught
        · exact ahead.active
        · exact caught.active
      have answered : (engineHost engine).answered (some (reply, after)) = some (reply, after) := by
        simp [Host.answered, Host.returned, resumes, active.unsuspended]
      rw [answered, List.length_append]
      exact ⟨owns, place⟩
    | some (reply, after), .inr ⟨stops, unfinished⟩ =>
      have unanswered : (engineHost engine).answered (some (reply, after)) = none := by
        rcases stops with suspends | parked
        · simp [Host.answered, Host.returned, suspends]
        · cases suspends : reply.suspends <;>
            simp [Host.answered, Host.returned, suspends, Option.filter,
              Option.isSome_iff_ne_none.mpr parked]
      rw [unanswered]
      refine ⟨unfinished, fun reply' after' returned known next later ending allowed runs => ?_⟩
      obtain ⟨given, resumes⟩ := Account.returned_eq_some returned
      cases given
      rcases stops with suspends | parked
      · exact absurd (suspends.symm.trans resumes) (by simp)
      · obtain ⟨silent, halts⟩ := HostCall.stops_silent parked (allowed.stops parked) runs
        refine ⟨silent, fun rows => writes_reads rows later silent.reads, ?_⟩
        cases ending with
        | none => rfl
        | some result => simp [Host.returned, halts result.1 result.2 rfl]

/-- The engine's ledger. -/
def engineLedger (engine : Engine) (stored : engine.db = true) :
    Ledger (engineHost engine) Standing where
  view := ExecSession.standing
  Allowed := HostCall.Allowed engine
  Quiet before call after trace := call.Answered before after trace
  Fresh rows before call trace := call.Executed rows before trace
  Idle := Silent
  initial := ⟨0, false, "", "", "", []⟩
  rank := Standing.stepCount
  Whole := Dense
  Ahead := Ahead
  Caught := Caught
  Block before call := (call.format engine before).Block
  Tail before call := (call.format engine before).Tail
  ahead_active _ _ _ ahead := ahead.active.unparked
  caught_active _ _ caught := caught.active.unparked
  rises := by
    intro before call reply recorded block after owns
    rw [HostCall.format_stepCount owns]
    omega
  empty := by
    intro index row found
    simp at found
  load := by
    intro opening rows _
    refine ⟨rfl, ?_⟩
    cases rows with
    | nil => exact .inr ⟨rfl, rfl, rfl, rfl, rfl⟩
    | cons row rows => exact .inl ⟨rfl, rfl, rfl, rfl, rfl⟩
  replay := by
    rintro earlier block later before call reply recorded after known s trace outcome dense owns
      ahead rfl expected allowed runs
    have repeatable := allowed.repeatable ahead.active.unsuspended
    have known_eq : recorded = false → known = some reply :=
      fun unrecorded => expected.resolve_right (by simp [unrecorded])
    have replayed := HostCall.replays stored dense ahead owns known_eq repeatable runs
    exact ⟨replayed.unchanged, ⟨replayed.quiet, HostCall.advanced owns known_eq repeatable⟩,
      replayed.answers⟩
  idle := by
    rintro rows before call reply recorded after known s trace outcome _ owns caught rfl expected
      allowed runs
    have repeatable := allowed.repeatable caught.active.unsuspended
    have known_eq : recorded = false → known = some reply :=
      fun unrecorded => expected.resolve_right (by simp [unrecorded])
    obtain ⟨silent, answers⟩ := HostCall.idles caught owns known_eq repeatable runs
    exact ⟨writes_reads _ _ silent.reads,
      ⟨silent.undispatched, HostCall.advanced owns known_eq repeatable⟩, answers⟩
  frontier := by
    rintro rows tail before call s trace outcome dense rfl place begun allowed runs
    have active : Active s := by
      rcases place with ahead | ⟨_, caught⟩
      · exact ahead.active
      · exact caught.active
    obtain ⟨left, quiet⟩ := HostCall.leaves stored dense place begun
      (allowed.repeatable active.unsuspended) runs
    have placed : s.standing.stepCount = rows.length := by
      rcases place with ahead | ⟨_, caught⟩
      · exact ahead.position
      · exact caught.position
    obtain ⟨executed, written, wrote, dense, ends⟩ := left.frontier quiet begun placed
    refine ⟨executed, written, wrote, dense, ?_⟩
    cases answered : (engineHost engine).answered outcome <;>
    · rw [answered] at ends
      exact ends

/-- The engine's account of a guest. -/
abbrev engineAccount (stored : engine.db = true) (guest : Guest HostCall Reply) :
    Account (engineHost engine) guest Standing :=
  (engineLedger engine stored).toAccount guest

end Ledger

end Cleat
