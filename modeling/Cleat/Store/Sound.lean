import Cleat.Store.Calls

/-!
# What every call keeps of a run

A settled run is held by nobody, a run that is terminating has its outcome noted, and a run that
has settled or is going to settle does so unless it is reopened. A run keeps its defers until it
settles.
-/
namespace Cleat.Store

open Durable StoredRun

/-- What every call keeps of a run: a settled run is held by nobody, an outcome that is noted
settles the run, and a run that is terminating has one noted. -/
structure Sound (lease : Lease) : Prop where
  unheld : lease.status.settled = true → lease.assignedTo = none
  outcome : lease.pendingTerminalStatus.all RunStatus.settled = true
  noted : lease.status = .terminating → lease.pendingTerminalStatus.isSome = true

/-- A run that has settled or is going to. -/
def Closed (lease : Lease) : Prop :=
  lease.status.settled = true ∨ lease.pendingTerminalStatus.isSome = true

/-- A run that has defers to run, or may have. -/
def StoredRun.deferring (run : StoredRun) : Bool := run.hasDefers || run.compacted

/-- A call that leaves a settled run settled. -/
def StoreCall.reopens : StoreCall → Bool
  | .retry => true
  | .reReplay _ => true
  | _ => false

section Calls

variable {nowMs : Int} {run : StoredRun} {call : StoreCall}

/-- A call leaves the run its name, and its defers unless it settles the run. -/
structure Carries (run after : StoredRun) : Prop where
  id : after.id = run.id
  defers : run.deferring = true → after.deferring = true ∨ after.lease.status.settled = true

variable {after : StoredRun} {newEvents : List EventType} {lease : Lease}

theorem Carries.kept (id : after.id = run.id) (history : after.history = run.history)
    (compaction : after.payload.compactionState = run.payload.compactionState) :
    Carries run after := by
  refine ⟨id, fun owes => .inl ?_⟩
  unfold deferring hasDefers compacted at owes ⊢
  rwa [history, compaction]

theorem Carries.appended (id : after.id = run.id)
    (history : after.history = run.history ++ newEvents)
    (compaction : after.payload.compactionState = run.payload.compactionState) :
    Carries run after := by
  refine ⟨id, fun owes => .inl ?_⟩
  unfold deferring hasDefers compacted at owes ⊢
  rw [history, compaction]
  rcases Bool.or_eq_true _ _ ▸ owes with has | compacted
  · simp only [List.contains_append, has, Bool.true_or]
  · simp only [compacted, Bool.or_true]

theorem finalizeWorkflowSegment_carries {worker : String} {generation : Nat} {final : FinalStatus}
    {result queryState : String} {wakeAtMs : Int}
    (performed : finalizeWorkflowSegment worker generation newEvents final result queryState wakeAtMs
      nowMs run = .ok after) : Carries run after := by
  unfold finalizeWorkflowSegment at performed
  split at performed
  · cases performed
  · unfold finalizeWorkflowStatus at performed
    cases final with
    | done =>
      dsimp only at performed
      split at performed
      · cases performed
      · rename_i lease completes
        cases performed
        have done' : lease.core.status = .done := by rw [(completeLeaseRow_some completes).2]
        refine ⟨rfl, fun _ => .inr ?_⟩
        rw [← core_status, done']
        rfl
    | ready =>
      obtain ⟨_, rfl⟩ := ok_of_ite performed
      exact .appended rfl rfl rfl
    | suspended => cases performed
    | other name => cases performed

theorem perform_carries (performed : call.perform nowMs run = .ok after) :
    Carries run after := by
  cases call with
  | finalizeSegment => exact finalizeWorkflowSegment_carries performed
  | compact generation folded compactionState =>
    obtain ⟨_, rfl⟩ := ok_of_ite performed
    exact ⟨rfl, fun _ => .inl (Bool.or_true _)⟩
  | force generation wanted =>
    have compaction : (wanted.write run.payload).compactionState =
        run.payload.compactionState := by cases wanted <;> rfl
    simp only [StoreCall.perform, adminForceResolve] at performed
    repeat' split at performed
    · cases performed
    · cases performed
    · cases performed
      exact .appended rfl rfl compaction
    · cases performed
      exact .appended rfl rfl compaction
  | _ =>
    simp only [StoreCall.perform, claimWorkflow, claimStickyWorkflow, Store.heartbeat,
      completeWorkflow, failWorkflow, moveToDeadLetterQueue, settleWithError, continueAsNewRun,
      releaseWorkflow, Store.finalizeDeferPhase, appendEvents, expireDeferPhase,
      reapStaleInstance, terminateWorkflow, cancelWorkflow, preemptivelySettle,
      Store.closeTerminated, Store.closeIntoDeferPhase, Store.closeRequestingCancel,
      retryWorkflow, adminReReplay, Except.ok.injEq] at performed
    repeat' split at performed
    all_goals first
      | (cases performed; exact .kept rfl rfl rfl)
      | (cases performed; exact .appended rfl rfl rfl)
      | cases performed

theorem apply_carries : Carries run (call.apply nowMs run) := by
  unfold StoreCall.apply
  cases performed : call.perform nowMs run with
  | ok after => exact perform_carries performed
  | error reason => exact .kept rfl rfl rfl

theorem sound_of_core {core : LeaseCore} (same : lease.core = core)
    (unheld : core.status.settled = true → core.assignedTo = none)
    (outcome : core.pendingTerminalStatus.all RunStatus.settled = true)
    (noted : core.status = .terminating → core.pendingTerminalStatus.isSome = true) :
    Sound lease := by
  subst same
  exact ⟨unheld, outcome, noted⟩

theorem noted_of_waiting (waits : lease.waitingStatus = .terminating) :
    lease.pendingTerminalStatus.isSome = true := by
  unfold Lease.waitingStatus at waits
  split at waits
  · assumption
  · cases waits

/-- A call leaves a sound run sound.

Proof: by what the call did to the lease. -/
theorem Sound.apply (sound : Sound run.lease) : Sound (call.apply nowMs run).lease := by
  obtain ⟨unheld, outcome, noted⟩ := sound
  obtain ⟨core, same, moved⟩ := exists_apply_moves nowMs call run
  cases moved with
  | idle => exact sound_of_core same unheld outcome noted
  | claimed => exact sound_of_core same nofun outcome nofun
  | parked _ waiting =>
    refine sound_of_core same (fun _ => rfl) outcome ?_
    rintro rfl
    exact noted_of_waiting (waiting.resolve_left nofun).symm
  | settled _ _ _ final =>
    refine sound_of_core same (fun _ => rfl) outcome ?_
    rintro rfl
    cases final
  | applied applied _ =>
    refine sound_of_core same (fun _ => rfl) rfl ?_
    rintro rfl
    rw [applied] at outcome
    cases outcome
  | reaped => exact sound_of_core same (fun _ => rfl) outcome noted_of_waiting
  | marked _ _ final => exact sound_of_core same nofun final fun _ => rfl
  | stopped _ _ _ final =>
    refine sound_of_core same (fun _ => rfl) rfl ?_
    rintro rfl
    cases final
  | reopened => exact sound_of_core same nofun outcome nofun

theorem Reopens.stops_of_keeps {status : RunStatus} (reopens : Reopens call status)
    (keeps : call.reopens = false) : call.stops = true := by
  cases reopens with
  | retried => cases keeps
  | terminated => rfl
  | replayed => cases keeps

/-- A call that reopens nothing leaves a closed run closed. -/
theorem Closed.apply (closed : Closed run.lease) (sound : Sound run.lease)
    (keeps : call.reopens = false) : Closed (call.apply nowMs run).lease := by
  obtain ⟨core, same, moved⟩ := exists_apply_moves nowMs call run
  have of_core : core.status.settled = true ∨ core.pendingTerminalStatus.isSome = true →
      Closed (call.apply nowMs run).lease := by
    rw [← same]
    exact id
  apply of_core
  cases moved with
  | idle => exact closed
  | claimed _ waits =>
    refine .inr (closed.resolve_left ?_)
    rw [unsettled_of_waiting waits]
    exact Bool.false_ne_true
  | parked held _ =>
    refine .inr (closed.resolve_left fun settled => ?_)
    have unheld := sound.unheld settled
    rw [(assigned_of_heldBy held).1] at unheld
    cases unheld
  | settled _ _ _ final => exact .inl final
  | applied noted _ =>
    have outcome := sound.outcome
    rw [noted] at outcome
    exact .inl outcome
  | reaped executes =>
    refine .inr (closed.resolve_left ?_)
    rw [executes]
    exact Bool.false_ne_true
  | marked => exact .inr rfl
  | stopped _ _ _ final => exact .inl final
  | reopened stops reopens =>
    rw [reopens.stops_of_keeps keeps] at stops
    cases stops

/-- A sound run that is not closed can be dispatched. -/
theorem claimable_of_open (sound : Sound lease) (open' : ¬ Closed lease) :
    claimableStatus lease.status = true := by
  unfold Closed at open'
  have noted := sound.noted
  cases status : lease.status <;> simp_all [RunStatus.settled, claimableStatus]

end Calls

/-- Over every sequence of calls from its creation, a run is sound. Once it has settled or is going
to, it stays so unless it is retried or replayed again. -/
theorem closed_until_reopened (id : String) (createdMs : Int) (earlier later : List (Int × StoreCall)) :
    let run := stateAfter storeStep (insertLeaseAndPayloadRows id createdMs) earlier
    let next := stateAfter storeStep run later
    Sound next.lease ∧ (Closed run.lease → (∀ call ∈ later, call.2.reopens = false) →
      Closed next.lease) := by
  intro run next
  have kept (run : StoredRun) (call) (sound : Sound run.lease) : Sound (storeStep run call).lease :=
    sound.apply
  have sound : Sound run.lease :=
    stateAfter_invariant _ kept ⟨fun _ => rfl, rfl, by rintro ⟨⟩⟩ earlier
  refine ⟨stateAfter_invariant _ kept sound later, fun closed keeps => ?_⟩
  have allowed : Allows storeStep (fun _ call => call.2.reopens = false) run later :=
    allows_of_forall fun call made _ => keeps call made
  exact (allowed.invariant (fun run => Closed run.lease ∧ Sound run.lease)
    (fun _ _ keeps known => ⟨known.1.apply known.2 keeps, known.2.apply⟩) ⟨closed, sound⟩).1

end Cleat.Store
