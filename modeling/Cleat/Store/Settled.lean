import Cleat.Store.Calls

/-!
# Settled runs and stale claims

A run that has settled keeps its status, whatever workers, operators, sweeps and closing parents
call, unless it is run again or taken off the dead letter queue. A worker that has lost its claim
changes nothing. The generation of a run never decreases.

The sweep over defer phases looks at the note of an outcome alone. A worker that settles a run
by itself leaves the note where it is. So the first of these rests on the workers: one that
claimed a run with a note finishes its defer phase and does not settle the run otherwise.
-/
namespace Cleat.Store

open Durable StoreCall

section Claims

variable {nowMs : Int} {run : StoredRun}

variable {worker : String} {generation : Nat} {call : StoreCall}

/-- A claim that the lease does not name settles nothing. -/
theorem completeLeaseRow_stale {status : RunStatus}
    (stale : run.lease.heldBy worker generation = false) :
    completeLeaseRow worker status generation run.lease = none := by
  simp [completeLeaseRow, stale]

/-- A call of a worker that the lease does not name changes nothing, unless it inserts the events
for which a fence was passed before. -/
theorem apply_stale (carried : call.carried = some (worker, generation))
    (stale : run.lease.heldBy worker generation = false)
    (fenced : ∀ newEvents, call ≠ .append worker generation newEvents) :
    call.apply nowMs run = run := by
  have unheld : ∀ status, completeLeaseRow worker status generation run.lease = none :=
    fun status => completeLeaseRow_stale stale
  have fails : ∃ reason, call.perform nowMs run = .error reason := by
    cases call <;> cases carried
    case finalizeSegment newEvents final result queryState wakeAtMs =>
      cases final with
      | done =>
        exact ⟨.fenceLost, by simp [perform, finalizeWorkflowSegment,
          finalizeWorkflowStatus, validFinalStatus, unheld]⟩
      | ready =>
        exact ⟨.fenceLost, by simp [perform, finalizeWorkflowSegment,
          finalizeWorkflowStatus, validFinalStatus, stale]⟩
      | suspended => exact ⟨_, rfl⟩
      | other name => exact ⟨_, rfl⟩
    case finalizeDeferPhase =>
      simp only [perform, finalizeDeferPhase, stale]
      cases run.lease.pendingTerminalStatus <;> exact ⟨_, rfl⟩
    case append newEvents => exact absurd rfl (fenced newEvents)
    all_goals
      exact ⟨.fenceLost, by simp [perform, heartbeat, completeWorkflow, failWorkflow,
        moveToDeadLetterQueue, settleWithError, continueAsNewRun, releaseWorkflow, unheld, stale]⟩
  obtain ⟨reason, failed⟩ := fails
  simp [apply, failed]

/-- Such a call keeps the lease and the payload in any case. -/
theorem apply_stale_keeps (carried : call.carried = some (worker, generation))
    (stale : run.lease.heldBy worker generation = false) :
    (call.apply nowMs run).lease = run.lease ∧ (call.apply nowMs run).payload = run.payload := by
  by_cases inserts : ∃ newEvents, call = .append worker generation newEvents
  · obtain ⟨newEvents, rfl⟩ := inserts
    exact ⟨rfl, rfl⟩
  · rw [apply_stale carried stale fun newEvents same => inserts ⟨newEvents, same⟩]
    exact ⟨rfl, rfl⟩

theorem apply_generation (call : StoreCall) :
    run.lease.generation ≤ (call.apply nowMs run).lease.generation := by
  have grows : ∀ core, LeaseMove nowMs call run core → run.lease.generation ≤ core.generation := by
    intro core moved
    cases moved with
    | idle => exact Nat.le_refl _
    | claimed => exact Nat.le_succ _
    | parked => exact Nat.le_refl _
    | settled => exact Nat.le_refl _
    | applied _ later => exact later
    | reaped => exact Nat.le_succ _
    | marked => exact Nat.le_succ _
    | stopped => exact Nat.le_succ _
    | reopened _ _ later => exact later
  exact grows _ (apply_moves call)

/-- A settled run is held by nobody and has no outcome noted. -/
def Final (run : StoredRun) : Prop :=
  run.lease.status.settled = true →
    run.lease.assignedTo = none ∧ run.lease.pendingTerminalStatus = none

/-- A worker settles the run that it holds only if no outcome is noted for it: a run with a note
is in its defer phase. -/
def Guided (run : StoredRun) (call : StoreCall) : Prop :=
  call.settlesOwn = true →
    (call.carried.any fun claim => run.lease.heldBy claim.1 claim.2) = true →
      run.lease.pendingTerminalStatus = none

instance (run : StoredRun) (call : StoreCall) : Decidable (Guided run call) :=
  inferInstanceAs (Decidable (_ → _ → _))

/-- The run after a call is known by the core of its lease. -/
theorem final_of_core {after : StoredRun} {core : LeaseCore} (same : after.lease.core = core)
    (final : core.status.settled = true →
      core.assignedTo = none ∧ core.pendingTerminalStatus = none) : Final after := by
  subst same
  exact final

/-- A guided call leaves a final run final.

Proof: by what the call did to the lease. A worker's own settlement finds no note, and all others
take the note back. -/
theorem Final.apply (final : Final run) (guided : Guided run call) :
    Final (call.apply nowMs run) := by
  obtain ⟨core, same, moved⟩ := exists_apply_moves nowMs call run
  refine final_of_core same fun settled => ?_
  cases moved with
  | idle => exact final settled
  | claimed => cases settled
  | parked _ waiting =>
    rw [unsettled_of_parked waiting] at settled
    cases settled
  | settled settles carried held _ =>
    refine ⟨rfl, guided settles ?_⟩
    rw [carried]
    exact held
  | applied => exact ⟨rfl, rfl⟩
  | reaped =>
    rw [unsettled_of_waiting (waitingStatus_waits run.lease)] at settled
    cases settled
  | marked => cases settled
  | stopped => exact ⟨rfl, rfl⟩
  | reopened => cases settled

/-- A final run keeps its status unless it is reopened. -/
theorem Final.status (final : Final run) (settled : run.lease.status.settled = true)
    (changed : (call.apply nowMs run).lease.status ≠ run.lease.status) :
    Reopens call run.lease.status := by
  obtain ⟨unheld, unnoted⟩ := final settled
  have moved : LeaseMove nowMs call run (call.apply nowMs run).lease.core := apply_moves call
  rcases moved.of_settled settled unheld unnoted with same | ⟨reopens, _⟩
  · exact absurd (congrArg LeaseCore.status same) changed
  · exact reopens

end Claims

/-- Over every sequence of calls on a run from its creation, in which a worker settles its run by
itself only if no outcome is noted for it: a settled run changes its status only if it is retried
or terminated from the dead letter queue, or replayed again; the generation never decreases;
and a worker that the lease does not name changes neither the lease nor the payload. -/
theorem settled_is_final {id : String} {createdMs : Int} {calls : List (Int × StoreCall)}
    (guided : Allows storeStep (fun run call => Guided run call.2)
      (insertLeaseAndPayloadRows id createdMs) calls)
    {earlier later : List (Int × StoreCall)} {nowMs : Int} {call : StoreCall}
    (taken : calls = earlier ++ (nowMs, call) :: later) {run next : StoredRun}
    (before : run = stateAfter storeStep (insertLeaseAndPayloadRows id createdMs) earlier)
    (after : next = call.apply nowMs run) :
    (run.lease.status.settled = true → next.lease.status ≠ run.lease.status →
        Reopens call run.lease.status) ∧
      run.lease.generation ≤ next.lease.generation ∧
      ∀ worker generation, call.carried = some (worker, generation) →
        run.lease.heldBy worker generation = false →
        next.lease = run.lease ∧ next.payload = run.payload := by
  subst taken before after
  obtain ⟨allowed, _⟩ := allows_append.mp guided
  have final : Final (stateAfter storeStep (insertLeaseAndPayloadRows id createdMs) earlier) := by
    refine allowed.invariant Final (fun run call guided final => final.apply guided) ?_
    intro settled
    cases settled
  refine ⟨fun settled changed => final.status settled changed, apply_generation call, ?_⟩
  exact fun worker generation carried stale => apply_stale_keeps carried stale

/-- A run with a defer that is terminated, and a worker that is claimed for its defer phase. -/
def stoppedCalls : List (Int × StoreCall) :=
  [(0, .claim "worker"), (1, .append "worker" 1 [.defer]), (2, .terminate "stop"),
    (3, .claim "worker")]

/-- The run after its defer phase. -/
def finishedRun : StoredRun :=
  stateAfter storeStep (insertLeaseAndPayloadRows "run" 0)
    (stoppedCalls ++ [(4, .finalizeDeferPhase "worker" 3 [])])

theorem settled_is_final_terminated : finishedRun.lease.status = .terminated ∧
    ((complete "worker" 3 "1" "2").apply 5 finishedRun).lease = finishedRun.lease ∧
    ((complete "worker" 3 "1" "2").apply 5 finishedRun).payload =
      finishedRun.payload := by
  have guided : Allows storeStep (fun run call => Guided run call.2)
      (insertLeaseAndPayloadRows "run" 0) (stoppedCalls ++
        [(4, .finalizeDeferPhase "worker" 3 []), (5, .complete "worker" 3 "1" "2")]) := by
    decide
  have taken : stoppedCalls ++
      [(4, .finalizeDeferPhase "worker" 3 []), (5, .complete "worker" 3 "1" "2")] =
        (stoppedCalls ++ [(4, .finalizeDeferPhase "worker" 3 [])]) ++
          (5, .complete "worker" 3 "1" "2") :: [] := rfl
  exact ⟨by decide, (settled_is_final guided taken rfl rfl).2.2 "worker" 3 rfl (by decide)⟩

/-- A worker that is claimed for a defer phase and completes the run instead. The run is done, and
the sweep terminates it when the deadline has passed. -/
theorem noted_outcome_overwrites_settled :
    ¬ ∀ (id : String) (createdMs nowMs : Int) (earlier : List (Int × StoreCall)) (call : StoreCall)
      (run next : StoredRun),
      run = stateAfter storeStep (insertLeaseAndPayloadRows id createdMs) earlier →
      next = call.apply nowMs run → run.lease.status.settled = true →
      next.lease.status ≠ run.lease.status → Reopens call run.lease.status := by
  intro claimed
  have reopens := claimed "run" 0 400000 (stoppedCalls ++ [(4, .complete "worker" 3 "1" "2")])
    .expireDeferPhases _ _ rfl rfl (by decide) (by decide)
  cases reopens

/-- While its generation stays, a lease names the worker that it named before or nobody. -/
def Lease.Follows (next lease : Lease) : Prop :=
  lease.generation < next.generation ∨ lease.generation = next.generation ∧
    (next.assignedTo = lease.assignedTo ∨ next.assignedTo = none)

theorem Lease.Follows.apply {run : StoredRun} {lease : Lease} (follows : run.lease.Follows lease)
    (nowMs : Int) (call : StoreCall) : (call.apply nowMs run).lease.Follows lease := by
  obtain ⟨core, same, moved⟩ := exists_apply_moves nowMs call run
  cases moved <;> grind [Lease.Follows, Lease.core]

/-- Over every sequence of calls a generation of a run belongs to one worker, and a claim of a
generation that was passed has no power over the lease and the payload any more. Apart from the
insertion of events, which had its fence before, a call with such a claim changes nothing. -/
theorem generation_fences (run : StoredRun) (calls : List (Int × StoreCall)) :
    let next := stateAfter storeStep run calls
    next.lease.Follows run.lease ∧ ∀ nowMs (call : StoreCall) claim, call.carried = some claim →
      claim.2 < run.lease.generation →
        (call.apply nowMs next).lease = next.lease ∧
        (call.apply nowMs next).payload = next.payload ∧
        ((∀ newEvents, call ≠ .append claim.1 claim.2 newEvents) →
          call.apply nowMs next = next) := by
  intro next
  have follows : next.lease.Follows run.lease :=
    stateAfter_invariant (fun next : StoredRun => next.lease.Follows run.lease)
      (fun _ call follows => follows.apply call.1 call.2) (.inr ⟨rfl, .inl rfl⟩) calls
  refine ⟨follows, fun nowMs call claim carried passed => ?_⟩
  have stale : next.lease.heldBy claim.1 claim.2 = false := by
    refine Bool.eq_false_iff.mpr fun held => ?_
    have current := (assigned_of_heldBy held).2
    unfold Lease.Follows at follows
    omega
  exact ⟨(apply_stale_keeps carried stale).1, (apply_stale_keeps carried stale).2,
    apply_stale carried stale⟩

end Cleat.Store
