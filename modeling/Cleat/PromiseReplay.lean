import Cleat.Position
import Cleat.Promises

/-!
# Replaying promises and side effects

A side effect and a created promise own one row each. An await on a promise owns the row
of its outcome if the promise was settled when it was first awaited. If it was not, the
await owns the `await_promise` row of its suspension, followed by the row of the outcome
unless the await timed out.

Replaying an `await_promise` row ends the replay and asks the store again, whatever
follows. `AwaitPromiseAllowed` is the condition under which that does no harm.
-/
namespace Cleat

open Durable Durable.Program Program.Ensures Bool Leaves

variable {engine : Engine} {s : ExecSession} {buffer : OutBuf} {rows : History} {trace : Trace}
  {outcome : Option Replied}

/-- A side effect owns the row of its value. -/
def sideEffectFormat (before : Standing) (computedResult : String) (buffer : OutBuf) : Format where
  Block reply recorded block after :=
    ∃ row, block = [row] ∧ row.eventType = .sideEffect ∧ row.sideEffectResult = computedResult ∧
      recorded = true ∧ reply = simpleValue buffer (bytesOf computedResult) ∧
      after = before.forward 1
  Tail _ := False

/-- A created promise owns the row of its identifier, whether or not the store could
create it. -/
def createPromiseFormat (before : Standing) (buffer : OutBuf) : Format where
  Block reply recorded block after :=
    ∃ row, block = [row] ∧ row.eventType = .createPromise ∧ after = before.forward 1 ∧
      ((recorded = true ∧ reply = simpleValue buffer (bytesOf row.promiseID)) ∨
        (recorded = false ∧ ∃ reason, reply = simpleFailed buffer reason))
  Tail _ := False

/-- The circumstances in which a creation returns what it has returned before: its event is
persisted, and if it has returned, it did not fail. -/
@[mk_iff] structure CreatePromiseAllowed (known : Option Reply) (trace : Trace) : Prop where
  durable : ∀ observed ∈ trace, Durably observed
  created : ∀ reply ∈ known, reply.errCode ≠ 1

instance (known : Option Reply) (trace : Trace) :
    Decidable (CreatePromiseAllowed known trace) :=
  decidable_of_iff' _ (createPromiseAllowed_iff ..)

section SideEffect

variable {computedResult : String}

theorem sideEffect_replays : (sideEffectFormat s.standing computedResult buffer).ReplayedBy s
    (fun _ trace => ∀ observed ∈ trace, Durably observed)
    (sideEffect engine s computedResult buffer) := by
  intro earlier block later reply recorded after known trace outcome _ ahead owns _ _ runs
  obtain ⟨row, rfl, kind, value, _, rfl, rfl⟩ := owns
  exact .at_once (ahead.advance engine)
    (by simp [sideEffect, replaySideEffect, ahead.replaying, ahead.lookup, kind, value]) runs
    (by simp) (standing_forward rfl rfl)

theorem freshSideEffect_leaves (stored : engine.db = true) (caught : Caught s rows.length)
    (dense : Dense rows) :
    (freshSideEffect engine s computedResult buffer).Ensures Durably
      (Leaves (sideEffectFormat s.standing computedResult buffer) rows []) := by
  refine recordEvent_leaves stored (by simpa using caught) (by simpa using dense) rfl rfl
    (fun _ _ _ usual => usual) (.inl (.inl rfl)) _ (fun _ _ => rfl) fun clockMs after recorded => ?_
  exact .inl ⟨by simp, ⟨true, _, rfl, rfl, rfl, rfl, rfl, recorded.standing⟩,
    .inr (recorded.caught caught)⟩

theorem sideEffect_leaves (stored : engine.db = true) :
    (sideEffectFormat s.standing computedResult buffer).LeftBy s
      (fun trace => ∀ observed ∈ trace, Durably observed)
      (sideEffect engine s computedResult buffer) := by
  intro rows tail trace outcome dense place begun durable runs
  obtain rfl := begun.resolve_right id
  rw [List.append_nil] at dense
  refine of_runs ?_ runs durable
  rcases place with ahead | ⟨_, caught⟩
  · simp only [sideEffect, replaySideEffect, ahead.replaying, ahead.lookup_end, if_true]
    exact freshSideEffect_leaves stored ahead.exit dense
  · simp only [sideEffect, caught.forward, false_eq_true, if_false]
    exact ensures_unlessStopped (by simpa using dense) (.inl (.inl rfl))
      (freshSideEffect_leaves stored caught dense)

end SideEffect

section CreatePromise

variable {name : String}

theorem createPromise_replays : (createPromiseFormat s.standing buffer).ReplayedBy s
    CreatePromiseAllowed (createPromise engine s name buffer) := by
  intro earlier block later reply recorded after known trace outcome _ ahead owns known_eq allowed
    runs
  obtain ⟨row, rfl, kind, rfl, ⟨_, rfl⟩ | ⟨rfl, reason, rfl⟩⟩ := owns
  swap
  · exact absurd (errCode_simpleFailed buffer reason) (allowed.created _ (known_eq rfl))
  exact .at_once (ahead.advance engine)
    (by simp [createPromise, ahead.replaying, ahead.lookup, kind]) runs (by simp)
    (standing_forward rfl rfl)

theorem freshCreatePromise_leaves (stored : engine.db = true) (caught : Caught s rows.length)
    (dense : Dense rows) :
    (freshCreatePromise engine s name buffer).Ensures Durably
      (Leaves (createPromiseFormat s.standing buffer) rows []) := by
  have whole : Dense (rows ++ []) := by simpa using dense
  have unfinished : (createPromiseFormat s.standing buffer).Unfinished [] := .inl (.inl rfl)
  unfold freshCreatePromise
  simp only [ask_eq, ask_bind, done_bind, ensures_ask]
  refine ⟨silent whole silent_nil unfinished, fun generated _ => ?_⟩
  have named : Silent [⟨.newUUID, generated⟩] := by simp
  refine ensures_after [_] named ?_
  refine ensures_recordEvent stored caught.forward rfl (fun _ _ _ usual => usual)
    (silent whole silent_nil unfinished)
    (fun clockMs => silent whole (by simp) unfinished)
    fun clockMs checksum after recorded => ?_
  have stands := recorded.standing
  have place : AtEnd after (rows.length + 1) := .inr (recorded.caught caught)
  split
  · exact appended [_] [] whole (by simp [stampEvent, caught.position])
      (by simp) (by simp) (by simp)
      (.inl ⟨by simp, ⟨false, _, rfl, rfl, stands, .inr ⟨rfl, _, rfl⟩⟩, place⟩)
  · refine ⟨appended [_] [] whole (by simp [stampEvent, caught.position])
      (by simp) (by simp) (by simp)
      (.inr ⟨_, _, _, rfl, rfl, rfl, .inl ⟨rfl, rfl⟩⟩), fun created _ => ?_⟩
    cases created with
    | error reason =>
      exact appended [_] [_] whole (by simp [stampEvent, caught.position])
        (by simp) (by simp) (by simp)
        (.inl ⟨by simp, ⟨false, _, rfl, rfl, stands, .inr ⟨rfl, _, rfl⟩⟩, place⟩)
    | ok value =>
      exact appended [_] [_] whole (by simp [stampEvent, caught.position])
        (by simp) (by simp) (by simp)
        (.inl ⟨by simp, ⟨true, _, rfl, rfl, stands, .inl ⟨rfl, rfl⟩⟩, place⟩)

theorem createPromise_leaves (stored : engine.db = true) :
    (createPromiseFormat s.standing buffer).LeftBy s (CreatePromiseAllowed none)
      (createPromise engine s name buffer) := by
  intro rows tail trace outcome dense place begun allowed runs
  obtain rfl := begun.resolve_right id
  rw [List.append_nil] at dense
  refine of_runs ?_ runs allowed.durable
  rcases place with ahead | ⟨_, caught⟩
  · simp only [createPromise, ahead.replaying, ahead.lookup_end, if_true]
    exact freshCreatePromise_leaves stored ahead.exit dense
  · simp only [createPromise, caught.forward, false_eq_true, if_false]
    exact freshCreatePromise_leaves stored caught dense

end CreatePromise

/-- The row of a promise's outcome, with the reply an await gives for it. -/
def SettledBy (buffer : OutBuf) (row : EventRecord) (reply : Reply) : Prop :=
  (row.eventType = .promiseResolved ∧ reply = promiseResolved buffer row.promiseResult) ∨
    (row.eventType = .promiseRejected ∧ reply = promiseRejected buffer row.promiseError)

/-- An await owns the row of its outcome, behind the row of its suspension if it suspended,
or the latter alone if it timed out. Only the first determines the reply. -/
def awaitPromiseFormat (before : Standing) (buffer : OutBuf) : Format where
  Block reply recorded block after := after = before.forward block.length ∧
    ((∃ row, block = [row] ∧ recorded = true ∧ SettledBy buffer row reply) ∨
      (∃ begun row, block = [begun, row] ∧ recorded = false ∧ begun.eventType = .awaitPromise ∧
        SettledBy buffer row reply) ∨
      (∃ begun, block = [begun] ∧ recorded = false ∧ begun.eventType = .awaitPromise ∧
        0 < begun.timeoutMs ∧ reply = promiseTimedOut))
  Tail tail := ∃ begun rest, tail = begun :: rest ∧ begun.eventType = .awaitPromise ∧
    rest.length ≤ 1

/-- The promise is not settled and the deadline of its await has passed. -/
def StillTimedOut (begun : EventRecord) : Observed → Prop
  | ⟨.getPromise _, .ok (.resolved _)⟩ => False
  | ⟨.getPromise _, .ok (.rejected _)⟩ => False
  | ⟨.now, clockMs⟩ => awaitDeadlineMs begun ≤ clockMs
  | _ => True

instance (begun : EventRecord) : DecidablePred (StillTimedOut begun) := fun observed => by
  unfold StillTimedOut
  split <;> infer_instance

/-- The store reports the outcome that the history already holds. -/
def Confirms (row : EventRecord) : Observed → Prop
  | ⟨.getPromise _, answer⟩ =>
    (row.eventType = .promiseResolved ∧ answer = .ok (.resolved row.promiseResult)) ∨
      (row.eventType = .promiseRejected ∧ answer = .ok (.rejected row.promiseError))
  | _ => True

instance (row : EventRecord) : DecidablePred (Confirms row) := fun observed => by
  unfold Confirms
  split <;> infer_instance

/-- What may stand behind the record of a suspension when its await is replayed: nothing,
and if the await has returned, it has timed out and does so again; or only the await's
own outcome, which the store confirms. -/
def ResumesAwait (known : Option Reply) (begun : EventRecord) (trace : Trace) :
    History → Prop
  | [] => known ≠ none → ∀ observed ∈ trace, StillTimedOut begun observed
  | [row] => known ≠ some promiseTimedOut ∧ ∀ observed ∈ trace, Confirms row observed
  | _ => False

instance (known : Option Reply) (begun : EventRecord) (trace : Trace) :
    DecidablePred (ResumesAwait known begun trace) := fun rows => by
  unfold ResumesAwait
  split <;> infer_instance

/-- The circumstances in which an await on a promise returns what it has returned before:
its events are persisted, and it resumes from a record of its suspension only if it may. -/
@[mk_iff] structure AwaitPromiseAllowed (known : Option Reply) (s : ExecSession) (trace : Trace) :
    Prop where
  durable : ∀ observed ∈ trace, Durably observed
  resumed : s.isReplay = true → ∀ begun ∈ s.current,
    begun.eventType = .awaitPromise →
    ResumesAwait known begun trace (s.history.drop (s.stepCount + 1))

instance (known : Option Reply) (s : ExecSession) (trace : Trace) :
    Decidable (AwaitPromiseAllowed known s trace) :=
  decidable_of_iff' _ (awaitPromiseAllowed_iff ..)

section AwaitPromise

variable {promiseID : String} {timeoutMs : Int}

@[simp] theorem suspends_promiseResolved (result : String) :
    (promiseResolved buffer result).suspends = false := by
  simp [suspends_eq, promiseResolved, packAwaitPromiseResult]

@[simp] theorem suspends_promiseRejected (reason : String) :
    (promiseRejected buffer reason).suspends = false := by
  simp [suspends_eq, promiseRejected, packAwaitPromiseResult]

@[simp] theorem suspends_promiseTimedOut : promiseTimedOut.suspends = false := by
  decide

variable {row begun : EventRecord} {reply : Reply} {count : Nat} {before : Standing}
  {tail later : History} {resumed : Option EventRecord}

theorem SettledBy.resumes (settled : SettledBy buffer row reply) :
    reply.suspends = false := by
  rcases settled with ⟨_, rfl⟩ | ⟨_, rfl⟩ <;> simp

/-- A row of an outcome determines the reply. -/
theorem SettledBy.unique {reply' : Reply} (one : SettledBy buffer row reply)
    (two : SettledBy buffer row reply') : reply = reply' := by
  rcases one with ⟨kind, rfl⟩ | ⟨kind, rfl⟩ <;> rcases two with ⟨kind', rfl⟩ | ⟨kind', rfl⟩
  · rfl
  · exact absurd (kind.symm.trans kind') (by decide)
  · exact absurd (kind.symm.trans kind') (by decide)
  · rfl

/-- Outside the defer drain, an await that suspends stops the guest. -/
theorem suspends_suspendAwait (reason : String) (until_ : Int) (active : Active s) :
    (suspendAwait s reason until_).1.suspends = true := by
  simp [suspendAwait, suspendingAwaitResult, active.body]

theorem Caught.setRejected (caught : Caught s count) (rejected : Bool) :
    Caught { s with awaitRejected := rejected } count :=
  ⟨caught.forward, caught.position, caught.active.of_core rfl⟩

theorem Ahead.setRejected {rest : History} (ahead : Ahead s count rest) (rejected : Bool) :
    Ahead { s with awaitRejected := rejected } count rest :=
  ⟨ahead.replaying, ahead.position, ahead.remaining, ahead.active.of_core rfl⟩

/-- The rows an await may have left before it is executed, and the record it resumes. -/
def Resumes (tail : History) (resumed : Option EventRecord) : Prop :=
  (tail = [] ∧ resumed = none) ∨
    ∃ begun, tail = [begun] ∧ begun.eventType = .awaitPromise ∧ resumed = some begun

theorem Resumes.unfinished (resumes : Resumes tail resumed) :
    (awaitPromiseFormat before buffer).Unfinished tail := by
  rcases resumes with ⟨rfl, _⟩ | ⟨begun, rfl, kind, _⟩
  · exact .inl (.inl rfl)
  · exact .inl (.inr ⟨begun, [], rfl, kind, by simp⟩)

/-- Recording the outcome completes an await. -/
theorem Resumes.settled (resumes : Resumes tail resumed) (settled : SettledBy buffer row reply) :
    ∃ recorded, (awaitPromiseFormat before buffer).Block reply recorded (tail ++ [row])
      (before.forward (tail ++ [row]).length) := by
  rcases resumes with ⟨rfl, _⟩ | ⟨begun, rfl, kind, _⟩
  · exact ⟨true, rfl, .inl ⟨row, rfl, rfl, settled⟩⟩
  · exact ⟨false, rfl, .inr (.inl ⟨begun, row, rfl, rfl, kind, settled⟩)⟩

variable {before : Standing} {tail : History} {resumed : Option EventRecord}

/-- A pending promise is awaited: recorded if the await begins, and otherwise compared
with its recorded deadline. -/
theorem awaitPending_leaves (stored : engine.db = true)
    (caught : Caught s (rows ++ tail).length) (dense : Dense (rows ++ tail))
    (stands : s.standing = before.forward tail.length) (resumes : Resumes tail resumed) :
    (awaitPending engine s promiseID timeoutMs resumed).Ensures Durably
      (Leaves (awaitPromiseFormat before buffer) rows tail) := by
  have unfinished : (awaitPromiseFormat before buffer).Unfinished tail := resumes.unfinished
  rcases resumes with ⟨rfl, rfl⟩ | ⟨begun, rfl, kind, rfl⟩
  · refine recordEvent_leaves stored caught dense rfl rfl (fun _ _ _ usual => usual) unfinished
      _ (fun _ _ => rfl) fun clockMs after recorded => ?_
    exact .inr ⟨.inl (suspends_suspendAwait _ _ (recorded.caught caught).active),
      .inl (.inr ⟨_, [], rfl, rfl, by simp⟩)⟩
  · have asked : ∀ clockMs : Int, Silent [⟨.now, clockMs⟩] := by
      simp
    have suspended : ∀ (clockMs : Int) (reason : String) (until_ : Int),
        Leaves (awaitPromiseFormat before buffer) rows [begun] [⟨.now, clockMs⟩]
          (some (suspendAwait s reason until_)) := by
      intro clockMs reason until_
      exact silent dense (asked clockMs)
        (.inr ⟨.inl (suspends_suspendAwait _ _ caught.active), unfinished⟩)
    unfold awaitPending
    dsimp only
    split
    · exact ⟨silent dense silent_nil unfinished, fun clockMs _ => suspended clockMs _ _⟩
    · rename_i positive
      simp only [ask_eq, ask_bind, done_bind, ensures_ask]
      refine ⟨silent dense silent_nil unfinished, fun clockMs _ => ?_⟩
      split
      · refine silent dense (asked clockMs) (.inl ⟨by simp, ⟨false, stands, ?_⟩, ?_⟩)
        · exact .inr (.inr ⟨begun, rfl, rfl, kind, by omega, rfl⟩)
        · exact .inr (by simpa using caught)
      · exact suspended clockMs _ _

/-- Asking the store records a settled promise and awaits a pending one. -/
theorem awaitStore_leaves (stored : engine.db = true) (configured : engine.promiseStore = true)
    (caught : Caught s (rows ++ tail).length) (dense : Dense (rows ++ tail))
    (stands : s.standing = before.forward tail.length) (resumes : Resumes tail resumed) :
    (awaitStore engine s promiseID timeoutMs resumed buffer).Ensures Durably
      (Leaves (awaitPromiseFormat before buffer) rows tail) := by
  have unfinished : (awaitPromiseFormat before buffer).Unfinished tail := resumes.unfinished
  unfold awaitStore
  simp only [configured, Bool.not_true, Bool.false_eq_true, if_false, ask_eq, ask_bind,
    done_bind, ensures_ask]
  refine ⟨.silent dense silent_nil unfinished, fun answer _ => ?_⟩
  refine Leaves.ensures_after [_] (by simp) ?_
  rcases answer with reason | state
  · exact awaitPending_leaves stored caught dense stands resumes
  cases state with
  | pending => exact awaitPending_leaves stored caught dense stands resumes
  | resolved result =>
    refine recordEvent_leaves stored caught dense rfl rfl (fun _ _ _ usual => usual) unfinished
      _ (fun _ _ => rfl) fun clockMs after recorded =>
        .inl ⟨by simp, ?_, .inr (recorded.behind caught stands _).2⟩
    rw [(recorded.behind caught stands _).1]
    exact resumes.settled (.inl ⟨rfl, rfl⟩)
  | rejected reason =>
    refine recordEvent_leaves stored caught dense rfl rfl (fun _ _ _ usual => usual) unfinished
      (fun after => (promiseRejected buffer reason, { after with awaitRejected := true }))
      (fun _ _ => rfl)
      fun clockMs after recorded =>
        .inl ⟨by simp, ?_, .inr ((recorded.behind caught stands _).2.setRejected true)⟩
    change ∃ determined, Format.Block _ _ determined _ after.standing
    rw [(recorded.behind caught stands _).1]
    exact resumes.settled (.inr ⟨rfl, rfl⟩)

/-- An await whose outcome the history already holds and the store confirms records it
again, in vain, and returns it. -/
theorem awaitStore_confirmed (stored : engine.db = true) (configured : engine.promiseStore = true)
    (caught : Caught s (rows.length + 1)) (dense : Dense (rows ++ [begun, row])) :
    (awaitStore engine s promiseID timeoutMs resumed buffer).Ensures
      (fun observed => Durably observed ∧ Confirms row observed) fun trace outcome =>
        Undispatched trace ∧ writes (rows ++ [begun, row]) trace = rows ++ [begun, row] ∧
          ∀ reply after, outcome = some (reply, after) →
            SettledBy buffer row reply ∧ after.standing = s.standing.forward 1 ∧
              Caught after (rows.length + 2) := by
  have silently : ∀ {trace : Trace}, Silent trace →
      Undispatched trace ∧ writes (rows ++ [begun, row]) trace = rows ++ [begun, row] ∧
        ∀ reply after, (none : Option Replied) = some (reply, after) →
          SettledBy buffer row reply ∧ after.standing = s.standing.forward 1 ∧
            Caught after (rows.length + 2) :=
    fun silent => ⟨silent.undispatched, writes_reads _ _ silent.reads, by simp⟩
  have declined : ∀ record : EventRecord, record.step = s.stepCount →
      awaitsCompletion row = false →
      insertEvent (rows ++ [begun, row]) (rowOf record) = rows ++ [begun, row] := by
    intro record placed finished
    exact insertEvent_declined dense (placed.trans caught.position) finished
  unfold awaitStore
  simp only [configured, Bool.not_true, Bool.false_eq_true, if_false, ask_eq, ask_bind,
    done_bind, ensures_ask]
  refine ⟨silently silent_nil, fun answer usual => ?_⟩
  have asked : Silent [⟨.getPromise promiseID, answer⟩] := by
    simp
  rcases (usual.2 : Confirms row ⟨.getPromise promiseID, answer⟩) with ⟨kind, rfl⟩ | ⟨kind, rfl⟩
  all_goals
    refine ensures_recordEvent stored caught.forward rfl (fun _ _ _ usual => usual.1)
      (silently asked) (fun clockMs => silently (by simp)) fun clockMs checksum session recorded =>
        ⟨by simp, declined (stampEvent s _ clockMs) rfl (by simp [awaitsCompletion, kind]), ?_⟩
    rintro reply after ⟨rfl⟩
  · exact ⟨.inl ⟨kind, rfl⟩, recorded.standing, recorded.caught caught⟩
  · exact ⟨.inr ⟨kind, rfl⟩, recorded.standing, (recorded.caught caught).setRejected true⟩

/-- An await that still times out does so without writing anything. -/
theorem awaitStore_timedOut (configured : engine.promiseStore = true)
    (positive : 0 < begun.timeoutMs) :
    (awaitStore engine s promiseID timeoutMs (some begun) buffer).Ensures (StillTimedOut begun)
      fun trace outcome => Silent trace ∧
        ∀ reply after, outcome = some (reply, after) → reply = promiseTimedOut ∧ after = s := by
  have pending : (awaitPending engine s promiseID timeoutMs (some begun)).Ensures
      (StillTimedOut begun) fun trace outcome => Silent trace ∧
        ∀ reply after, outcome = some (reply, after) → reply = promiseTimedOut ∧ after = s := by
    have deadline : ¬ begun.timeoutMs ≤ 0 := by omega
    simp only [awaitPending, deadline, if_false, ask_eq, ask_bind, done_bind,
      ensures_ask]
    refine ⟨by simp, fun clockMs stillPassed => ?_⟩
    have passed : clockMs ≥ awaitDeadlineMs begun := stillPassed
    rw [if_pos passed]
    refine ⟨by simp, fun reply after given => ?_⟩
    cases given
    exact ⟨rfl, rfl⟩
  have asked : ∀ (answer : Except String PromiseState) (trace : Trace)
      (outcome : Option Replied),
      (Silent trace ∧ ∀ reply after, outcome = some (reply, after) →
        reply = promiseTimedOut ∧ after = s) →
      Silent (⟨.getPromise promiseID, answer⟩ :: trace) ∧
        ∀ reply after, outcome = some (reply, after) → reply = promiseTimedOut ∧ after = s := by
    intro answer trace outcome timesOut
    exact ⟨by simpa using timesOut.1, timesOut.2⟩
  unfold awaitStore
  simp only [configured, Bool.not_true, Bool.false_eq_true, if_false, ask_eq, ask_bind,
    done_bind, ensures_ask]
  refine ⟨by simp, fun answer unsettled => ?_⟩
  rcases answer with reason | state
  · exact pending.mono (asked _)
  cases state with
  | pending => exact pending.mono (asked _)
  | resolved result => exact unsettled.elim
  | rejected reason => exact unsettled.elim

/-- An await in front of the row of its suspension asks the store again. -/
theorem awaitPromise_begun (ahead : Ahead s count (begun :: later))
    (kind : begun.eventType = .awaitPromise) :
    awaitPromise engine s promiseID timeoutMs buffer =
      awaitStore engine
        (exitReplay (advanceReplayStep engine { s with awaitRejected := false } begun)) promiseID
        timeoutMs (some begun) buffer := by
  simp [awaitPromise, ahead.replaying, ahead.lookup, kind]

/-- A finished await returns its outcome again. -/
theorem awaitPromise_replays (stored : engine.db = true) :
    (awaitPromiseFormat s.standing buffer).ReplayedBy s
      (fun known trace => engine.promiseStore = true ∧ AwaitPromiseAllowed known s trace)
      (awaitPromise engine s promiseID timeoutMs buffer) := by
  rintro earlier block later reply recorded after known trace outcome dense ahead owns known_eq
    ⟨configured, allowed⟩ runs
  have reset := ahead.setRejected false
  obtain ⟨rfl, ⟨row, rfl, rfl, settled⟩ | ⟨begun, row, rfl, rfl, kind, settled⟩ |
    ⟨begun, rfl, rfl, kind, positive, rfl⟩⟩ := owns
  · have standing : (advanceReplayStep engine { s with awaitRejected := false } row).standing =
        s.standing.forward 1 := rfl
    rcases settled with ⟨kind, rfl⟩ | ⟨kind, rfl⟩
    · exact .at_once (reset.advance engine)
        (by simp [awaitPromise, ahead.replaying, ahead.lookup, kind]) runs (by simp) standing
    · exact .at_once ((reset.advance engine).setRejected true)
        (by simp [awaitPromise, ahead.replaying, ahead.lookup, kind]) runs (by simp) standing
  · -- The store confirms the outcome behind the suspension, and nothing else follows.
    have resumed := allowed.resumed ahead.replaying begun ahead.lookup kind
    rw [ahead.drop_next] at resumed
    obtain ⟨rfl, confirms⟩ : later = [] ∧ ∀ observed ∈ trace, Confirms row observed := by
      cases later with
      | nil => exact ⟨rfl, resumed.2⟩
      | cons next later => exact resumed.elim
    rw [awaitPromise_begun ahead kind] at runs
    obtain ⟨quiet, unchanged, answers⟩ := (awaitStore_confirmed stored configured
      (reset.advance engine).exit dense).of_runs runs
      fun observed member => ⟨allowed.durable observed member, confirms observed member⟩
    refine ⟨unchanged, quiet, fun reply' after' given => ?_⟩
    obtain ⟨replied, stands, caught⟩ := answers reply' after' given
    exact ⟨replied.unique settled, replied.resumes, stands, .inr ⟨rfl, caught⟩⟩
  · have known_eq := known_eq rfl
    have resumed := allowed.resumed ahead.replaying begun ahead.lookup kind
    rw [ahead.drop_next] at resumed
    obtain ⟨rfl, still⟩ : later = [] ∧ ∀ observed ∈ trace, StillTimedOut begun observed := by
      rcases later with _ | ⟨next, _ | ⟨other, later⟩⟩
      · exact ⟨rfl, resumed (by simp [known_eq])⟩
      · exact absurd known_eq resumed.1
      · exact resumed.elim
    rw [awaitPromise_begun ahead kind] at runs
    obtain ⟨silent, answers⟩ := (awaitStore_timedOut configured positive).of_runs runs still
    refine ⟨writes_reads _ _ silent.reads, silent.undispatched, fun reply' after' given => ?_⟩
    obtain ⟨rfl, rfl⟩ := answers reply' after' given
    exact ⟨rfl, by simp, rfl, .inr ⟨rfl, (reset.advance engine).exit⟩⟩

/-- An await at the end of the rows leaves its own. -/
theorem awaitPromise_leaves (stored : engine.db = true) :
    (awaitPromiseFormat s.standing buffer).LeftBy s
      (fun trace => engine.promiseStore = true ∧ AwaitPromiseAllowed none s trace)
      (awaitPromise engine s promiseID timeoutMs buffer) := by
  rintro rows tail trace outcome dense place begun ⟨configured, allowed⟩ runs
  have fresh : tail = [] → ∀ session : ExecSession, Caught session rows.length →
      session.standing = s.standing →
      (awaitStore engine session promiseID timeoutMs none buffer).Ensures Durably
        (Leaves (awaitPromiseFormat s.standing buffer) rows tail) := by
    rintro rfl session caught stands
    exact awaitStore_leaves stored configured (by simpa using caught) dense
      (by simpa [Standing.forward] using stands) (.inl ⟨rfl, rfl⟩)
  rcases place with ahead | ⟨rfl, caught⟩
  · have reset := ahead.setRejected false
    rcases begun with rfl | ⟨row, rest, rfl, kind, short⟩
    · refine of_runs ?_ runs allowed.durable
      simp only [awaitPromise, ahead.replaying, ahead.lookup_end, if_true]
      exact fresh rfl _ reset.exit rfl
    · have resumed := allowed.resumed ahead.replaying row ahead.lookup kind
      rw [ahead.drop_next] at resumed
      rw [awaitPromise_begun ahead kind] at runs
      have stepped := (reset.advance engine).exit
      rcases rest with _ | ⟨other, _ | ⟨next, rest⟩⟩
      · refine of_runs ?_ runs allowed.durable
        exact awaitStore_leaves stored configured (by simpa using stepped) dense rfl
          (.inr ⟨row, rfl, kind, rfl⟩)
      · obtain ⟨quiet, unchanged, answers⟩ := (awaitStore_confirmed stored configured stepped
          dense).of_runs runs
          fun observed member => ⟨allowed.durable observed member, resumed.2 observed member⟩
        refine kept dense quiet unchanged (by simp) ?_
        cases outcome with
        | none => exact .inl (.inr ⟨row, [other], rfl, kind, by simp⟩)
        | some result =>
          obtain ⟨settled, stands, caught⟩ := answers result.1 result.2 rfl
          refine .inl ⟨settled.resumes, ⟨false, ?_, .inr (.inl ⟨row, other, rfl, rfl, kind,
            settled⟩)⟩, .inr caught⟩
          exact stands
      · exact resumed.elim
  · refine of_runs ?_ runs allowed.durable
    simp only [awaitPromise, caught.forward, false_eq_true, if_false]
    exact fresh rfl _ ⟨rfl, caught.position, caught.active.of_core rfl⟩ rfl

end AwaitPromise

end Cleat
