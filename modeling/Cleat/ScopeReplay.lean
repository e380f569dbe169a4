import Cleat.Position
import Cleat.Scope

/-!
# Replaying scopes

An acquired scope owns the `scope_acquired` row of its acquisition, and a cleared scope
owns no row. A refused acquisition leaves a failed row and suspends the session. The next
segment replays that row by acquiring again, at the step behind it, so an acquisition that
was refused once owns two rows.

It cannot be refused twice and then succeed: the third attempt finds both steps behind the
first failed row taken. And since replaying a failed row ends the replay, nothing may stand
behind such a block. `ScopeAllowed` is the condition under which a scope is replayed.
-/
namespace Cleat

open Durable.Program Standing

/-- Whether the guest is in a scope. -/
def Standing.inScope (standing : Standing) : Bool :=
  standing.scopeSet && standing.scopePrefix != ""

/-- The current scope's key is not held any more. -/
def Standing.release (standing : Standing) : Standing :=
  if standing.inScope then
    { standing with heldScopes :=
        standing.heldScopes.erase (scopeKeyOf standing.scopeObjType standing.scopeInstKey) }
  else standing

/-- The guest leaves its scope. -/
def Standing.leave (standing : Standing) : Standing :=
  { standing.release with
    scopeSet := false, scopePrefix := "", scopeObjType := "", scopeInstKey := "" }

/-- The guest leaves its scope and enters another, whose key is held. -/
def Standing.enter (standing : Standing) (objectType instanceKey : String) : Standing :=
  { standing.release with
    scopeSet := true
    scopeObjType := objectType
    scopeInstKey := instanceKey
    scopePrefix := scopeKeyOf objectType instanceKey ++ ":"
    heldScopes := standing.release.heldScopes ++ [scopeKeyOf objectType instanceKey] }

/-- The reply that hands the guest its previous scope. -/
def Standing.previous (standing : Standing) (buffer : OutBuf) : Reply :=
  let written := if standing.inScope then writeOut buffer (bytesOf standing.scopePrefix) else ([], 0)
  ⟨packSimpleResult written.2 written.1.length, [written.1]⟩

/-- Both names are empty: the call clears the scope. -/
def clears (objectType instanceKey : String) : Bool := objectType = "" && instanceKey = ""

/-- The row of a successful acquisition. -/
def Acquired (row : EventRecord) : Prop := row.eventType = .scopeAcquired ∧ row.err = ""

/-- The row of a refused acquisition. -/
def RefusedScope (row : EventRecord) : Prop := row.eventType = .scopeAcquired ∧ row.err ≠ ""

instance : DecidablePred RefusedScope := fun _ => inferInstanceAs (Decidable (_ ∧ _))

/-- Clearing a scope owns no row. Setting one owns the row of the acquisition, behind the
row of a refused attempt if there was one. Refused attempts leave at most two rows. -/
def setScopeFormat (before : Standing) (objectType instanceKey : String) (buffer : OutBuf) :
    Format where
  Block reply recorded block after := recorded = true ∧ reply = before.previous buffer ∧
    if clears objectType instanceKey then block = [] ∧ after = before.leave
    else after = (before.enter objectType instanceKey).forward block.length ∧
      ((∃ row, block = [row] ∧ Acquired row) ∨
        ∃ failed row, block = [failed, row] ∧ RefusedScope failed ∧ Acquired row)
  Tail tail := clears objectType instanceKey = false ∧
    ((∃ failed, tail = [failed] ∧ RefusedScope failed) ∨
      ∃ failed again, tail = [failed, again] ∧ RefusedScope failed ∧ RefusedScope again)

/-- The store acquires the key it is asked for exactly if it should. -/
def Grants (granted : Prop) : Observed → Prop
  | ⟨.acquireConcurrencyKey _, answer⟩ => answer = .ok true ↔ granted
  | _ => True

instance (granted : Prop) [Decidable granted] : DecidablePred (Grants granted) := fun observed => by
  unfold Grants
  split <;> infer_instance

/-- What may stand behind a refused attempt when it is replayed: nothing, or only the row
of the second attempt, and the store decides as it did then. -/
def RetriesScope (trace : Trace) : History → Prop
  | [] => True
  | [again] => ∀ observed ∈ trace, Grants (again.err = "") observed
  | _ => False

instance (trace : Trace) : DecidablePred (RetriesScope trace) := fun rows => by
  rcases rows with _ | ⟨again, _ | ⟨next, later⟩⟩
  · exact instDecidableTrue
  · exact inferInstanceAs (Decidable (∀ observed ∈ trace, Grants (again.err = "") observed))
  · exact instDecidableFalse

/-- The circumstances in which a scope is set as it was before: its events are persisted,
and it retries a refused attempt only if it may. -/
@[mk_iff] structure ScopeAllowed (objectType instanceKey : String) (s : ExecSession)
    (trace : Trace) : Prop where
  durable : ∀ observed ∈ trace, Durably observed
  retried : s.isReplay = true → clears objectType instanceKey = false →
    ∀ failed ∈ s.current, RefusedScope failed →
      RetriesScope trace (s.history.drop (s.stepCount + 1))

instance (objectType instanceKey : String) (s : ExecSession) (trace : Trace) :
    Decidable (ScopeAllowed objectType instanceKey s trace) :=
  decidable_of_iff' _ (scopeAllowed_iff ..)

@[simp] theorem Standing.release_stepCount (standing : Standing) :
    standing.release.stepCount = standing.stepCount := by
  unfold release
  split <;> rfl

@[simp] theorem Standing.leave_stepCount (standing : Standing) :
    standing.leave.stepCount = standing.stepCount :=
  standing.release_stepCount

@[simp] theorem Standing.enter_stepCount (standing : Standing) (objectType instanceKey : String) :
    (standing.enter objectType instanceKey).stepCount = standing.stepCount :=
  standing.release_stepCount

section Scope

variable {engine : Engine} {s : ExecSession} {objectType instanceKey : String} {buffer : OutBuf}
  {trace : Trace} {outcome : Option Replied}

theorem scopeReply_eq : scopeReply s buffer = s.standing.previous buffer := rfl

@[simp] theorem suspends_previous (standing : Standing) :
    (standing.previous buffer).suspends = false := by
  simp [suspends_eq, previous, packSimpleResult]

theorem standing_forgetCurrentScope : (forgetCurrentScope s).standing = s.standing.release := by
  unfold forgetCurrentScope release
  change (if s.standing.inScope then _ else _ : ExecSession).standing = _
  split <;> rfl

variable {count : Nat} {rest later : History} {Usual : Observed → Prop} {row failed : EventRecord}

theorem Caught.forgetCurrentScope (caught : Caught s count) :
    Caught (forgetCurrentScope s) count := by
  unfold Cleat.forgetCurrentScope
  split
  · exact ⟨caught.forward, caught.position, caught.active.unsuspended, caught.active.body⟩
  · exact caught

theorem Ahead.forgetCurrentScope (ahead : Ahead s count rest) :
    Ahead (forgetCurrentScope s) count rest := by
  unfold Cleat.forgetCurrentScope
  split
  · exact ⟨ahead.replaying, ahead.position, ahead.remaining, ahead.active.unsuspended,
      ahead.active.body⟩
  · exact ahead

/-- Releasing the current scope's key asks the store at most once and forgets the key. -/
theorem ensures_releaseCurrentScope {α : Type} {next : ExecSession → Work α}
    {post : Trace → Option α → Prop} (begun : post [] none)
    (released : ∀ asked : Trace, Silent asked →
      (next (forgetCurrentScope s)).Ensures Usual fun trace outcome =>
        post (asked ++ trace) outcome) :
    (releaseCurrentScope engine s >>= next).Ensures Usual post := by
  unfold releaseCurrentScope
  unfold forgetCurrentScope at released
  split
  · rename_i within
    rw [if_pos within] at released
    split
    · simp only [ask_eq, ask_bind, done_bind, ensures_ask]
      exact ⟨begun, fun answer _ =>
        released [⟨.releaseConcurrencyKey s.scopeKey, answer⟩]
          (by simp)⟩
    · exact released [] silent_nil
  · rename_i outside
    rw [if_neg outside] at released
    exact released [] silent_nil

theorem Standing.forward_enter (standing : Standing) (count : Nat) :
    (standing.forward count).enter objectType instanceKey =
      (standing.enter objectType instanceKey).forward count := by
  have release : (standing.forward count).release = standing.release.forward count := by
    unfold release
    change (if standing.inScope then _ else _) = _
    split <;> rfl
  unfold enter
  rw [release]
  rfl

/-- Setting a scope outside the history: the old scope's key is released, the new one's is
asked for, and the answer is recorded. The session enters the scope or is suspended. -/
theorem ensures_freshSetScope {post : Trace → Option Replied → Prop}
    (stored : engine.db = true) (configured : engine.concurrencyKeyStore = true)
    (forward : s.isReplay = false) (setting : clears objectType instanceKey = false)
    (durable : FlushesPersist Usual) (cut : ∀ trace, Silent trace → post trace none)
    (refused : ∀ asked record checksum answer reply parked, Silent asked →
      record.step = s.stepCount → record.eventType = .scopeAcquired → answer ≠ .ok true →
      Usual ⟨.acquireConcurrencyKey (scopeKeyOf objectType instanceKey), answer⟩ →
      parked.suspendErr ≠ none →
      post (asked ++ [⟨.flushEvent record checksum, .persisted⟩]) (some (reply, parked)))
    (granted : ∀ asked record checksum entered, Silent asked →
      record.step = s.stepCount → Acquired record →
      Usual ⟨.acquireConcurrencyKey (scopeKeyOf objectType instanceKey), .ok true⟩ →
      entered.standing = (s.standing.enter objectType instanceKey).forward 1 →
      (∀ count, Caught s count → Caught entered (count + 1)) →
      post (asked ++ [⟨.flushEvent record checksum, .persisted⟩])
        (some (s.standing.previous buffer, entered))) :
    (freshSetScope engine s objectType instanceKey buffer).Ensures Usual post := by
  have unclear : (objectType = "" && instanceKey = "" : Bool) = false := setting
  have position : (forgetCurrentScope s).stepCount = s.stepCount := by
    unfold forgetCurrentScope
    split <;> rfl
  have forward' : (forgetCurrentScope s).isReplay = false := by
    unfold forgetCurrentScope
    split <;> exact forward
  unfold freshSetScope
  simp only [unclear, Bool.false_eq_true, if_false]
  refine ensures_releaseCurrentScope (cut [] silent_nil) fun asked silent => ?_
  unfold acquireScope
  simp only [configured, if_true, ask_eq, ask_bind, done_bind,
    ensures_ask]
  refine ⟨cut _ (by simpa using silent), fun answer usual => ?_⟩
  have queried : ∀ answer, Silent (asked ++
      [⟨.acquireConcurrencyKey (scopeKeyOf objectType instanceKey), answer⟩]) := by
    intro answer
    simpa using silent
  have timed : ∀ answer (clockMs : Int), Silent (asked ++
      [⟨.acquireConcurrencyKey (scopeKeyOf objectType instanceKey), answer⟩, ⟨.now, clockMs⟩]) := by
    intro answer clockMs
    simpa using silent
  have refusal : ∀ answer err reply reason, answer ≠ .ok true →
      Usual ⟨.acquireConcurrencyKey (scopeKeyOf objectType instanceKey), answer⟩ →
      (recordEvent engine (forgetCurrentScope s) (scopeEvent (forgetCurrentScope s).stepCount
          (scopeKeyOf objectType instanceKey) err) >>= fun result =>
        pure (reply, suspendScope result.2 reason)).Ensures Usual fun trace outcome =>
          post (asked ++ ⟨.acquireConcurrencyKey (scopeKeyOf objectType instanceKey), answer⟩ ::
            trace) outcome := by
    intro answer err reply reason denied usual
    refine ensures_recordEvent stored forward' rfl durable (cut _ (queried answer))
      (fun clockMs => cut _ (timed answer clockMs)) fun clockMs checksum after recorded => ?_
    have left := refused _ (stampEvent (forgetCurrentScope s)
      (scopeEvent (forgetCurrentScope s).stepCount (scopeKeyOf objectType instanceKey) err) clockMs)
      checksum answer reply (suspendScope after reason) (timed answer clockMs) position rfl denied
      usual (by simp [suspendScope])
    simpa using left
  rcases answer with reason | acquired
  · exact refusal (.error reason) reason _ _ (by simp) usual
  cases acquired with
  | false => exact refusal (.ok false) scopeHeldError _ _ (by simp) usual
  | true =>
    refine ensures_recordEvent stored forward' rfl durable (cut _ (queried _))
      (fun clockMs => cut _ (timed _ clockMs)) fun clockMs checksum after recorded => ?_
    have left := granted _ (stampEvent { forgetCurrentScope s with heldScopes :=
        (forgetCurrentScope s).heldScopes ++ [scopeKeyOf objectType instanceKey] }
      (scopeEvent (forgetCurrentScope s).stepCount (scopeKeyOf objectType instanceKey) "") clockMs)
      checksum (enterScope after objectType instanceKey) (timed (.ok true) clockMs) position
      ⟨rfl, rfl⟩ usual ?_ ?_
    · simpa [scopeReply_eq] using left
    · have entered : (enterScope after objectType instanceKey).standing =
          { after.standing with
            scopeSet := true
            scopeObjType := objectType
            scopeInstKey := instanceKey
            scopePrefix := scopeKeyOf objectType instanceKey ++ ":" } := rfl
      rw [entered, recorded.standing]
      simp only [enter, ← standing_forgetCurrentScope]
      rfl
    · intro count caught
      have forgot := caught.forgetCurrentScope
      have moved : Caught after (count + 1) := recorded.caught
        ⟨forgot.forward, forgot.position, forgot.active.unsuspended, forgot.active.body⟩
      exact ⟨moved.forward, moved.position, moved.active.unsuspended, moved.active.body⟩

section

variable (clearing : clears objectType instanceKey = true)

include clearing

/-- Clearing a scope writes nothing. -/
theorem freshSetScope_clear (caught : Caught s count) :
    (freshSetScope engine s objectType instanceKey buffer).Ensures Usual fun trace outcome =>
      Silent trace ∧ ∀ reply after, outcome = some (reply, after) →
        reply = s.standing.previous buffer ∧ after.standing = s.standing.leave ∧
          Caught after count := by
  have clear : (objectType = "" && instanceKey = "" : Bool) = true := clearing
  have forgot := caught.forgetCurrentScope
  unfold freshSetScope clearScope
  simp only [clear, if_true, bind_assoc]
  refine ensures_releaseCurrentScope (by simp) fun asked silent =>
    ⟨by simpa using silent, fun reply after given => ?_⟩
  cases given
  refine ⟨rfl, ?_, forgot.forward, forgot.position, forgot.active.unsuspended, forgot.active.body⟩
  simp only [leave, ← standing_forgetCurrentScope]
  rfl

variable (runs : (setScope engine s objectType instanceKey buffer).Runs trace outcome)

include runs

/-- Clearing a scope when the history is consumed. -/
theorem setScope_clear_caught (caught : Caught s count) :
    Silent trace ∧ ∀ reply after, outcome = some (reply, after) →
      reply = s.standing.previous buffer ∧ after.standing = s.standing.leave ∧
        Caught after count := by
  simp only [setScope, caught.forward, Bool.false_eq_true, if_false] at runs
  exact (freshSetScope_clear clearing caught).of_runs runs (fun _ _ => trivial)

/-- Clearing a scope at any point of a run. -/
theorem setScope_clear (place : Ahead s count rest ∨ rest = [] ∧ Caught s count) :
    Silent trace ∧ ∀ reply after, outcome = some (reply, after) →
      reply = s.standing.previous buffer ∧ after.standing = s.standing.leave ∧
        (Ahead after count rest ∨ rest = [] ∧ Caught after count) := by
  rcases place with ahead | ⟨rfl, caught⟩
  · have clear : (objectType = "" && instanceKey = "" : Bool) = true := clearing
    have replayed : setScope engine s objectType instanceKey buffer =
        .done (scopeReply s buffer, leaveScope (forgetCurrentScope s)) := by
      simp only [setScope, replaySetScope, ahead.replaying, clear, if_true]
      rfl
    have forgot := ahead.forgetCurrentScope
    rw [replayed] at runs
    obtain ⟨script, executed⟩ := runs
    cases executed
    refine ⟨silent_nil, fun reply after given => ?_⟩
    cases given
    refine ⟨rfl, ?_, .inl ⟨forgot.replaying, forgot.position, forgot.remaining,
      forgot.active.unsuspended, forgot.active.body⟩⟩
    simp only [leave, ← standing_forgetCurrentScope]
    rfl
  · obtain ⟨silent, answers⟩ := setScope_clear_caught clearing runs caught
    refine ⟨silent, fun reply after given => ?_⟩
    obtain ⟨replied, stands, moved⟩ := answers reply after given
    exact ⟨replied, stands, .inr ⟨rfl, moved⟩⟩

end

variable {before : Standing} {rows tail : History}

section

variable (setting : clears objectType instanceKey = false)

include setting

section

variable (begun : tail = [] ∨ ∃ failed, tail = [failed] ∧ RefusedScope failed)

include begun

/-- A successful acquisition completes the call. -/
theorem setScope_acquired (acquired : Acquired row) :
    (setScopeFormat before objectType instanceKey buffer).Block (before.previous buffer) true
      (tail ++ [row]) ((before.enter objectType instanceKey).forward (tail ++ [row]).length) := by
  refine ⟨rfl, rfl, ?_⟩
  rw [if_neg (by simp [setting])]
  refine ⟨rfl, ?_⟩
  rcases begun with rfl | ⟨failed, rfl, refused⟩
  · exact .inl ⟨row, rfl, acquired⟩
  · exact .inr ⟨failed, row, rfl, refused, acquired⟩

/-- What an attempt adds to at most one refused attempt. -/
theorem setScope_attempted (kind : row.eventType = .scopeAcquired) :
    (setScopeFormat before objectType instanceKey buffer).Unfinished (tail ++ [row]) := by
  by_cases silent : row.err = ""
  · exact .inr ⟨_, _, setScope_acquired setting begun ⟨kind, silent⟩⟩
  · refine .inl (.inr ⟨setting, ?_⟩)
    rcases begun with rfl | ⟨failed, rfl, refused⟩
    · exact .inl ⟨row, rfl, kind, silent⟩
    · exact .inr ⟨failed, row, rfl, refused, kind, silent⟩

/-- An attempt behind at most one refused attempt records its result. -/
theorem freshSetScope_leaves (stored : engine.db = true)
    (configured : engine.concurrencyKeyStore = true) (dense : Dense (rows ++ tail))
    (caught : Caught s (rows ++ tail).length) (stands : s.standing = before.forward tail.length) :
    (freshSetScope engine s objectType instanceKey buffer).Ensures Durably
      (Leaves (setScopeFormat before objectType instanceKey buffer) rows tail) := by
  have unfinished : (setScopeFormat before objectType instanceKey buffer).Unfinished tail :=
    .inl (begun.imp_right fun single => ⟨setting, .inl single⟩)
  have sent : ∀ (asked : Trace) (record : EventRecord) (checksum : String), Silent asked →
      DispatchedAt rows.length (asked ++ [⟨.flushEvent record checksum, .persisted⟩]) := by
    intro asked record checksum silent
    have quiet : Undispatched (asked ++ [⟨.flushEvent record checksum, .persisted⟩]) := by
      simpa using silent.undispatched
    exact quiet.dispatchedAt
  refine ensures_freshSetScope stored configured caught.forward setting (fun _ _ _ usual => usual)
    (fun trace silent => .silent dense silent unfinished) ?_ ?_
  · intro asked record checksum answer reply parked silent placed kind _ _ suspended
    exact Leaves.appended asked [] dense (placed.trans caught.position) silent.reads (by simp)
      (sent asked record checksum silent)
      (.inr ⟨.inr suspended, setScope_attempted setting begun kind⟩)
  · intro asked record checksum entered silent placed acquired _ standing moved
    refine Leaves.appended asked [] dense (placed.trans caught.position) silent.reads (by simp)
      (sent asked record checksum silent) (.inl ⟨by simp, ⟨true, ?_⟩, .inr ?_⟩)
    · have landed : entered.standing =
          (before.enter objectType instanceKey).forward (tail ++ [rowOf record]).length := by
        rw [standing, stands, forward_enter]
        simp [forward, Nat.add_assoc]
      rw [landed, stands]
      exact setScope_acquired setting begun acquired
    · simpa [Nat.add_assoc] using moved _ caught

end

/-- An attempt whose step already has a row writes nothing, and if the store decides as it
did then, it is suspended or acquires the scope again. -/
theorem freshSetScope_repeated {again : EventRecord} (stored : engine.db = true)
    (configured : engine.concurrencyKeyStore = true) (dense : Dense (rows ++ [failed, again]))
    (caught : Caught s (rows.length + 1)) (kind : again.eventType = .scopeAcquired) :
    (freshSetScope engine s objectType instanceKey buffer).Ensures
      (fun observed => Durably observed ∧ Grants (again.err = "") observed) fun trace outcome =>
        Undispatched trace ∧ writes (rows ++ [failed, again]) trace = rows ++ [failed, again] ∧
          ∀ reply after, outcome = some (reply, after) →
            if again.err = "" then reply = s.standing.previous buffer ∧
              after.standing = (s.standing.enter objectType instanceKey).forward 1 ∧
              Caught after (rows.length + 2)
            else after.suspendErr ≠ none := by
  have recorded : ∀ (asked : Trace) (record : EventRecord) (checksum : String),
      Silent asked → record.step = s.stepCount →
      Undispatched (asked ++ [⟨.flushEvent record checksum, .persisted⟩]) ∧
        writes (rows ++ [failed, again]) (asked ++ [⟨.flushEvent record checksum, .persisted⟩]) =
          rows ++ [failed, again] := by
    intro asked record checksum silent placed
    refine ⟨by simpa using silent.undispatched, ?_⟩
    rw [writes_append, writes_reads _ _ silent.reads]
    exact insertEvent_declined dense (placed.trans caught.position)
      (by simp [awaitsCompletion, kind])
  refine ensures_freshSetScope stored configured caught.forward setting
    (fun _ _ _ usual => usual.1)
    (fun trace silent => ⟨silent.undispatched, writes_reads _ _ silent.reads, by simp⟩) ?_ ?_
  · intro asked record checksum answer reply parked silent placed _ denied usual suspended
    obtain ⟨quiet, unchanged⟩ := recorded asked record checksum silent placed
    refine ⟨quiet, unchanged, fun reply' after given => ?_⟩
    cases given
    have decided : answer = .ok true ↔ again.err = "" := usual.2
    rw [if_neg fun free => denied (decided.mpr free)]
    exact suspended
  · intro asked record checksum entered silent placed _ usual standing moved
    obtain ⟨quiet, unchanged⟩ := recorded asked record checksum silent placed
    refine ⟨quiet, unchanged, fun reply' after given => ?_⟩
    cases given
    have decided : (.ok true : Except String Bool) = .ok true ↔ again.err = "" := usual.2
    rw [if_pos (decided.mp rfl)]
    exact ⟨rfl, standing, moved _ caught⟩

/-- In front of a refused attempt the scope is set again at the next step. -/
theorem setScope_refused (ahead : Ahead s count (failed :: later)) (refused : RefusedScope failed) :
    setScope engine s objectType instanceKey buffer =
      freshSetScope engine (exitReplay (advanceReplayStep engine s failed)) objectType instanceKey
        buffer := by
  have unclear : (objectType = "" && instanceKey = "" : Bool) = false := setting
  simp [setScope, replaySetScope, ahead.replaying, unclear, ahead.lookup, refused.1, refused.2]

end

/-- A completed call sets or clears the scope again. -/
theorem setScope_replays (stored : engine.db = true) :
    (setScopeFormat s.standing objectType instanceKey buffer).ReplayedBy s
      (fun _ trace => engine.concurrencyKeyStore = true ∧
        ScopeAllowed objectType instanceKey s trace)
      (setScope engine s objectType instanceKey buffer) := by
  rintro earlier block later reply recorded after known trace outcome dense ahead owns _
    ⟨configured, allowed⟩ runs
  obtain ⟨rfl, rfl, owned⟩ := owns
  cases clearing : clears objectType instanceKey with
  | true =>
    rw [if_pos clearing] at owned
    obtain ⟨rfl, rfl⟩ := owned
    obtain ⟨silent, answers⟩ := setScope_clear clearing runs (.inl ahead)
    refine ⟨writes_reads _ _ silent.reads, silent.undispatched, fun reply' after' given => ?_⟩
    obtain ⟨rfl, stands, place⟩ := answers reply' after' given
    exact ⟨rfl, by simp, stands, place⟩
  | false =>
    have unclear : (objectType = "" && instanceKey = "" : Bool) = false := clearing
    rw [if_neg (by simp [clearing])] at owned
    obtain ⟨rfl, ⟨row, rfl, acquired⟩ | ⟨failed, row, rfl, refused, acquired⟩⟩ := owned
    · have forgot := (ahead.advance engine).forgetCurrentScope
      have replayed : setScope engine s objectType instanceKey buffer =
          .done (s.standing.previous buffer,
            { enterScope (forgetCurrentScope (advanceReplayStep engine s row)) objectType
                instanceKey with
              heldScopes := (forgetCurrentScope (advanceReplayStep engine s row)).heldScopes ++
                [scopeKeyOf objectType instanceKey] }) := by
        simp [setScope, replaySetScope, ahead.replaying, unclear, ahead.lookup, acquired.1,
          acquired.2, scopeReply_eq, enterScope]
      apply Replays.at_once ?_ replayed runs (by simp)
      swap
      · exact ⟨forgot.replaying, forgot.position, forgot.remaining, forgot.active.unsuspended,
          forgot.active.body⟩
      have advanced : (advanceReplayStep engine s row).standing = s.standing.forward 1 := rfl
      rw [← forward_enter, List.length_singleton, ← advanced, enter,
        ← standing_forgetCurrentScope]
      rfl
    · have retried := allowed.retried ahead.replaying clearing failed ahead.lookup refused
      rw [ahead.drop_next] at retried
      obtain ⟨rfl, grants⟩ : later = [] ∧ ∀ observed ∈ trace, Grants (row.err = "") observed := by
        cases later with
        | nil => exact ⟨rfl, retried⟩
        | cons next later => exact retried.elim
      rw [setScope_refused clearing ahead refused] at runs
      obtain ⟨quiet, unchanged, answers⟩ := (freshSetScope_repeated clearing stored configured
        dense (ahead.advance engine).exit acquired.1).of_runs runs
        fun observed member => ⟨allowed.durable observed member, grants observed member⟩
      refine ⟨unchanged, quiet, fun reply' after' given => ?_⟩
      have answered := answers reply' after' given
      rw [if_pos acquired.2] at answered
      obtain ⟨rfl, stands, caught⟩ := answered
      have advanced : (exitReplay (advanceReplayStep engine s failed)).standing =
          s.standing.forward 1 := rfl
      rw [advanced, forward_enter] at stands
      exact ⟨rfl, by simp, stands, .inr ⟨rfl, caught⟩⟩

/-- Setting or clearing a scope at the end of the rows leaves the call's own. -/
theorem setScope_leaves (stored : engine.db = true) :
    (setScopeFormat s.standing objectType instanceKey buffer).LeftBy s
      (fun trace => engine.concurrencyKeyStore = true ∧ ScopeAllowed objectType instanceKey s trace)
      (setScope engine s objectType instanceKey buffer) := by
  rintro rows tail trace outcome dense place begun ⟨configured, allowed⟩ runs
  cases clearing : clears objectType instanceKey with
  | true =>
    obtain rfl : tail = [] := by
      rcases begun with vacant | ⟨setting, _⟩
      · exact vacant
      · rw [clearing] at setting
        cases setting
    obtain ⟨silent, answers⟩ := setScope_clear clearing runs place
    refine .silent dense silent ?_
    match outcome, answers with
    | none, _ => exact .inl (.inl rfl)
    | some (reply, after), answers =>
      obtain ⟨rfl, stands, moved⟩ := answers reply after rfl
      refine .inl ⟨by simp, ⟨true, rfl, rfl, ?_⟩, moved.imp_right And.right⟩
      rw [if_pos clearing]
      exact ⟨rfl, stands⟩
  | false =>
    have fresh : ∀ session : ExecSession, Caught session (rows ++ tail).length →
        session.standing = s.standing.forward tail.length →
        (tail = [] ∨ ∃ failed, tail = [failed] ∧ RefusedScope failed) →
        setScope engine s objectType instanceKey buffer =
          freshSetScope engine session objectType instanceKey buffer →
        Leaves (setScopeFormat s.standing objectType instanceKey buffer) rows tail trace
          outcome := by
      intro session caught stands single unfolded
      rw [unfolded] at runs
      exact (freshSetScope_leaves clearing single stored configured dense caught stands).of_runs
        runs allowed.durable
    have unclear : (objectType = "" && instanceKey = "" : Bool) = false := clearing
    rcases place with ahead | ⟨rfl, caught⟩
    · rcases begun with rfl | ⟨_, ⟨failed, rfl, refused⟩ | ⟨failed, again, rfl, refused, second⟩⟩
      · exact fresh (exitReplay s) (by simpa using ahead.exit) rfl (.inl rfl)
          (by simp [setScope, replaySetScope, ahead.replaying, unclear, ahead.lookup_end])
      · exact fresh _ (by simpa using (ahead.advance engine).exit) rfl
          (.inr ⟨failed, rfl, refused⟩) (setScope_refused clearing ahead refused)
      · have retried := allowed.retried ahead.replaying clearing failed ahead.lookup refused
        have grants : ∀ observed ∈ trace, Grants (again.err = "") observed := by
          rwa [ahead.drop_next] at retried
        rw [setScope_refused clearing ahead refused] at runs
        obtain ⟨quiet, unchanged, answers⟩ := (freshSetScope_repeated clearing stored configured
          dense (ahead.advance engine).exit second.1).of_runs runs
          fun observed member => ⟨allowed.durable observed member, grants observed member⟩
        have waiting : (setScopeFormat s.standing objectType instanceKey buffer).Unfinished
            [failed, again] := .inl (.inr ⟨clearing, .inr ⟨failed, again, rfl, refused, second⟩⟩)
        refine Leaves.kept dense quiet unchanged (by simp) ?_
        match outcome, answers with
        | none, _ => exact waiting
        | some (reply, after), answers =>
          have parked := answers reply after rfl
          rw [if_neg second.2] at parked
          exact .inr ⟨.inr parked, waiting⟩
    · exact fresh s (by simpa using caught) rfl (.inl rfl)
        (by simp [setScope, caught.forward])

end Scope

end Cleat
