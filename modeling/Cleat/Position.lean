import Cleat.EventStore

/-!
# Where a session stands

A session either replays, with rows still ahead of it, or has left replay and
executes forward. Host calls move it along its rows; this module says how the common
operations do, and what recording an event does to the session and to the store. The
part of a session that neither replaying nor recording touches is its `core`.

The second half is the vocabulary for what one host call leaves behind. A `Format` says
which rows belong to a finished call and which to an unfinished one, and `Leaves` that a
call executed at the end of the rows left rows of its format.
-/
namespace Cleat

open Durable.Program List ExecSession

/-- The workflow's body is running and nothing has suspended it. -/
structure Active (s : ExecSession) : Prop where
  unsuspended : s.suspendErr = none
  body : s.inDeferDrain = false

/-- The session replays: it has consumed `count` rows and has `rest` in front of it. -/
structure Ahead (s : ExecSession) (count : Nat) (rest : History) : Prop where
  replaying : s.isReplay = true
  position : s.stepCount = count
  remaining : s.history.drop count = rest
  active : Active s

/-- The session executes forward from step `count`. -/
structure Caught (s : ExecSession) (count : Nat) : Prop where
  forward : s.isReplay = false
  position : s.stepCount = count
  active : Active s

/-- What replaying and recording leave alone. -/
def ExecSession.core (s : ExecSession) : ExecSession :=
  { s with
    history := []
    stepCount := 0
    isReplay := false
    nowMs := 0
    lastChecksum := ""
    eventCount := 0
    awaitRejected := false
    autoContinueAsNewTriggered := false
    ambiguity := none }

variable {s s' : ExecSession} {count : Nat} {row record : EventRecord}
  {rest later rows : History} {trace : Trace} {Usual : Observed → Prop}
  {engine : Engine} {α : Type} {post : Trace → Option α → Prop}

theorem Active.of_core (active : Active s) (same : s'.core = s.core) :
    Active s' where
  unsuspended := (congrArg suspendErr same).trans active.unsuspended
  body := (congrArg inDeferDrain same).trans active.body

@[simp] theorem core_exitReplay (s : ExecSession) : (exitReplay s).core = s.core := rfl

@[simp] theorem core_advanceReplayStep (engine : Engine) (s : ExecSession) (record : EventRecord) :
    (advanceReplayStep engine s record).core = s.core := rfl

theorem Ahead.remaining_eq (ahead : Ahead s count rest) : s.remaining = rest := by
  rw [ExecSession.remaining, ahead.position, ahead.remaining]

/-- The record at the session's step is the first of those ahead. -/
theorem Ahead.lookup (ahead : Ahead s count (row :: rest)) : s.current = some row :=
  current_of_remaining ahead.remaining_eq

/-- At the end of the history there is no record to replay. -/
theorem Ahead.lookup_end (ahead : Ahead s count []) : s.current = none :=
  current_of_remaining ahead.remaining_eq

/-- What follows a row in the history. -/
theorem Ahead.drop_next (ahead : Ahead s count (row :: later)) :
    s.history.drop (s.stepCount + 1) = later :=
  drop_of_remaining ahead.remaining_eq

theorem Ahead.lookup_next {next : EventRecord} (ahead : Ahead s count (row :: next :: rest)) :
    s.history[s.stepCount + 1]? = some next := by
  rw [ahead.position, ← head?_drop, ← tail_drop, ahead.remaining]
  rfl

theorem Ahead.lookup_next_end (ahead : Ahead s count [row]) : s.history[s.stepCount + 1]? = none := by
  rw [ahead.position, ← head?_drop, ← tail_drop, ahead.remaining]
  rfl

/-- Consuming the record ahead moves the session past it. -/
theorem Ahead.advance (ahead : Ahead s count (row :: rest)) (engine : Engine) :
    Ahead (advanceReplayStep engine s row) (count + 1) rest where
  replaying := ahead.replaying
  position := congrArg (· + 1) ahead.position
  remaining := by
    change s.history.drop (count + 1) = rest
    rw [← tail_drop, ahead.remaining]
    rfl
  active := ahead.active.of_core rfl

/-- Consume several recorded events. -/
def advanceAll (engine : Engine) (s : ExecSession) (rows : History) : ExecSession :=
  rows.foldl (advanceReplayStep engine) s

@[simp] theorem core_advanceAll (engine : Engine) (s : ExecSession) (rows : History) :
    (advanceAll engine s rows).core = s.core := by
  induction rows generalizing s with
  | nil => rfl
  | cons row rows ih => exact (ih (advanceReplayStep engine s row)).trans rfl

/-- Consuming several records moves the session past them. -/
theorem Ahead.advanceAll (ahead : Ahead s count (rows ++ rest)) (engine : Engine) :
    Ahead (advanceAll engine s rows) (count + rows.length) rest := by
  induction rows generalizing s count with
  | nil => exact ahead
  | cons row rows ih =>
    have moved := ih (ahead.advance engine)
    rwa [length_cons, Nat.add_comm rows.length 1, ← Nat.add_assoc]

/-- A session that leaves replay at the end of its history executes forward. -/
theorem Ahead.exit (ahead : Ahead s count rest) : Caught (exitReplay s) count where
  forward := rfl
  position := ahead.position
  active := ahead.active.of_core rfl

/-- The session after an event has been offered to the store. -/
def flushed (engine : Engine) (s : ExecSession) (stamped : EventRecord)
    (outcome : EventPersistence) : ExecSession :=
  if outcome = .flushFailed then appendEvent s stamped
  else { appendEvent s stamped with
    lastChecksum := engine.computeEventChecksum stamped s.lastChecksum }

@[simp] theorem core_flushed (engine : Engine) (s : ExecSession) (stamped : EventRecord)
    (outcome : EventPersistence) : (flushed engine s stamped outcome).core = s.core := by
  unfold flushed
  split <;> rfl

/-- Recording an event forwards: read the clock, then write. -/
theorem recordEvent_forward (engine : Engine) (s : ExecSession) (record : EventRecord)
    (stored : engine.db = true) (forward : s.isReplay = false) (unstamped : record.timestampMs = 0) :
    recordEvent engine s record =
      .ask .now fun clockMs =>
        .ask (.flushEvent (stampEvent s record clockMs)
          (engine.computeEventChecksum (stampEvent s record clockMs) s.lastChecksum)) fun outcome =>
          .done (outcome, flushed engine s (stampEvent s record clockMs) outcome) := by
  simp only [recordEvent, recordTime, unstamped, if_true, stored, forward, Bool.not_false,
    Bool.and_self, pure_eq]
  refine congrArg _ (funext fun clockMs => congrArg _ (funext fun outcome => ?_))
  unfold flushed
  split <;> rfl

/-- A recorded event moves a forward session by one step. -/
theorem Caught.flushed (caught : Caught s count) (engine : Engine) (stamped : EventRecord)
    (outcome : EventPersistence) : Caught (flushed engine s stamped outcome) (count + 1) where
  forward := by
    unfold Cleat.flushed
    split <;> exact caught.forward
  position := by
    unfold Cleat.flushed
    split <;> exact congrArg (· + 1) caught.position
  active := caught.active.of_core (core_flushed engine s stamped outcome)

/-- The rows after the interactions of a trace. -/
def writes (rows : History) (trace : Trace) : History :=
  trace.foldl applyObserved rows

@[simp] theorem writes_nil (rows : History) : writes rows [] = rows := rfl

@[simp] theorem writes_cons (rows : History) (observed : Observed) (trace : Trace) :
    writes rows (observed :: trace) = writes (applyObserved rows observed) trace := rfl

theorem writes_append (rows : History) (first second : Trace) :
    writes rows (first ++ second) = writes (writes rows first) second :=
  foldl_append ..

/-- The queries that can change the rows. -/
@[simp] def Query.isWrite : Query → Bool
  | .flushEvent _ _ | .writeCallIntent _ | .completeCallIntent _ _ | .resolveCallIntent _ => true
  | .startChildWorkflowAtomic _ _ _ _ _ _ _ => true
  | _ => false

/-- Every other answered query leaves the rows as they were. -/
theorem applyObserved_read (rows : History) (observed : Observed)
    (read : observed.query.isWrite = false) : applyObserved rows observed = rows := by
  obtain ⟨query, answer⟩ := observed
  cases query <;> first | rfl | cases read

/-- Nothing is written. -/
@[simp] abbrev OnlyReads (trace : Trace) : Prop :=
  ∀ observed ∈ trace, observed.query.isWrite = false

/-- A trace that writes nothing leaves the rows as they were. -/
theorem writes_reads (rows : History) (trace : Trace)
    (reads : OnlyReads trace) : writes rows trace = rows := by
  induction trace with
  | nil => rfl
  | cons observed trace ih =>
    rw [writes_cons, applyObserved_read rows observed (reads observed (by simp))]
    exact ih fun other member => reads other (by simp [member])

/-- Every recorded event is persisted. -/
def Durably : Observed → Prop
  | ⟨.flushEvent _ _, answer⟩ => answer = .persisted
  | _ => True

/-- What is usual persists every recorded event. -/
abbrev FlushesPersist (Usual : Observed → Prop) : Prop :=
  ∀ record checksum answer, Usual ⟨.flushEvent record checksum, answer⟩ → answer = .persisted

instance : DecidablePred Durably := fun observed => by
  unfold Durably
  split <;> infer_instance

/-- The step a request to the service is sent for. -/
@[simp] def Query.dispatchStep : Query → Option Nat
  | .callService _ _ _ step _ => some step
  | _ => none

/-- No request is sent to the service. -/
def Undispatched (trace : Trace) : Prop :=
  ∀ observed ∈ trace, observed.query.dispatchStep = none

attribute [local simp] Undispatched

/-- Nothing is written and no request is sent. -/
def Silent (trace : Trace) : Prop :=
  ∀ observed ∈ trace, observed.query.isWrite = false ∧ observed.query.dispatchStep = none

@[simp] theorem silent_nil : Silent [] := by simp [Silent]

@[simp] theorem silent_cons (observed : Observed) (trace : Trace) :
    Silent (observed :: trace) ↔
      (observed.query.isWrite = false ∧ observed.query.dispatchStep = none) ∧ Silent trace := by
  simp [Silent]

@[simp] theorem silent_append (first second : Trace) :
    Silent (first ++ second) ↔ Silent first ∧ Silent second := by
  simp only [Silent, forall_mem_append]

theorem Silent.reads (silent : Silent trace) : OnlyReads trace :=
  fun observed member => (silent observed member).1

theorem Silent.undispatched (silent : Silent trace) : Undispatched trace :=
  fun observed member => (silent observed member).2

/-- Requests are sent to the service for one step only. -/
@[simp] abbrev DispatchedAt (place : Nat) (trace : Trace) : Prop :=
  ∀ observed ∈ trace, ∀ step, observed.query.dispatchStep = some step → step = place

theorem Undispatched.dispatchedAt {place : Nat} (quiet : Undispatched trace) :
    DispatchedAt place trace := by
  intro observed member step sent
  rw [quiet observed member] at sent
  cases sent

@[simp] theorem undispatched_nil : Undispatched [] := by simp

@[simp] theorem undispatched_cons (observed : Observed) (trace : Trace) :
    Undispatched (observed :: trace) ↔
      observed.query.dispatchStep = none ∧ Undispatched trace := by
  simp

@[simp] theorem undispatched_append (first second : Trace) :
    Undispatched (first ++ second) ↔ Undispatched first ∧ Undispatched second := by
  simp only [Undispatched, forall_mem_append]

/-- The event of a service call has been made durable, with or without its outcome. -/
def writesCallEvent : Observed → Bool
  | ⟨.flushEvent record _, .persisted⟩ => record.eventType = .call
  | ⟨.writeCallIntent _, .ok _⟩ => true
  | _ => false

/-- Some interaction made the event of a service call durable. -/
def WritesCallEvent (trace : Trace) : Prop :=
  ∃ observed ∈ trace, writesCallEvent observed = true

/-- A trace that writes nothing makes no call event durable. -/
theorem not_writesCallEvent (reads : OnlyReads trace) : ¬ WritesCallEvent trace := by
  rintro ⟨observed, member, writes⟩
  have read := reads observed member
  obtain ⟨query, answer⟩ := observed
  cases query <;> simp at read <;> simp [writesCallEvent] at writes

/-- The stop word is a single bit of the result word. -/
theorem suspends_eq (reply : Reply) : reply.suspends = reply.word.toBitVec.getLsbD 31 := by
  have sentinel : callSuspendSentinel.toBitVec = BitVec.twoPow 64 31 := by decide
  have masked : (reply.word &&& callSuspendSentinel).toBitVec =
      if reply.word.toBitVec.getLsbD 31 then BitVec.twoPow 64 31 else 0#64 := by
    rw [UInt64.toBitVec_and, sentinel, BitVec.and_twoPow]
  cases bit : reply.word.toBitVec.getLsbD 31 with
  | false =>
    have zero : reply.word &&& callSuspendSentinel = 0 :=
      UInt64.toBitVec_inj.mp (by rw [masked, bit]; rfl)
    simp [Reply.suspends, zero]
  | true =>
    have nonzero : reply.word &&& callSuspendSentinel ≠ 0 := by
      intro zero
      rw [zero, bit] at masked
      exact absurd masked (by decide)
    simp [Reply.suspends, nonzero]

@[simp] theorem suspends_sentinel (out : List Bytes) :
    Reply.suspends ⟨callSuspendSentinel, out⟩ = true := by
  rw [suspends_eq]
  change callSuspendSentinel.toBitVec.getLsbD 31 = true
  decide

@[simp] theorem suspends_callFailed (buffer : OutBuf) (message : Bytes) (code : UInt8) :
    (callFailed buffer message code).suspends = false := by
  simp [suspends_eq, callFailed, packDurableCallResult]

@[simp] theorem suspends_callSucceeded (buffer : OutBuf) (response : Bytes) :
    (callSucceeded buffer response).suspends = false := by
  simp [suspends_eq, callSucceeded, packDurableCallResult]

@[simp] theorem suspends_simpleValue (buffer : OutBuf) (value : Bytes) :
    (simpleValue buffer value).suspends = false := by
  simp [suspends_eq, simpleValue, packSimpleResult]

@[simp] theorem suspends_simpleFailed (buffer : OutBuf) (message : Bytes) :
    (simpleFailed buffer message).suspends = false := by
  simp [suspends_eq, simpleFailed, packSimpleResult]

theorem errCode_simpleFailed (buffer : OutBuf) (message : Bytes) :
    (simpleFailed buffer message).errCode = 1 := by
  simp only [Reply.errCode, simpleFailed, packSimpleResult]
  apply UInt8.toBitVec_inj.mp
  ext index inside
  simp

/-- What can be seen of a session: its step and its scope. -/
structure Standing where
  stepCount : Nat
  scopeSet : Bool
  scopePrefix : String
  scopeObjType : String
  scopeInstKey : String
  heldScopes : List String
deriving DecidableEq, Repr

def ExecSession.standing (s : ExecSession) : Standing :=
  ⟨s.stepCount, s.scopeSet, s.scopePrefix, s.scopeObjType, s.scopeInstKey, s.heldScopes⟩

/-- The same scope, a number of steps further. -/
def Standing.forward (standing : Standing) (count : Nat) : Standing :=
  { standing with stepCount := standing.stepCount + count }

/-- A session that kept its core has kept its scope. -/
theorem standing_forward (same : s'.core = s.core) (moved : s'.stepCount = s.stepCount + count) :
    s'.standing = s.standing.forward count := by
  have scope := congrArg scopeSet same
  have scopePrefix := congrArg scopePrefix same
  have objType := congrArg scopeObjType same
  have instKey := congrArg scopeInstKey same
  have held := congrArg heldScopes same
  simp only [core] at scope scopePrefix objType instKey held
  simp [standing, Standing.forward, scope, scopePrefix, objType, instKey, held, moved]

@[simp] theorem standing_flushed (engine : Engine) (s : ExecSession) (stamped : EventRecord)
    (outcome : EventPersistence) :
    (flushed engine s stamped outcome).standing = s.standing.forward 1 := by
  unfold flushed
  split <;> rfl

/-- The session after an event has been recorded in a session that executes forward. -/
structure Recorded (s after : ExecSession) : Prop where
  core : after.core = s.core
  standing : after.standing = s.standing.forward 1
  caught : ∀ {count : Nat}, Caught s count → Caught after (count + 1)

theorem recorded_flushed (engine : Engine) (s : ExecSession) (stamped : EventRecord)
    (outcome : EventPersistence) : Recorded s (flushed engine s stamped outcome) :=
  ⟨core_flushed .., standing_flushed .., fun caught => caught.flushed engine _ _⟩

/-- A program that records an event and goes on, when every write is durable: it may be cut
before it reads the clock and before it writes, and goes on with the event written. -/
theorem ensures_recordEvent {next : EventPersistence × ExecSession → Work α}
    (stored : engine.db = true) (forward : s.isReplay = false) (unstamped : record.timestampMs = 0)
    (durable : FlushesPersist Usual) (begun : post [] none)
    (stamped : ∀ clockMs : Int, post [⟨.now, clockMs⟩] none)
    (written : ∀ (clockMs : Int) (checksum : String) (after : ExecSession), Recorded s after →
      (next (.persisted, after)).Ensures Usual fun trace outcome =>
        post (⟨.now, clockMs⟩ :: ⟨.flushEvent (stampEvent s record clockMs) checksum,
          .persisted⟩ :: trace) outcome) :
    (recordEvent engine s record >>= next).Ensures Usual post := by
  simp only [recordEvent_forward engine s record stored forward unstamped, ask_bind,
    done_bind, ensures_ask]
  refine ⟨begun, fun clockMs _ => ⟨stamped clockMs, fun answer usual => ?_⟩⟩
  obtain rfl := durable _ _ _ usual
  exact written clockMs _ _ (recorded_flushed ..)

/-- Recording an event sends nothing, writes at most that event, and appends it to the
history whatever becomes of the write. -/
theorem recordEvent_appends (engine : Engine) (s : ExecSession) (record : EventRecord) :
    (recordEvent engine s record).Ensures Usual fun trace outcome =>
      Undispatched trace ∧
        (∀ written ∈ trace.filterMap persistedEvent, written.step = record.step) ∧
        ∀ persistence after, outcome = some (persistence, after) →
          after.core = s.core ∧ after.standing = s.standing.forward 1 := by
  have timed : (recordTime record).Ensures Usual fun trace _ =>
      Undispatched trace ∧ trace.filterMap persistedEvent = [] := by
    unfold recordTime
    split <;> simp [ask_eq, persistedEvent]
  unfold recordEvent
  rw [ensures_bind]
  refine timed.mono fun trace outcome asked => ?_
  obtain ⟨unsent, unwritten⟩ := asked
  cases outcome with
  | none => exact ⟨unsent, by simp [unwritten], by simp⟩
  | some clockMs =>
    dsimp only
    split
    · simp only [ask_eq, ask_bind, done_bind, ensures_ask]
      refine ⟨⟨by simpa using unsent, by simp [unwritten], by simp⟩, fun persistence _ => ?_⟩
      have sent : Undispatched (trace ++ [⟨.flushEvent (stampEvent s record clockMs)
          (engine.computeEventChecksum (stampEvent s record clockMs) s.lastChecksum),
          persistence⟩]) := by
        simpa [or_imp, forall_and] using unsent
      have own : ∀ written ∈ filterMap persistedEvent (trace ++ [⟨.flushEvent
          (stampEvent s record clockMs)
          (engine.computeEventChecksum (stampEvent s record clockMs) s.lastChecksum),
          persistence⟩]), written.step = record.step := by
        rw [filterMap_append, unwritten, nil_append]
        cases persistence <;> simp [persistedEvent, stampEvent]
      split <;>
      · refine ⟨sent, own, fun kind after given => ?_⟩
        cases given
        exact ⟨rfl, rfl⟩
    · refine ⟨by simpa using unsent, by simp [unwritten], fun kind after given => ?_⟩
      cases given
      exact ⟨rfl, rfl⟩

/-- A session that has recorded an event stands behind one more row. -/
theorem Recorded.behind {s after : ExecSession} {before : Standing} {rows tail : History}
    (recorded : Recorded s after) (caught : Caught s (rows ++ tail).length)
    (stands : s.standing = before.forward tail.length) (row : EventRecord) :
    after.standing = before.forward (tail ++ [row]).length ∧
      Caught after (rows.length + (tail ++ [row]).length) := by
  constructor
  · simp [recorded.standing, stands, Standing.forward, Nat.add_assoc]
  · simpa [Nat.add_assoc] using recorded.caught caught

/-- The session stands at the end of its rows, replaying or not. -/
def AtEnd (s : ExecSession) (count : Nat) : Prop := Ahead s count [] ∨ Caught s count

/-- The rows of one call: those of a finished call with its reply, whether they determine
that reply, and where the call leaves the session; and those of a call in progress. -/
structure Format where
  Block : Reply → Bool → History → Standing → Prop
  Tail : History → Prop

/-- The rows of a call that has not returned: none, those of a call in progress, or
already all of a finished one. -/
def Format.Unfinished (format : Format) (written : History) : Prop :=
  (written = [] ∨ format.Tail written) ∨ ∃ reply after, format.Block reply true written after

/-- How the rows a call has written fit its outcome. A call whose reply is final has
written a block and stands behind it. -/
def Format.Ends (format : Format) (count : Nat) (written : History) :
    Option Replied → Prop
  | none => format.Unfinished written
  | some (reply, after) =>
    (reply.suspends = false ∧ (∃ recorded, format.Block reply recorded written after.standing) ∧
      AtEnd after (count + written.length)) ∨
    ((reply.suspends = true ∨ after.suspendErr ≠ none) ∧ format.Unfinished written)

/-- What a call leaves that was executed behind `rows`, where `tail` was written by earlier
executions of it: its requests are sent for the step it began at, and the rows from there
on are its own. -/
structure Leaves (format : Format) (rows tail : History) (trace : Trace)
    (outcome : Option Replied) : Prop where
  dispatched : DispatchedAt rows.length trace
  left : ∃ written, writes (rows ++ tail) trace = rows ++ written ∧ Dense (rows ++ written) ∧
    (WritesCallEvent trace → written ≠ []) ∧ format.Ends rows.length written outcome

section Leaves

variable {format : Format} {rows tail : History} {trace : Trace} {outcome : Option Replied}

/-- A call that wrote nothing leaves the rows it found. -/
theorem Leaves.unchanged (dense : Dense (rows ++ tail))
    (reads : OnlyReads trace) (dispatched : DispatchedAt rows.length trace) (ends : format.Ends rows.length tail outcome) :
    Leaves format rows tail trace outcome where
  dispatched := dispatched
  left := ⟨tail, writes_reads _ _ reads, dense,
    fun writes => absurd writes (not_writesCallEvent reads), ends⟩

/-- A call that neither wrote nor sent anything leaves the rows it found. -/
theorem Leaves.silent (dense : Dense (rows ++ tail)) (silent : Silent trace)
    (ends : format.Ends rows.length tail outcome) : Leaves format rows tail trace outcome :=
  .unchanged dense silent.reads silent.undispatched.dispatchedAt ends

/-- A call that sent nothing and whose writes were all in vain leaves the rows it found. -/
theorem Leaves.kept (dense : Dense (rows ++ tail)) (quiet : Undispatched trace)
    (unchanged : writes (rows ++ tail) trace = rows ++ tail) (begun : tail ≠ [])
    (ends : format.Ends rows.length tail outcome) : Leaves format rows tail trace outcome where
  dispatched := quiet.dispatchedAt
  left := ⟨tail, unchanged, dense, fun _ => begun, ends⟩

variable {record : EventRecord} {Usual : Observed → Prop} {engine : Engine} {s : ExecSession}
  {next : EventPersistence × ExecSession → Work Replied}

/-- A call that recorded one event, after and before queries that write nothing, leaves
that event's row behind those it found. -/
theorem Leaves.appended {checksum : String} (earlier later : Trace)
    (dense : Dense (rows ++ tail)) (next : record.step = (rows ++ tail).length)
    (readsEarlier : OnlyReads earlier) (readsLater : OnlyReads later)
    (dispatched : DispatchedAt rows.length
      (earlier ++ ⟨.flushEvent record checksum, .persisted⟩ :: later))
    (ends : format.Ends rows.length (tail ++ [rowOf record]) outcome) :
    Leaves format rows tail (earlier ++ ⟨.flushEvent record checksum, .persisted⟩ :: later)
      outcome where
  dispatched := dispatched
  left := by
    have stepped : (rowOf record).step = (rows ++ tail).length := next
    refine ⟨tail ++ [rowOf record], ?_, ?_, by simp, ends⟩
    · rw [writes_append, writes_reads _ _ readsEarlier, writes_cons, writes_reads _ _ readsLater,
        ← append_assoc]
      exact dense.insertEvent stepped
    · rw [← append_assoc]
      exact dense.snoc stepped

/-- What a call leaves that first added to the rows it found, without finishing. -/
theorem Leaves.continued {added : History} (earlier : Trace)
    (wrote : writes (rows ++ tail) earlier = rows ++ added)
    (dispatched : DispatchedAt rows.length earlier) (uncalled : ¬ WritesCallEvent earlier)
    (leaves : Leaves format rows added trace outcome) :
    Leaves format rows tail (earlier ++ trace) outcome where
  dispatched := forall_mem_append.mpr ⟨dispatched, leaves.dispatched⟩
  left := by
    obtain ⟨written, wroteLater, dense, owned, ends⟩ := leaves.left
    refine ⟨written, ?_, dense, ?_, ends⟩
    · rw [writes_append, wrote]
      exact wroteLater
    · rintro ⟨observed, member, writes⟩
      rcases mem_append.mp member with early | late
      · exact absurd ⟨observed, early, writes⟩ uncalled
      · exact owned ⟨observed, late, writes⟩

/-- Queries in front of a call that write and send nothing do not change what it leaves. -/
theorem Leaves.after (earlier : Trace) (silent : Silent earlier)
    (leaves : Leaves format rows tail trace outcome) :
    Leaves format rows tail (earlier ++ trace) outcome :=
  leaves.continued earlier (writes_reads _ _ silent.reads) silent.undispatched.dispatchedAt
    (not_writesCallEvent silent.reads)

/-- A call leaves rows of every format that includes its own. -/
theorem Leaves.widen {wider : Format}
    (block : ∀ reply recorded written after, format.Block reply recorded written after →
      wider.Block reply recorded written after)
    (begun : ∀ written, format.Tail written → wider.Tail written)
    (leaves : Leaves format rows tail trace outcome) : Leaves wider rows tail trace outcome where
  dispatched := leaves.dispatched
  left := by
    have unfinished : ∀ written, format.Unfinished written → wider.Unfinished written :=
      fun written => Or.imp (Or.imp_right (begun written))
        fun ⟨reply, after, owns⟩ => ⟨reply, after, block _ _ _ _ owns⟩
    obtain ⟨written, wrote, dense, owned, ends⟩ := leaves.left
    refine ⟨written, wrote, dense, owned, ?_⟩
    match outcome, ends with
    | none, left => exact unfinished written left
    | some (reply, after), .inl ⟨resumes, ⟨recorded, owns⟩, place⟩ =>
      exact .inl ⟨resumes, ⟨recorded, block _ _ _ _ owns⟩, place⟩
    | some (reply, after), .inr ⟨stops, left⟩ => exact .inr ⟨stops, unfinished written left⟩

theorem Leaves.ensures_after {program : Work Replied} (earlier : Trace)
    (silent : Silent earlier) (executed : program.Ensures Usual (Leaves format rows tail)) :
    program.Ensures Usual fun trace outcome =>
      Leaves format rows tail (earlier ++ trace) outcome :=
  executed.mono fun _ _ leaves => leaves.after earlier silent

variable (stored : engine.db = true) (caught : Caught s (rows ++ tail).length)
  (dense : Dense (rows ++ tail)) (placed : record.step = s.stepCount)
  (unstamped : record.timestampMs = 0) (durable : FlushesPersist Usual)
  (unfinished : format.Unfinished tail)

include stored caught dense placed unstamped durable unfinished

/-- Recording an event at the end of the rows and returning leaves the event's row. -/
theorem recordEvent_leaves (finish : ExecSession → Replied)
    (returns : ∀ persistence after, next (persistence, after) = .done (finish after))
    (ends : ∀ clockMs after, Recorded s after →
      format.Ends rows.length (tail ++ [rowOf (stampEvent s record clockMs)])
        (some (finish after))) :
    (recordEvent engine s record >>= next).Ensures Usual (Leaves format rows tail) := by
  refine ensures_recordEvent stored caught.forward unstamped durable
    (.silent dense silent_nil unfinished) (fun clockMs => .silent dense
      (by simp) unfinished) fun clockMs checksum after recorded => ?_
  rw [returns, ensures_done]
  exact Leaves.appended [_] [] dense (placed.trans caught.position) (by simp)
    (by simp) (by simp) (ends clockMs after recorded)

/-- A call that records an event on its way goes on behind that event's row. -/
theorem recordEvent_continues (uncalled : record.eventType ≠ .call)
    (goes : ∀ clockMs after, Recorded s after →
      Dense (rows ++ (tail ++ [rowOf (stampEvent s record clockMs)])) →
      (next (.persisted, after)).Ensures Usual
        (Leaves format rows (tail ++ [rowOf (stampEvent s record clockMs)]))) :
    (recordEvent engine s record >>= next).Ensures Usual (Leaves format rows tail) := by
  refine ensures_recordEvent stored caught.forward unstamped durable
    (.silent dense silent_nil unfinished) (fun clockMs => .silent dense
      (by simp) unfinished) fun clockMs checksum after recorded => ?_
  have stepped : (rowOf (stampEvent s record clockMs)).step = (rows ++ tail).length :=
    placed.trans caught.position
  have dense' : Dense (rows ++ (tail ++ [rowOf (stampEvent s record clockMs)])) := by
    rw [← append_assoc]
    exact dense.snoc stepped
  refine (goes clockMs after recorded dense').mono fun trace outcome leaves =>
    leaves.continued [⟨.now, clockMs⟩, ⟨.flushEvent (stampEvent s record clockMs) checksum,
      .persisted⟩] ?_ (by simp) ?_
  · rw [← append_assoc]
    exact dense.insertEvent stepped
  · simpa [WritesCallEvent, writesCallEvent, stampEvent] using uncalled

end Leaves

/-- An event for a step that has a finished row is not written. -/
theorem insertEvent_declined {first : EventRecord} (dense : Dense (rows ++ [first, row]))
    (placed : record.step = rows.length + 1) (finished : awaitsCompletion row = false) :
    insertEvent (rows ++ [first, row]) (rowOf record) = rows ++ [first, row] := by
  have split : Dense ((rows ++ [first]) ++ row :: []) := by simpa using dense
  have taken : (rowOf record).step = (rows ++ [first]).length := by simpa [rowOf] using placed
  simpa using split.insertEvent_taken taken finished

/-- What a session may have asked to know whether it must stop. -/
def AsksToStop (asked : Trace) : Prop :=
  asked = [] ∨ ∃ answer, asked = [⟨.shutdownObserved, answer⟩]

theorem AsksToStop.silent {asked : Trace} (asks : AsksToStop asked) : Silent asked := by
  rcases asks with rfl | ⟨answer, rfl⟩
  · exact silent_nil
  · simp

/-- A program that asks whether it must stop and goes on with the answer. -/
theorem ensures_stopBeforeNewWork {next : Bool → Work α} (begun : post [] none)
    (decided : ∀ stop asked, AsksToStop asked →
      (next stop).Ensures Usual fun trace outcome => post (asked ++ trace) outcome) :
    (stopBeforeNewWork engine s >>= next).Ensures Usual post := by
  unfold stopBeforeNewWork
  split
  · exact decided true [] (.inl rfl)
  · exact ⟨begun, fun answer _ => decided answer [⟨.shutdownObserved, answer⟩]
      (.inr ⟨answer, rfl⟩)⟩

/-- A call that stops if it must not start work, and is executed otherwise. -/
theorem ensures_unlessStopped {format : Format} {tail : History}
    {fresh : Work Replied} (dense : Dense (rows ++ tail))
    (unfinished : format.Unfinished tail) (executed : fresh.Ensures Usual (Leaves format rows tail)) :
    (stopBeforeNewWork engine s >>= fun stop =>
      if stop then pure (suspendReply, s) else fresh).Ensures Usual
      (Leaves format rows tail) := by
  refine ensures_stopBeforeNewWork (.silent dense silent_nil unfinished)
    fun stop asked asks => ?_
  cases stop with
  | true =>
    exact Leaves.silent dense (by simpa using asks.silent) (.inr ⟨.inl (by simp), unfinished⟩)
  | false => exact Leaves.ensures_after asked asks.silent executed

/-- The session has no record of the call it is about to make. -/
def ExecSession.PastHistory (s : ExecSession) : Prop :=
  s.isReplay = true → s.current = none

instance : DecidablePred ExecSession.PastHistory := fun _ => inferInstanceAs (Decidable (_ → _))

/-- What a call answered from its rows leaves: the rows as they were, no request, and if
it returned, the recorded reply in a session that stands behind the call's rows. -/
structure Replays (rows : History) (reply : Reply) (standing : Standing) (count : Nat)
    (later : History) (trace : Trace) (outcome : Option Replied) : Prop where
  unchanged : writes rows trace = rows
  quiet : Undispatched trace
  answers : ∀ reply' after, outcome = some (reply', after) →
    reply' = reply ∧ reply'.suspends = false ∧ after.standing = standing ∧
      (Ahead after count later ∨ later = [] ∧ Caught after count)

/-- A call that was answered without asking anything. -/
theorem Replays.at_once {reply : Reply} {standing : Standing} {after : ExecSession}
    {work : Work Replied} {outcome : Option Replied} (place : Ahead after count later)
    (returns : work = done (reply, after)) (runs : work.Runs trace outcome)
    (resumes : reply.suspends = false) (stands : after.standing = standing) :
    Replays rows reply standing count later trace outcome := by
  rw [returns] at runs
  obtain ⟨script, executed⟩ := runs
  cases executed
  refine ⟨rfl, undispatched_nil, fun reply' after' given => ?_⟩
  cases given
  exact ⟨rfl, resumes, stands, .inl place⟩

namespace Format

variable (format : Format) (s : ExecSession)

/-- A program answers the finished calls of a format from their rows. A reply that the rows
do not determine is already known. -/
def ReplayedBy (Allowed : Option Reply → Trace → Prop) (program : Work Replied) : Prop :=
  ∀ ⦃earlier block later : History⦄ ⦃reply : Reply⦄ ⦃recorded : Bool⦄ ⦃after : Standing⦄
    ⦃known : Option Reply⦄ ⦃trace : Trace⦄ ⦃outcome : Option Replied⦄,
    Dense (earlier ++ (block ++ later)) → Ahead s earlier.length (block ++ later) →
    format.Block reply recorded block after → (recorded = false → known = some reply) →
    Allowed known trace → program.Runs trace outcome →
    Replays (earlier ++ (block ++ later)) reply after (earlier.length + block.length) later trace
      outcome

/-- A program at the end of the rows leaves those of a call of the format. -/
def LeftBy (Allowed : Trace → Prop) (program : Work Replied) : Prop :=
  ∀ ⦃rows tail : History⦄ ⦃trace : Trace⦄
    ⦃outcome : Option Replied⦄, Dense (rows ++ tail) →
    (Ahead s rows.length tail ∨ tail = [] ∧ Caught s rows.length) →
    (tail = [] ∨ format.Tail tail) → Allowed trace → program.Runs trace outcome →
    Leaves format rows tail trace outcome

end Format

end Cleat
