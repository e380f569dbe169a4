import Cleat.RetryBudget

/-!
# Write-ahead intents under faults

A session makes service calls one after another. Some of their operations are declared
write-ahead. Every write and every request may fail, and the worker may be lost anywhere.
Later another session replays the rows with the same calls.

A call is recorded when its event is stored or its intent is completed. A call that comes
back to the guest without being recorded leaves the session at its step, and a pending intent
may stay in the store there. What the session goes on to write is then written to that step
again: it is discarded if an intent is pending there, and otherwise it takes the place of the
call that was not recorded. The results below are about sessions that write nothing more once
a call was not recorded.
-/
namespace Cleat

open Durable.Program List

variable {engine : Engine} {s : ExecSession} {call : ServiceCall} {buffer : OutBuf} {rows : History}
  {trace : Trace} {outcome : Option Replied}

attribute [local simp] endsCall

/-- One call as it was executed. The outcome is absent when the worker was lost in it. -/
structure CallStep where
  call : ServiceCall
  before : ExecSession
  trace : Trace
  outcome : Option Replied

/-- Calls that a session makes one after another, up to one in which the worker is lost. -/
inductive InTurn (engine : Engine) (buffer : OutBuf) : ExecSession → List CallStep → Prop where
  | none (s : ExecSession) : InTurn engine buffer s []
  | lost {s : ExecSession} {call : ServiceCall} {trace : Trace}
      (runs : (durableCall engine s call.service call.operation call.request buffer).Runs trace
        none) : InTurn engine buffer s [⟨call, s, trace, none⟩]
  | next {s after : ExecSession} {call : ServiceCall} {trace : Trace} {reply : Reply}
      {steps : List CallStep}
      (runs : (durableCall engine s call.service call.operation call.request buffer).Runs trace
        (some (reply, after))) (later : InTurn engine buffer after steps) :
      InTurn engine buffer s (⟨call, s, trace, some (reply, after)⟩ :: steps)

/-- The rows after a number of calls. -/
def rowsAfterCalls (rows : History) (steps : List CallStep) : History :=
  steps.foldl (fun rows step => writes rows step.trace) rows

/-- The store took a new row. -/
def writesRow : Observed → Bool
  | ⟨.flushEvent _ _, .persisted⟩ => true
  | ⟨.writeCallIntent _, .ok _⟩ => true
  | _ => false

attribute [local simp] writesRow

/-- Once a call of the session was not recorded, the store takes no row from a later one. -/
def Heeded (steps : List CallStep) : Prop :=
  steps.Pairwise fun one next =>
    one.trace.any endsCall = false → next.trace.any writesRow = false

/-- What a forward call appends: its own row with what the service answered, a pending row,
the row of another event, or nothing. -/
inductive CallLeft (engine : Engine) (step : Nat) (call : ServiceCall) (trace : Trace) :
    History → Prop where
  | recorded {row : EventRecord} {key : Option String} {answer : ServiceAnswer}
      (owned : CallRow call.service call.operation row) (settled : row.pending = false)
      (retryable : row.errNonRetryable = false) (response : row.response = outcomeResponse answer)
      (err : row.err = outcomeErr answer)
      (sent : ⟨.callService call.service call.operation call.request step key, answer⟩ ∈ trace)
      (ends : trace.any endsCall = true) : CallLeft engine step call trace [row]
  | pending {row : EventRecord} (owned : CallRow call.service call.operation row)
      (own : row.step = step) (request : row.request = call.request)
      (waits : row.pending = true) (unended : trace.any endsCall = false) :
      CallLeft engine step call trace [row]
  | other {row : EventRecord} (kind : row.eventType ≠ .call) (unsent : Undispatched trace)
      (unended : trace.any endsCall = false) : CallLeft engine step call trace [row]
  | nothing (unended : trace.any endsCall = false)
      (unsent : engine.callSemantics call.service call.operation = .writeAheadIntent →
        Undispatched trace) : CallLeft engine step call trace []

/-- A forward call: what it appends to the rows, that its events are stored, and the session it
comes back with. -/
structure CallLeaves (engine : Engine) (step : Nat) (call : ServiceCall) (rows : History)
    (trace : Trace) (outcome : Option Replied) : Prop where
  left : ∃ block, writes rows trace = rows ++ block ∧
    CallLeft engine step call trace block
  stored : ∀ record checksum, ⟨.flushEvent record checksum, .persisted⟩ ∈ trace →
    rowOf record ∈ writes rows trace
  completed : ∀ record checksum, ⟨.completeCallIntent record checksum, .ok ()⟩ ∈ trace →
    ∃ row ∈ writes rows trace, row.step = record.step ∧ row.response = record.response ∧
      row.err = record.err ∧ row.pending = false
  sent : ∀ observed ∈ trace, ∀ other, observed.query.dispatchStep = some other → other = step
  forward : ∀ reply after, outcome = some (reply, after) → after.isReplay = false
  moved : ∀ reply after, outcome = some (reply, after) → trace.any endsCall = true →
    after.stepCount = step + 1
  dense : Dense (writes rows trace)
  unwritten : trace.any writesRow = false → trace.any endsCall = false ∧
    (∀ held, writes held trace = held) ∧
    (engine.callSemantics call.service call.operation = .writeAheadIntent → Undispatched trace)

section Forward

variable {step : Nat}

theorem undispatched_acts : Undispatched (acts trace) ↔ Undispatched trace := by
  constructor
  · intro unsent observed member
    by_cases idle : Idle observed
    · exact idle.undispatched
    · exact unsent observed (mem_acts.mpr ⟨member, idle⟩)
  · exact fun unsent observed member => unsent observed (mem_acts.mp member).1

theorem any_writesRow_acts : (acts trace).any writesRow = trace.any writesRow := by
  refine any_acts fun observed idle => ?_
  obtain ⟨query, answer⟩ := observed
  cases query <;> first | rfl | cases idle.1

theorem CallLeft.of_acts {block : History}
    (left : CallLeft engine step call (acts trace) block) : CallLeft engine step call trace block := by
  cases left with
  | recorded owned settled retryable response err sent ended =>
    exact .recorded owned settled retryable response err (mem_acts.mp sent).1
      (any_endsCall_acts ▸ ended)
  | pending owned own request waits unended =>
    exact .pending owned own request waits (any_endsCall_acts ▸ unended)
  | other kind unsent unended =>
    exact .other kind (undispatched_acts.mp unsent) (any_endsCall_acts ▸ unended)
  | nothing unended unsent =>
    exact .nothing (any_endsCall_acts ▸ unended) fun declared => undispatched_acts.mp (unsent declared)

/-- What a call leaves is told by what it writes and sends. -/
theorem CallLeaves.of_acts (leaves : CallLeaves engine step call rows (acts trace) outcome) :
    CallLeaves engine step call rows trace outcome := by
  obtain ⟨⟨block, wrote, left⟩, stored, completed, sent, forward, moved, dense, unwritten⟩ := leaves
  simp only [writes_acts, any_endsCall_acts, any_writesRow_acts, undispatched_acts, mem_acts]
    at wrote stored completed sent moved dense unwritten
  refine ⟨⟨block, wrote, left.of_acts⟩, fun record checksum member => ?_,
    fun record checksum member => ?_, fun observed member other sends => ?_, forward, moved, dense,
    unwritten⟩
  · exact stored record checksum ⟨member, fun idle => by cases idle.1⟩
  · exact completed record checksum ⟨member, fun idle => by cases idle.1⟩
  · refine sent observed ⟨member, fun idle => ?_⟩ other sends
    rw [idle.undispatched] at sends
    cases sends

/-- What a call leaves, from what it writes and sends. -/
theorem CallActs.leaves (did : CallActs engine s call buffer trace outcome) (dense : Dense rows)
    (stands : s.stepCount = rows.length)
    (forward : ∀ reply after, outcome = some (reply, after) → after.isReplay = false) :
    CallLeaves engine s.stepCount call rows trace outcome := by
  cases did with
  | cut | refused =>
    exact ⟨⟨[], by simp, .nothing rfl fun _ => undispatched_nil⟩, by simp, by simp, by simp, forward,
      by simp, dense, fun _ => ⟨rfl, fun _ => rfl, fun _ => undispatched_nil⟩⟩
  | @capped _ _ record checksum own kind =>
    have wrote : writes rows [⟨.flushEvent record checksum, .persisted⟩] = rows ++ [rowOf record] :=
      dense.insertEvent (own.trans stands)
    have other : (rowOf record).eventType ≠ .call := by simp [rowOf, kind]
    refine ⟨⟨_, wrote, .other other (by simp) (by simp [kind])⟩, ?_,
      by simp, by simp, forward, by simp [kind], ?_,
      by simp⟩
    · rw [wrote]
      simp +contextual
    · rw [wrote]
      exact dense.snoc (own.trans stands)
  | @sent _ key answer ordinary =>
    have declared : engine.callSemantics call.service call.operation = .writeAheadIntent →
        Undispatched [⟨.callService call.service call.operation call.request s.stepCount key,
          answer⟩] := by
      simp [ordinary]
    have unended : [(⟨.callService call.service call.operation call.request s.stepCount key, answer⟩ :
        Observed)].any endsCall = false := rfl
    refine ⟨⟨[], by simp [applyObserved], .nothing unended declared⟩, by simp, by simp, ?_, forward,
      by simp [unended], dense, fun _ => ⟨unended, fun _ => rfl, declared⟩⟩
    simp
  | @recorded reply after key answer record checksum tells replied passes =>
    have next : record.step = rows.length := tells.own.trans stands
    have wrote : writes rows
        [⟨.callService call.service call.operation call.request s.stepCount key, answer⟩,
          ⟨.flushEvent record checksum, .persisted⟩] = rows ++ [rowOf record] :=
      dense.insertEvent next
    refine ⟨⟨_, wrote, .recorded ⟨tells.owned.kind, tells.owned.service, tells.owned.operation⟩
      tells.settled tells.retryable tells.response tells.err mem_cons_self ?_⟩, ?_, by simp,
      by simp, forward, ?_, ?_, by simp⟩
    · simp [tells.owned.kind]
    · rw [wrote]
      simp +contextual
    · intro reply after returned _
      cases returned
      exact passes.step
    · rw [wrote]
      exact dense.snoc next
  | @unannounced _ intent reason =>
    have unsent : Undispatched [⟨.writeCallIntent intent, .error reason⟩] := by
      simp
    exact ⟨⟨[], by simp [applyObserved], .nothing rfl fun _ => unsent⟩, by simp, by simp,
      by simp, forward, by simp, dense,
      fun _ => ⟨rfl, fun _ => rfl, fun _ => unsent⟩⟩
  | @announced _ intent createdAt later own owned request short =>
    have next : intent.step = rows.length := own.trans stands
    rcases short with ⟨rfl, _⟩ | ⟨_, _, _, rfl, ⟨rfl, _⟩ | ⟨_, _, _, rfl⟩⟩ <;>
    · have wrote := writes_intent dense next createdAt
      refine ⟨⟨_, wrote _, .pending ⟨owned.kind, owned.service, owned.operation⟩ own request rfl
        rfl⟩, by simp, by simp, by simp, forward, by simp, ?_, by simp⟩
      rw [wrote]
      exact dense.snoc next
  | @completed _ intent record createdAt key answer checksum own tells ends =>
    have next : record.step = rows.length := tells.own.trans stands
    have wrote : writes rows [⟨.writeCallIntent intent, .ok createdAt⟩,
        ⟨.callService call.service call.operation call.request s.stepCount key, answer⟩,
        ⟨.completeCallIntent record checksum, .ok ()⟩] =
          rows ++ [completeRow (intentRow intent createdAt) record] :=
      (writes_intent dense (own.trans stands) _ _).trans
        (writes_completed dense (own.trans stands) next)
    refine ⟨⟨_, wrote, .recorded ⟨tells.owned.kind, tells.owned.service, tells.owned.operation⟩ rfl
      tells.retryable tells.response tells.err (mem_cons_of_mem _ mem_cons_self) rfl⟩,
      by simp, ?_, by simp, forward,
      fun reply after returned _ => (ends reply after returned).1.step, ?_, by simp⟩
    · intro completed checksum' member
      simp only [mem_cons, not_mem_nil, or_false] at member
      rcases member with same | same | same <;> cases same
      rw [wrote]
      exact ⟨_, mem_append_right _ mem_cons_self, rfl, rfl, rfl, rfl⟩
    · rw [wrote]
      exact dense.snoc next

/-- A forward call. -/
theorem durableCall_appends (stored : engine.db = true) (forward : s.isReplay = false)
    (dense : Dense rows) (stands : s.stepCount = rows.length)
    (runs : (durableCall engine s call.service call.operation call.request buffer).Runs trace outcome)
    (kept : ∀ observed ∈ trace, Persisted observed) :
    CallLeaves engine s.stepCount call rows trace outcome := by
  have did := (durableCall_acts persisted_flush stored forward).of_runs runs kept
  refine .of_acts (did.leaves dense stands fun reply after returned => ?_)
  subst returned
  rw [durableCall, forward, if_neg (by simp)] at runs
  refine (show Returns (fun result : Replied => result.2.isReplay = false) _ from ?_).of_runs runs
  refine (returns_any _).bind fun stop _ => ?_
  split
  · exact forward
  · exact freshCall_forwards forward

end Forward

/-- The rows that the calls of a session leave, call by call: a recorded call leaves its row,
and behind the first call that is not recorded there is at most what that call left. No later
write-ahead call sent a request. -/
inductive CallsLeft (engine : Engine) : List CallStep → History → Prop where
  | none : CallsLeft engine [] []
  | recorded {one : CallStep} {steps : List CallStep} {row : EventRecord}
      {block : History}
      (left : CallLeft engine one.before.stepCount one.call one.trace [row])
      (ends : one.trace.any endsCall = true) (later : CallsLeft engine steps block) :
      CallsLeft engine (one :: steps) (row :: block)
  | stopped {one : CallStep} {steps : List CallStep} {block : History}
      (left : CallLeft engine one.before.stepCount one.call one.trace block)
      (unended : one.trace.any endsCall = false)
      (unsent : ∀ later ∈ steps, engine.callSemantics later.call.service later.call.operation =
        .writeAheadIntent → Undispatched later.trace) :
      CallsLeft engine (one :: steps) block

/-- Every event that a call recorded is in the rows under its own step. -/
structure KeepsEvents (rows : History) (steps : List CallStep) : Prop where
  stored : ∀ step ∈ steps, ∀ record checksum,
    ⟨.flushEvent record checksum, .persisted⟩ ∈ step.trace → rowOf record ∈ rows
  completed : ∀ step ∈ steps, ∀ record checksum,
    ⟨.completeCallIntent record checksum, .ok ()⟩ ∈ step.trace →
      ∃ row ∈ rows, row.step = record.step ∧ row.response = record.response ∧
        row.err = record.err ∧ row.pending = false

section Session

variable {steps : List CallStep}

/-- Rows for a session that stands at any step. -/
theorem exists_dense (count : Nat) : ∃ rows, Dense rows ∧ count = rows.length := by
  induction count with
  | zero =>
    refine ⟨[], fun index row found => ?_, rfl⟩
    simp at found
  | succ count ih =>
    obtain ⟨rows, dense, length⟩ := ih
    refine ⟨rows ++ [{ step := rows.length, eventType := .call }], dense.snoc rfl, ?_⟩
    simp [length]

/-- A session from which the store takes no row changes nothing and sends no request of a
write-ahead call. -/
theorem InTurn.unwritten (stored : engine.db = true) (run : InTurn engine buffer s steps)
    (forward : s.isReplay = false)
    (kept : ∀ step ∈ steps, ∀ observed ∈ step.trace, Persisted observed)
    (unwritten : ∀ step ∈ steps, step.trace.any writesRow = false) :
    (∀ held, rowsAfterCalls held steps = held) ∧
      ∀ step ∈ steps, step.trace.any endsCall = false ∧
        (engine.callSemantics step.call.service step.call.operation = .writeAheadIntent →
          Undispatched step.trace) := by
  induction run with
  | none s => exact ⟨fun _ => rfl, by simp⟩
  | @lost s call trace runs =>
    simp only [mem_singleton, forall_eq] at kept unwritten
    obtain ⟨rows, dense, stands⟩ := exists_dense s.stepCount
    have leaves := durableCall_appends stored forward dense stands runs kept
    obtain ⟨unended, unchanged, unsent⟩ := leaves.unwritten unwritten
    simp only [mem_singleton, forall_eq]
    exact ⟨unchanged, unended, unsent⟩
  | @next s after call trace reply steps runs later ih =>
    simp only [forall_mem_cons] at kept unwritten
    obtain ⟨rows, dense, stands⟩ := exists_dense s.stepCount
    have leaves := durableCall_appends stored forward dense stands runs kept.1
    obtain ⟨unended, unchanged, unsent⟩ := leaves.unwritten unwritten.1
    obtain ⟨same, rest⟩ := ih (leaves.forward _ _ rfl) kept.2 unwritten.2
    refine ⟨fun held => ?_, ?_⟩
    · rw [rowsAfterCalls, foldl_cons, unchanged]
      exact same held
    · simpa only [forall_mem_cons] using ⟨⟨unended, unsent⟩, rest⟩

theorem CallLeft.row {call : ServiceCall} {step : Nat} {trace : Trace}
    {block : History} (left : CallLeft engine step call trace block)
    (ends : trace.any endsCall = true) : ∃ row, block = [row] := by
  cases left with
  | recorded => exact ⟨_, rfl⟩
  | pending _ _ _ _ unended => simp [unended] at ends
  | other _ _ unended => simp [unended] at ends
  | nothing unended => simp [unended] at ends

/-- The first call of a session and those behind it. -/
theorem KeepsEvents.cons {step : Nat} {one : CallStep}
    (leaves : CallLeaves engine step one.call rows one.trace one.outcome)
    {final : History} (within : writes rows one.trace ⊆ final)
    (later : KeepsEvents final steps) : KeepsEvents final (one :: steps) where
  stored other member record checksum written := by
    rcases mem_cons.mp member with rfl | behind
    · exact within (leaves.stored record checksum written)
    · exact later.stored other behind record checksum written
  completed other member record checksum written := by
    rcases mem_cons.mp member with rfl | behind
    · obtain ⟨row, inside, facts⟩ := leaves.completed record checksum written
      exact ⟨row, within inside, facts⟩
    · exact later.completed other behind record checksum written

theorem KeepsEvents.nil : KeepsEvents rows [] := ⟨by simp, by simp⟩

/-- A session whose calls write nothing keeps all events, having none. -/
theorem KeepsEvents.of_unwritten (unwritten : ∀ step ∈ steps, step.trace.any writesRow = false)
    (unended : ∀ step ∈ steps, step.trace.any endsCall = false) : KeepsEvents rows steps where
  stored step member _ _ written :=
    absurd rfl (any_eq_false.mp (unwritten step member) _ written)
  completed step member _ _ written :=
    absurd rfl (any_eq_false.mp (unended step member) _ written)

/-- What the calls of a session leave that heeds the first call that is not recorded.

Proof: by induction on the calls. A recorded call leaves its row and a session that stands
behind it; the calls behind one that is not recorded change nothing. -/
theorem InTurn.leaves (stored : engine.db = true) (run : InTurn engine buffer s steps)
    (forward : s.isReplay = false) (dense : Dense rows) (stands : s.stepCount = rows.length)
    (kept : ∀ step ∈ steps, ∀ observed ∈ step.trace, Persisted observed) (heeded : Heeded steps) :
    ∃ block, rowsAfterCalls rows steps = rows ++ block ∧
      CallsLeft engine steps block ∧ KeepsEvents (rows ++ block) steps := by
  induction run generalizing rows with
  | none s => exact ⟨[], by simp [rowsAfterCalls], .none, KeepsEvents.nil⟩
  | @lost s call trace runs =>
    simp only [mem_singleton, forall_eq] at kept
    have leaves := durableCall_appends stored forward dense stands runs kept
    obtain ⟨block, wrote, left⟩ := leaves.left
    refine ⟨block, wrote, ?_, KeepsEvents.cons leaves (by rw [wrote]; exact fun _ => id)
      .nil⟩
    cases ends : trace.any endsCall with
    | true =>
      obtain ⟨row, rfl⟩ := left.row ends
      exact .recorded left ends .none
    | false => exact .stopped left ends (by simp)
  | @next s after call trace reply steps runs later ih =>
    simp only [forall_mem_cons] at kept
    obtain ⟨behind, rest⟩ := pairwise_cons.mp heeded
    have leaves := durableCall_appends stored forward dense stands runs kept.1
    obtain ⟨block, wrote, left⟩ := leaves.left
    have forwards := leaves.forward _ _ rfl
    cases ends : trace.any endsCall with
    | true =>
      obtain ⟨row, rfl⟩ := left.row ends
      have moved : after.stepCount = s.stepCount + 1 := leaves.moved _ _ rfl ends
      have extended : Dense (rows ++ [row]) := wrote ▸ leaves.dense
      obtain ⟨more, wroteLater, leftLater, keeps⟩ :=
        ih forwards extended (by simp [moved, stands]) kept.2 rest
      refine ⟨row :: more, ?_, .recorded left ends leftLater, ?_⟩
      · rw [rowsAfterCalls, foldl_cons, wrote]
        simpa [rowsAfterCalls] using wroteLater
      · refine KeepsEvents.cons leaves ?_ (by simpa using keeps)
        rw [wrote]
        intro held member
        simpa using Or.imp_right (fun own => .inl own) (by simpa using member)
    | false =>
      have silent : ∀ step ∈ steps, step.trace.any writesRow = false :=
        fun step member => behind step member ends
      obtain ⟨same, unsent⟩ := later.unwritten stored forwards kept.2 silent
      refine ⟨block, ?_, .stopped left ends fun step member => (unsent step member).2, ?_⟩
      · rw [rowsAfterCalls, foldl_cons, wrote]
        exact same _
      · refine KeepsEvents.cons leaves (by rw [wrote]; exact fun _ => id) ?_
        exact .of_unwritten silent fun step member => (unsent step member).1

end Session

/-- A question about the call of a row: it names the call, and it carries the key under which
the call was sent first. -/
def AsksAbout (engine : Engine) (row : EventRecord) : Query → Prop
  | .replayUnderOriginalKey service operation request key =>
    service = row.service ∧ operation = row.op ∧ request = row.request ∧
      key = durableCallIdempotencyKey engine engine.workflowID engine.workflowID row.step
  | .resolveCall service operation key =>
    service = row.service ∧ operation = row.op ∧
      key = durableCallIdempotencyKey engine engine.workflowID engine.workflowID row.step
  | .callService _ _ _ _ _ => False
  | _ => True

/-- What the replay of a pending call says: that its outcome is unknown, or what the service
said about this call. -/
inductive Found (engine : Engine) (row : EventRecord) (buffer : OutBuf) (trace : Trace) :
    Reply → Prop where
  | ambiguous : Found engine row buffer trace (ambiguousReply buffer row)
  | replayed {response : String}
      (told : ⟨.replayUnderOriginalKey row.service row.op row.request (durableCallIdempotencyKey
        engine engine.workflowID engine.workflowID row.step), .ok (response, .resolved)⟩ ∈ trace) :
      Found engine row buffer trace (callSucceeded buffer (bytesOf response))
  | resolved {response : String}
      (told : ⟨.resolveCall row.service row.op (durableCallIdempotencyKey engine engine.workflowID
        engine.workflowID row.step), .ok (response, .resolved)⟩ ∈ trace) :
      Found engine row buffer trace (callSucceeded buffer (bytesOf response))
  | notSent {text : String}
      (told : ⟨.resolveCall row.service row.op (durableCallIdempotencyKey engine engine.workflowID
        engine.workflowID row.step), .ok (text, .notSent)⟩ ∈ trace) :
      Found engine row buffer trace
        (callFailed buffer (bytesOf ambiguityNotSentMessage) callFailureCode)

section Lookup

variable {row : EventRecord} {after : ExecSession} {reply : Reply}

/-- The replay of a pending call asks about that call only. -/
theorem PendingReplay.asksAbout (replayed : PendingReplay engine s row buffer trace outcome) :
    ∀ observed ∈ trace, AsksAbout engine row observed.query := by
  have about : ∀ observed, Inquires engine row observed → AsksAbout engine row observed.query := by
    intro observed inquires
    cases inquires with
    | clock | serverClock | backoff | unwritten => exact trivial
    | resent => exact ⟨rfl, rfl, rfl, rfl⟩
    | asked => exact ⟨rfl, rfl, rfl⟩
  cases replayed with
  | cut asked | ambiguous asked => exact fun observed member => about _ (asked.asks observed member)
  | resolved wrote asked told =>
    rw [wrote]
    refine forall_mem_append.mpr ⟨fun observed member => about _ (asked.asks observed member), ?_⟩
    simp [AsksAbout]

/-- What the replay of a pending call replies is what was said about the call. -/
theorem PendingReplay.found
    (replayed : PendingReplay engine s row buffer trace (some (reply, after))) :
    Found engine row buffer trace reply := by
  cases replayed with
  | ambiguous asked => exact .ambiguous
  | @resolved earlier clockMs response errMsg errCode wrote asked told =>
    have inside : earlier ⊆ trace := wrote ▸ subset_append_left ..
    cases told with
    | replayed told => simpa [recordedReply_resolved] using Found.replayed (inside told)
    | resolved told => simpa [recordedReply_resolved] using Found.resolved (inside told)
    | notSent told => simpa [recordedReply_notSent] using Found.notSent (inside told)

/-- The session behind the row of a pending call. -/
theorem PendingReplay.behind
    (replayed : PendingReplay engine s row buffer trace (some (reply, after))) :
    after.stepCount = s.stepCount ∧ after.history = s.history := by
  cases replayed with
  | resolved => exact ⟨rfl, rfl⟩
  | ambiguous =>
    unfold recordAmbiguity
    split <;> exact ⟨rfl, rfl⟩

end Lookup

section Beyond

/-- A session without a record of its next call has none of the call behind it. -/
theorem durableCall_beyond (beyond : s.PastHistory) :
    (durableCall engine s call.service call.operation call.request buffer).Returns fun result =>
      result.2.PastHistory := by
  have executes : ∀ fresh : ExecSession, fresh.isReplay = false →
      (freshCall engine fresh call.service call.operation call.request buffer).Returns fun result =>
        result.2.PastHistory := by
    intro fresh forward
    rw [← bind_done (freshCall ..)]
    refine (freshCall_forwards forward).bind fun result kept => ?_
    intro replaying
    rw [kept] at replaying
    cases replaying
  unfold durableCall
  cases replaying : s.isReplay with
  | true =>
    unfold replayCall
    rw [beyond replaying]
    exact executes _ rfl
  | false =>
    refine (returns_any _).bind fun stop _ => ?_
    split
    · exact beyond
    · exact executes s replaying

/-- The calls of a session without a record of its next call meet no record. -/
theorem InTurn.beyond {again : List CallStep} (run : InTurn engine buffer s again)
    (beyond : s.PastHistory) : ∀ step ∈ again, step.before.PastHistory := by
  induction run with
  | none s => simp
  | lost runs =>
    simp only [mem_singleton, forall_eq]
    exact beyond
  | next runs later ih =>
    simp only [forall_mem_cons]
    exact ⟨beyond, ih ((durableCall_beyond beyond).of_runs runs)⟩

end Beyond

/-- A failure of the service has a text. -/
def explains : Observed → Bool
  | ⟨.callService _ _ _ _ _, .error failure⟩ => failure.message ≠ ""
  | _ => true

/-- No service failed without a text. -/
def Explained (steps : List CallStep) : Prop :=
  ∀ step ∈ steps, ∀ observed ∈ step.trace, explains observed = true

/-- How a replay reports a write-ahead call: as completed with what the service answered it,
as unknown or as what the service says about it when it is asked under the key it was sent with, or
as a call that was never sent, which the replay does not answer from the record of any call. -/
inductive Reported (engine : Engine) (buffer : OutBuf) (one two : CallStep) : Prop where
  | completed {key : Option String} {answer : ServiceAnswer}
      (sent : ⟨.callService one.call.service one.call.operation one.call.request
        one.before.stepCount key, answer⟩ ∈ one.trace)
      (silent : two.trace = [])
      (reply : ∀ reply after, two.outcome = some (reply, after) →
        reply = intentReply buffer (answer.mapError CallFailure.message))
  | pending {row : EventRecord} (owned : CallRow one.call.service one.call.operation row)
      (own : row.step = one.before.stepCount) (request : row.request = one.call.request)
      (asks : ∀ observed ∈ two.trace, AsksAbout engine row observed.query)
      (reply : ∀ reply after, two.outcome = some (reply, after) →
        Found engine row buffer two.trace reply)
  | neverSent (unsent : Undispatched one.trace)
      (unanswered : two.before.isReplay = true →
        ∀ row ∈ two.before.current, row.eventType ≠ .call)

section Reports

variable {r : ExecSession} {row : EventRecord} {later : History}

/-- A recorded outcome is replayed as the reply it was first given with. -/
theorem recordedReply_answer {answer : ServiceAnswer}
    (response : row.response = outcomeResponse answer) (err : row.err = outcomeErr answer)
    (retryable : row.errNonRetryable = false)
    (explained : ∀ failure, answer = .error failure → failure.message ≠ "") :
    recordedReply buffer row = intentReply buffer (answer.mapError CallFailure.message) := by
  cases answer with
  | ok given => simp [recordedReply, intentReply, Except.mapError, response, err, outcomeErr,
      outcomeResponse]
  | error failure =>
    have text := explained failure rfl
    simp [recordedReply, intentReply, Except.mapError, err, outcomeErr, retryable, text,
      recordedFailureCode]

/-- The replay of a call that has a row. -/
theorem durableCall_consumes (replaying : r.isReplay = true)
    (ahead : r.remaining = row :: later)
    (owned : CallRow call.service call.operation row) :
    durableCall engine r call.service call.operation call.request buffer =
      if row.pending then replayPendingIntent engine (advanceReplayStep engine r row) row buffer
      else pure (recordedReply buffer row, advanceReplayStep engine r row) := by
  rw [durableCall, if_pos replaying]
  exact replayCall_own call.request (current_of_remaining ahead) owned

/-- A session that has consumed its last row. -/
theorem pastHistory_of_last {after : ExecSession} (ahead : r.remaining = [row])
    (position : after.stepCount = r.stepCount + 1) (held : after.history = r.history) :
    after.PastHistory := by
  intro _
  rw [ExecSession.current, position, held, ← head?_drop, drop_of_remaining ahead]
  rfl

theorem reported_beyond {one two : CallStep} (unsent : Undispatched one.trace)
    (beyond : two.before.PastHistory) : Reported engine buffer one two := by
  refine .neverSent unsent fun replaying found member => ?_
  rw [beyond replaying] at member
  cases member

/-- The replay of the first call that was not recorded. -/
theorem reported_unrecorded {one : CallStep} {block : History} {trace : Trace}
    {outcome : Option Replied}
    (left : CallLeft engine one.before.stepCount one.call one.trace block)
    (unended : one.trace.any endsCall = false) (replaying : block ≠ [] → r.isReplay = true)
    (ahead : r.remaining = block)
    (runs : (durableCall engine r one.call.service one.call.operation one.call.request buffer).Runs
      trace outcome) :
    (engine.callSemantics one.call.service one.call.operation = .writeAheadIntent →
      Reported engine buffer one ⟨one.call, r, trace, outcome⟩) ∧
      ∀ reply after, outcome = some (reply, after) → after.PastHistory := by
  cases left with
  | recorded _ _ _ _ _ _ ended =>
    rw [unended] at ended
    cases ended
  | @pending row owned own request waits =>
    rw [durableCall_consumes (replaying (by simp)) ahead owned, if_pos waits] at runs
    have replayed := (replayPendingIntent_ends _ buffer).of_runs runs fun _ _ => trivial
    refine ⟨fun _ => .pending owned own request replayed.asksAbout fun reply after returned => ?_,
      fun reply after returned => ?_⟩
    · cases returned
      exact replayed.found
    · subst returned
      obtain ⟨position, held⟩ := replayed.behind
      exact pastHistory_of_last ahead position held
  | @other row kind unsent =>
    refine ⟨fun _ => .neverSent unsent fun _ found member => ?_, fun reply after returned => ?_⟩
    · rw [current_of_remaining ahead] at member
      cases member
      exact kind
    · subst returned
      have refused : (durableCall engine r one.call.service one.call.operation one.call.request
          buffer).Returns fun result => result.2.PastHistory := by
        unfold durableCall replayCall
        rw [if_pos (replaying (by simp)), current_of_remaining ahead, head?_cons]
        simp only [kind, ne_eq, not_false_eq_true, if_true]
        exact pastHistory_of_last ahead rfl rfl
      exact refused.of_runs runs
  | nothing _ unsent =>
    have beyond : r.PastHistory := fun _ => current_of_remaining ahead
    refine ⟨fun declared => reported_beyond (unsent declared) beyond, ?_⟩
    rintro reply after rfl
    exact (durableCall_beyond beyond).of_runs runs

/-- The replay reports each write-ahead call of a session.

Proof: by induction on what the calls left. A recorded call is answered from its row; the first
call that was not recorded meets what it left; the calls behind it meet no row. -/
theorem CallsLeft.reported {steps again : List CallStep} {block : History}
    (left : CallsLeft engine steps block) (run : InTurn engine buffer r again)
    (replaying : block ≠ [] → r.isReplay = true) (ahead : r.remaining = block)
    (explained : Explained steps) (same : ∀ pair ∈ steps.zip again, pair.1.call = pair.2.call) :
    ∀ pair ∈ steps.zip again,
      engine.callSemantics pair.1.call.service pair.1.call.operation = .writeAheadIntent →
        Reported engine buffer pair.1 pair.2 := by
  induction left generalizing r again with
  | none => simp
  | @recorded one steps row block left ends later ih =>
    obtain ⟨texts, textsLater⟩ := forall_mem_cons.mp explained
    cases left with
    | @recorded _ key answer owned settled retryable response err sent _ =>
      have replayed : recordedReply buffer row =
          intentReply buffer (answer.mapError CallFailure.message) := by
        refine recordedReply_answer response err retryable fun failure failed => ?_
        subst failed
        exact of_decide_eq_true (texts _ sent)
      have answered : ∀ trace outcome, (durableCall engine r one.call.service one.call.operation
          one.call.request buffer).Runs trace outcome → trace = [] ∧
            outcome = some (recordedReply buffer row, advanceReplayStep engine r row) := by
        intro trace outcome runs
        rw [durableCall_consumes (replaying (by simp)) ahead owned, settled] at runs
        exact (runs_done _ _ _).mp runs
      cases run with
      | none => simp
      | @lost _ call trace runs =>
        simp only [zip_cons_cons, zip_nil_right, mem_singleton, forall_eq]
          at same
        subst same
        cases (answered _ _ runs).2
      | @next _ after call trace reply again runs laterRun =>
        simp only [zip_cons_cons, forall_mem_cons] at same ⊢
        obtain ⟨first, rest⟩ := same
        subst first
        obtain ⟨rfl, returned⟩ := answered _ _ runs
        cases returned
        refine ⟨fun _ => .completed sent rfl ?_, ?_⟩
        · intro reply after returned
          cases returned
          exact replayed
        · exact ih laterRun (fun _ => replaying (by simp)) (drop_of_remaining ahead) textsLater rest
    | pending _ _ _ _ unended => simp [unended] at ends
    | other _ _ unended => simp [unended] at ends
  | @stopped one steps block left unended unsent =>
    cases run with
    | none => simp
    | @lost _ call trace runs =>
      simp only [zip_cons_cons, zip_nil_right, mem_singleton, forall_eq] at same ⊢
      subst same
      exact (reported_unrecorded left unended replaying ahead runs).1
    | @next _ after call trace reply again runs later =>
      simp only [zip_cons_cons, forall_mem_cons] at same ⊢
      obtain ⟨first, rest⟩ := same
      subst first
      obtain ⟨reported, beyond⟩ := reported_unrecorded left unended replaying ahead runs
      refine ⟨reported, fun pair member declared => ?_⟩
      obtain ⟨inOld, inNew⟩ := of_mem_zip member
      exact reported_beyond (unsent _ inOld declared)
        (later.beyond (beyond _ _ rfl) _ inNew)

end Reports

/-- A session makes service calls, each of which may fail, and the worker may be lost in any of
them. If the store takes no more rows from it once a call was not recorded, and no service fails
without a text, then every event that a call recorded is in the store under its own step, and a
replay of the stored rows reports each write-ahead call that the guest repeats.

Proof: the rows say call by call what was left of the session, and the replay consumes them call
by call. -/
theorem intents_survive_faults {engine : Engine} {buffer : OutBuf} {s r : ExecSession}
    {rows : History} {steps again : List CallStep} (stored : engine.db = true)
    (forward : s.isReplay = false) (dense : Dense rows) (stands : s.stepCount = rows.length)
    (run : InTurn engine buffer s steps)
    (kept : ∀ step ∈ steps, ∀ observed ∈ step.trace, Persisted observed)
    (heeded : Heeded steps) (explained : Explained steps)
    (replay : InTurn engine buffer r again) (loaded : r.history = rowsAfterCalls rows steps)
    (replaying : r.isReplay = !r.history.isEmpty) (position : r.stepCount = rows.length)
    (same : ∀ pair ∈ steps.zip again, pair.1.call = pair.2.call) :
    KeepsEvents (rowsAfterCalls rows steps) steps ∧
      ∀ pair ∈ steps.zip again,
        engine.callSemantics pair.1.call.service pair.1.call.operation = .writeAheadIntent →
          Reported engine buffer pair.1 pair.2 := by
  obtain ⟨block, appended, left, keeps⟩ := run.leaves stored forward dense stands kept heeded
  have ahead : r.remaining = block := by
    rw [ExecSession.remaining, loaded, appended, position]
    exact drop_left
  have replays : block ≠ [] → r.isReplay = true := by
    intro some
    rw [replaying, loaded, appended]
    cases block with
    | nil => exact absurd rfl some
    | cons row rest => simp
  rw [appended]
  exact ⟨keeps, left.reported replay replays ahead explained same⟩

/-- The calls of a session in given surroundings, each with the number of answers that it gets. -/
def callsInTurn (engine : Engine) (buffer : OutBuf) :
    ExecSession → List (ServiceCall × Surroundings × Nat) → List CallStep
  | _, [] => []
  | s, (call, around, answers) :: rest =>
    let run := (durableCall engine s call.service call.operation call.request buffer).run
      (List.replicate answers around.answer)
    match run.2 with
    | none => [⟨call, s, run.1, none⟩]
    | some (reply, after) =>
      ⟨call, s, run.1, some (reply, after)⟩ :: callsInTurn engine buffer after rest

theorem callsInTurn_inTurn (engine : Engine) (buffer : OutBuf) (s : ExecSession)
    (calls : List (ServiceCall × Surroundings × Nat)) :
    InTurn engine buffer s (callsInTurn engine buffer s calls) := by
  induction calls generalizing s with
  | nil => exact .none s
  | cons first rest ih =>
    obtain ⟨call, around, answers⟩ := first
    have runs := run_runs (durableCall engine s call.service call.operation call.request
      buffer) (replicate answers around.answer)
    unfold callsInTurn
    dsimp only
    split
    · rename_i stopped
      rw [stopped] at runs
      exact .lost runs
    · rename_i reply after returned
      rw [returned] at runs
      exact .next runs (ih after)

/-- An engine with one write-ahead operation. -/
def intentEngine : Engine := { intentOps := ["svc.op"] }

/-- A write-ahead call that is recorded and one whose outcome the store does not take. -/
def faultyCalls : List CallStep :=
  callsInTurn intentEngine roomy (intentEngine.openSession {} [])
    [(⟨"svc", "op", "first"⟩, { service := .ok "paid" }, 9),
      (⟨"svc", "op", "second"⟩, { completed := .error "lost connection" }, 9)]

/-- The replay of the two calls. -/
def replayedCalls : List CallStep :=
  callsInTurn intentEngine roomy (intentEngine.openSession {} (rowsAfterCalls [] faultyCalls))
    [(⟨"svc", "op", "first"⟩, {}, 9), (⟨"svc", "op", "second"⟩, {}, 9)]

theorem intents_survive_faults_replayed :
    (rowsAfterCalls [] faultyCalls).map EventRecord.response = ["paid", ""] ∧
      KeepsEvents (rowsAfterCalls [] faultyCalls) faultyCalls ∧
        ∀ pair ∈ faultyCalls.zip replayedCalls,
          intentEngine.callSemantics pair.1.call.service pair.1.call.operation =
            .writeAheadIntent → Reported intentEngine roomy pair.1 pair.2 := by
  have empty : Dense [] := by
    intro index row found
    simp at found
  refine ⟨by decide +kernel, intents_survive_faults rfl (by decide +kernel) empty rfl
    (callsInTurn_inTurn ..) ?_ ?_ ?_ (callsInTurn_inTurn ..) rfl (by decide +kernel) rfl
    (by decide +kernel)⟩
  · decide +kernel
  · unfold Heeded
    decide +kernel
  · unfold Explained
    decide +kernel

theorem eq_flushEvent {observed : Observed} {record : EventRecord}
    (persisted : persistedEvent observed = some record) :
    ∃ checksum, observed = ⟨.flushEvent record checksum, .persisted⟩ := by
  unfold persistedEvent at persisted
  split at persisted
  · cases persisted
    exact ⟨_, rfl⟩
  · cases persisted

/-- A write-ahead call whose outcome the store does not take, and an ordinary call behind it. -/
def overtakenCalls : List CallStep :=
  callsInTurn intentEngine roomy (intentEngine.openSession {} [])
    [(⟨"svc", "op", "first"⟩, { completed := .error "lost connection" }, 9),
      (⟨"svc", "other", "second"⟩, {}, 9)]

/-- The event of a call behind one whose intent stays pending is discarded. -/
theorem pending_intent_discards_event : ¬ ∀ (engine : Engine) (buffer : OutBuf)
    (steps : List CallStep), engine.db = true →
    InTurn engine buffer (engine.openSession {} []) steps →
    (∀ step ∈ steps, ∀ observed ∈ step.trace, Persisted observed) →
    KeepsEvents (rowsAfterCalls [] steps) steps := by
  intro claimed
  have keeps := claimed intentEngine roomy overtakenCalls rfl (callsInTurn_inTurn ..)
    (by decide +kernel)
  have lost : ∃ step ∈ overtakenCalls, ∃ record ∈ step.trace.filterMap persistedEvent,
      rowOf record ∉ rowsAfterCalls [] overtakenCalls := by
    decide +kernel
  obtain ⟨step, member, record, flushed, missing⟩ := lost
  obtain ⟨observed, inside, persisted⟩ := mem_filterMap.mp flushed
  obtain ⟨checksum, rfl⟩ := eq_flushEvent persisted
  exact missing (keeps.stored step member record checksum inside)

end Cleat
