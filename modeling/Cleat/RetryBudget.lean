import Cleat.RetryFrontier

/-!
# The attempts of a policy over all its incarnations

A call with a retry policy is executed again whenever its run is loaded: each incarnation
stands at the call's step over the rows that the earlier ones left. A request is sent by an
incarnation that finds nothing but failed attempts of the policy there, and the number of
those rows is taken off the policy's attempts. So every request is paid for by a row, or by
an incarnation that ended between a request and the record of its attempt.

The events recorded by an incarnation are kept. Everything else that is answered to it is
arbitrary, and it may be cut anywhere. Rows that other calls write between two incarnations
are arbitrary too.

A write-ahead intent whose outcome is unknown is sent again under its original key. These
requests are not attempts and are counted on their own.
-/
namespace Cleat

open Durable.Program List

variable {engine : Engine} {s : ExecSession} {service operation request : String}
  {policy : RetryPolicy} {buffer : OutBuf} {rows : History} {position : Nat} {row : EventRecord}
  {trace : Trace} {outcome : Option Replied}

/-- The number of requests that repeat a pending intent. -/
def resentCount (trace : Trace) : Nat := trace.countP isResend

/-- The store has answered the record of an attempt. -/
def recordsAttempt : Observed → Bool
  | ⟨.flushEvent _ _, _⟩ => true
  | ⟨.completeCallIntent _ _, _⟩ => true
  | _ => false

/-- Whether a request is left unrecorded, after one more answered query. -/
def leavesOpen (unrecorded : Bool) (observed : Observed) : Bool :=
  if observed.query.dispatchStep.isSome then true
  else if recordsAttempt observed then false
  else unrecorded

/-- An incarnation ended after a request and before the record of its attempt: the worker
was lost in between, or was stopped and gave up the call. -/
def interrupted (trace : Trace) : Bool := trace.foldl leavesOpen false

/-- The terminal event of a call has been written. -/
def endsCall : Observed → Bool
  | ⟨.flushEvent record _, .persisted⟩ => record.eventType = .call
  | ⟨.completeCallIntent _ _, .ok _⟩ => true
  | ⟨.resolveCallIntent _, .ok _⟩ => true
  | _ => false

/-- A recorded event is kept: its write is not refused. -/
def keepsEvent : Observed → Bool
  | ⟨.flushEvent _ _, answer⟩ => answer = .persisted
  | _ => true

abbrev Persisted (observed : Observed) : Prop := keepsEvent observed = true

/-- Nothing reaches the service once the terminal event is written. -/
abbrev SettledOnce (trace : Trace) : Prop :=
  trace.Pairwise fun one next => endsCall one = true → reachesService next = false

/-- The row of a finished call. -/
def EndedRow (row : EventRecord) : Prop :=
  row.eventType = .call ∧ row.pending = false

/-- What an incarnation leaves that may make a number of attempts: failed attempts and what
they end with, not more of them than it may make, and a row for every request but an
interrupted one. -/
structure Spends (service operation : String) (rows : History) (left : Nat)
    (trace : Trace) : Prop where
  rows : ∃ attempts ending, writes rows trace = rows ++ (attempts ++ ending) ∧
    (∀ row ∈ attempts, AttemptRow service operation row) ∧ (attempts ++ ending).length ≤ left ∧
    sentCount trace ≤ (attempts ++ ending).length + (interrupted trace).toNat ∧
    (trace.any endsCall = true → ∃ row, ending = [row] ∧ EndedRow row)
  few : sentCount trace ≤ left
  settled : SettledOnce trace
  attempted : resentCount trace = 0

section Accounting

variable {left step : Nat} {observed : Observed} {key : Option String} {answer : ServiceAnswer}
  {record : EventRecord} {checksum : String}

theorem Idle.unended (idle : Idle observed) : endsCall observed = false := by
  obtain ⟨query, answer⟩ := observed
  cases query <;> first | rfl | cases idle.1

theorem Idle.leavesOpen (idle : Idle observed) (unrecorded : Bool) :
    Cleat.leavesOpen unrecorded observed = unrecorded := by
  have unrecording : recordsAttempt observed = false := by
    obtain ⟨query, answer⟩ := observed
    cases query <;> first | rfl | cases idle.1
  simp only [Cleat.leavesOpen, idle.undispatched, unrecording]
  rfl

theorem sentCount_append (first second : Trace) :
    sentCount (first ++ second) = sentCount first + sentCount second :=
  countP_append ..

variable {counts : Observed → Bool}

theorem countP_acts (none : ∀ observed, Idle observed → counts observed = false) :
    (acts trace).countP counts = trace.countP counts := by
  rw [acts, countP_filter]
  refine countP_congr fun observed _ => ?_
  by_cases idle : Idle observed
  · simp [none observed idle]
  · rw [Idle, ← Bool.or_eq_false_iff, Bool.not_eq_false] at idle
    rw [idle, Bool.and_true]

theorem any_acts (none : ∀ observed, Idle observed → counts observed = false) :
    (acts trace).any counts = trace.any counts := by
  have counted : (acts trace).countP counts = trace.countP counts := countP_acts none
  rw [Bool.eq_iff_iff, any_eq_true, any_eq_true, ← countP_pos_iff,
    ← countP_pos_iff, counted]

theorem interrupted_acts : interrupted (acts trace) = interrupted trace :=
  foldl_acts (fun unrecorded _ idle => idle.leavesOpen unrecorded) false

theorem sentCount_acts : sentCount (acts trace) = sentCount trace :=
  countP_acts fun _ idle => by rw [idle.undispatched]; rfl

theorem resentCount_acts : resentCount (acts trace) = resentCount trace :=
  countP_acts fun _ idle => (Bool.or_eq_false_iff.mp idle.2).2

theorem any_endsCall_acts : (acts trace).any endsCall = trace.any endsCall :=
  any_acts fun _ idle => idle.unended

theorem SettledOnce.of_acts (settled : SettledOnce (acts trace)) : SettledOnce trace := by
  refine (pairwise_filter.mp settled).imp fun {one next} holds ends => ?_
  by_contra reaches
  have writes : one.query.isWrite = true := by
    by_contra reads
    obtain ⟨query, answer⟩ := one
    cases query <;> first | cases ends | exact reads rfl
  rw [Bool.not_eq_false] at reaches
  rw [holds (by rw [writes, Bool.true_or]) (by rw [reaches, Bool.or_true]) ends] at reaches
  cases reaches

theorem settledOnce_of_unended (unended : trace.any endsCall = false) : SettledOnce trace := by
  induction trace with
  | nil => exact List.Pairwise.nil
  | cons observed trace ih =>
    simp only [any_cons, Bool.or_eq_false_iff] at unended
    refine pairwise_cons.mpr ⟨fun next _ ends => ?_, ih unended.2⟩
    rw [unended.1] at ends
    cases ends

theorem SettledOnce.after (quiet : Trace) (unended : quiet.any endsCall = false)
    (settled : SettledOnce trace) : SettledOnce (quiet ++ trace) := by
  refine pairwise_append.mpr ⟨settledOnce_of_unended unended, settled, ?_⟩
  intro one member next _ ends
  exact absurd ends (any_eq_false.mp unended one member)

/-- What an incarnation spends is told by what it writes and sends. -/
theorem Spends.of_acts (spends : Spends service operation rows left (acts trace)) :
    Spends service operation rows left trace := by
  obtain ⟨written, few, settled, fresh⟩ := spends
  rw [writes_acts, sentCount_acts, interrupted_acts, any_endsCall_acts] at written
  exact ⟨written, sentCount_acts ▸ few, settled.of_acts, resentCount_acts ▸ fresh⟩

theorem Spends.nil : Spends service operation rows left [] :=
  ⟨⟨[], [], by simp, by simp, by simp, by simp [sentCount], by simp⟩, by simp [sentCount], .nil, rfl⟩

/-- An incarnation that leaves one row and makes at most one request. -/
theorem Spends.single (final : EventRecord) (wrote : writes rows trace = rows ++ [final])
    (once : sentCount trace ≤ 1) (ended : trace.any endsCall = true → EndedRow final)
    (settled : SettledOnce trace) (attempted : resentCount trace = 0) :
    Spends service operation rows (left + 1) trace where
  rows := ⟨[], [final], by simpa using wrote, by simp, by simp,
    Nat.le_add_right_of_le once, fun ends => ⟨final, rfl, ended ends⟩⟩
  few := by omega
  settled := settled
  attempted := attempted

/-- A request without a record is an interruption. -/
theorem Spends.cut : Spends service operation rows (left + 1)
    [⟨.callService service operation request step key, answer⟩] :=
  ⟨⟨[], [], by simp [applyObserved], by simp, by simp, Nat.le_refl 1, nofun⟩,
    Nat.le_add_left 1 left, pairwise_singleton .., rfl⟩

/-- A request whose outcome is recorded as the call's is the last one. -/
theorem Spends.ended (wrote : insertEvent rows (rowOf record) = rows ++ [rowOf record])
    (ends : EndedRow (rowOf record)) : Spends service operation rows (left + 1)
      [⟨.callService service operation request step key, answer⟩,
        ⟨.flushEvent record checksum, .persisted⟩] :=
  .single _ wrote (Nat.le_refl 1) (fun _ => ends)
    (SettledOnce.after [_] rfl (pairwise_singleton ..)) rfl

/-- A request whose attempt is recorded is paid for by the row, and the rest of the
incarnation starts behind it. -/
theorem Spends.recorded (wrote : insertEvent rows (rowOf record) = rows ++ [rowOf record])
    (attempt : AttemptRow service operation (rowOf record))
    (later : Spends service operation (rows ++ [rowOf record]) left trace) :
    Spends service operation rows (left + 1)
      (⟨.callService service operation request step key, answer⟩ ::
        ⟨.flushEvent record checksum, .persisted⟩ :: trace) := by
  obtain ⟨⟨attempts, ending, wroteLater, attempted, few, paid, ended⟩, most, settled, fresh⟩ := later
  have kind : record.eventType = .callAttemptFailed := attempt.kind
  have counted : sentCount (⟨.callService service operation request step key, answer⟩ ::
      ⟨.flushEvent record checksum, .persisted⟩ :: trace) = sentCount trace + 1 := by
    simp [sentCount]
  have unended : [(⟨.callService service operation request step key, answer⟩ : Observed),
      ⟨.flushEvent record checksum, .persisted⟩].any endsCall = false := by
    simp [endsCall, kind]
  refine ⟨⟨rowOf record :: attempts, ending, ?_, ?_, ?_, ?_, ?_⟩, ?_, settled.after _ unended, ?_⟩
  · change writes (insertEvent rows (rowOf record)) trace = _
    rw [wrote, wroteLater]
    simp
  · simpa only [forall_mem_cons] using ⟨attempt, attempted⟩
  · simpa using few
  · change _ ≤ _ + (interrupted trace).toNat
    simp only [cons_append, length_cons]
    omega
  · intro ends
    refine ended ?_
    simpa [endsCall, kind] using ends
  · rw [counted]
    exact Nat.succ_le_succ most
  · simpa [resentCount, isResend] using fresh

end Accounting

theorem persisted_flush : FlushesPersist Persisted := by
  intro record checksum answer kept
  cases answer <;> first | rfl | cases kept

section Attempts

variable (stored : engine.db = true) (forward : s.isReplay = false) (dense : Dense rows)

include stored forward dense

/-- The outcome of a request is recorded at the end of the policy. -/
theorem ends_spends {step left : Nat} {key : Option String} {answer : ServiceAnswer}
    {record : EventRecord} {reply : Reply} (next : record.step = rows.length) (unstamped : record.timestampMs = 0)
    (kind : record.eventType = .call) (settled : record.pending = false) :
    (recordEvent engine s record >>= fun result => pure (reply, result.2)).Ensures Persisted
      fun trace _ => Spends service operation rows (left + 1)
        (⟨.callService service operation request step key, answer⟩ :: acts trace) := by
  refine ensures_acts_recordEvent persisted_flush (fun shown _ => Spends service operation rows
    (left + 1) (_ :: shown)) stored forward unstamped .cut fun clockMs checksum after _ => ?_
  exact .ended (dense.insertEvent next) ⟨kind, settled⟩

variable (stands : s.stepCount = rows.length)

include stands

/-- The attempts that are left of a policy.

Proof: by induction on their number. An attempt is cut, ends the policy with the row of the
call, or leaves its own row and hands the rest of the attempts on. -/
theorem retryAttempts_spends (codes : List String) (retryStep left : Nat) (attempt : Int) :
    (retryAttempts engine policy codes service operation request retryStep buffer left attempt
      s).Ensures Persisted fun trace _ => Spends service operation rows left (acts trace) := by
  induction left generalizing s rows attempt with
  | zero =>
    exact ⟨.nil, fun never => never.elim⟩
  | succ left ih =>
    unfold retryAttempts callService
    simp only [ask_eq, ask_bind, done_bind, ensures_ask]
    refine ⟨.nil, fun answer _ => ?_⟩
    cases answer with
    | ok response => exact ends_spends stored forward dense stands rfl rfl rfl
    | error failure =>
      dsimp only
      split
      · exact ends_spends stored forward dense stands rfl rfl rfl
      · split
        · exact ends_spends stored forward dense stands rfl rfl rfl
        · refine ensures_acts_recordEvent persisted_flush (fun shown _ => Spends service operation
            rows (left + 1) (_ :: shown)) stored forward rfl .cut
            fun clockMs checksum after passes => ?_
          have placed : insertEvent rows (rowOf (stampEvent s (attemptEvent s.stepCount
              service operation attempt failure.message) clockMs)) = rows ++ [_] :=
            dense.insertEvent stands
          refine ⟨.recorded placed ⟨rfl, rfl, rfl⟩ .nil, fun waited _ => ?_⟩
          cases waited with
          | contextDone | shutdownRequested => exact .recorded placed ⟨rfl, rfl, rfl⟩ .nil
          | elapsed =>
            refine (ih (passes.mode.trans forward) (dense.snoc stands) ?_ (attempt + 1)).mono
              fun trace _ later => .recorded placed ⟨rfl, rfl, rfl⟩ later
            simp [passes.step, stands]

/-- Running a policy of which some attempts are spent. -/
theorem freshCallWithRetry_spends (spent : Nat) (resumeStep : Option Nat) :
    (freshCallWithRetry engine s service operation request policy buffer spent resumeStep).Ensures
      Persisted fun trace _ => Spends service operation rows
        (engine.allowedAttempts policy.maxAttempts - spent).toNat (acts trace) := by
  unfold freshCallWithRetry
  cases nonRetryableCodes engine policy with
  | none => exact .nil
  | some codes => exact retryAttempts_spends stored forward dense stands codes _ _ _

end Attempts

section Acts

variable {call : ServiceCall}

/-- A call that is executed makes at most one request, and the request of a write-ahead call is
paid for by the row of its intent whatever becomes of its completion. -/
theorem CallActs.spends (did : CallActs engine s call buffer trace outcome) (dense : Dense rows)
    (stands : s.stepCount = rows.length) : Spends call.service call.operation rows 1 trace := by
  cases did with
  | cut | refused => exact .nil
  | capped own kind =>
    refine .single _ (dense.insertEvent (own.trans stands)) (Nat.zero_le 1) ?_
      (pairwise_singleton ..) rfl
    simp [endsCall, kind]
  | sent => exact .cut
  | recorded tells =>
    exact .ended (dense.insertEvent (tells.own.trans stands))
      ⟨tells.owned.kind, tells.settled⟩
  | unannounced =>
    exact ⟨⟨[], [], by simp [applyObserved], by simp, by simp, Nat.zero_le _, nofun⟩,
      Nat.zero_le 1, pairwise_singleton .., rfl⟩
  | announced own _ _ short =>
    have wrote := writes_intent dense (own.trans stands)
    rcases short with ⟨rfl, _⟩ | ⟨_, _, _, rfl, ⟨rfl, _⟩ | ⟨_, _, _, rfl⟩⟩
    · exact .single _ (wrote ..) (Nat.zero_le 1) nofun (settledOnce_of_unended rfl) rfl
    · exact .single _ (wrote ..) (Nat.le_refl 1) nofun (settledOnce_of_unended rfl) rfl
    · exact .single _ (wrote ..) (Nat.le_refl 1) nofun (settledOnce_of_unended rfl) rfl
  | completed own tells =>
    refine .single _ ((writes_intent dense (own.trans stands) _ _).trans
      (writes_completed dense (own.trans stands) (tells.own.trans stands))) (Nat.le_refl 1)
      (fun _ => ⟨tells.owned.kind, rfl⟩) ?_ rfl
    exact SettledOnce.after [_, _] rfl (pairwise_singleton ..)

end Acts

/-- What the replay of a pending intent does: it may repeat the intent, and it completes the
intent's row or leaves the rows as they are. -/
structure Repeats (rows : History) (step bound : Nat) (trace : Trace) : Prop where
  unsent : sentCount trace = 0
  few : resentCount trace ≤ bound
  settled : SettledOnce trace
  wrote : trace.any endsCall = false ∧ writes rows trace = rows ∨
    ∃ record : EventRecord, record.step = step ∧ record.eventType = .call ∧
      writes rows trace = completeIntent rows record

section Pending

variable {bound : Nat}

theorem Undispatched.sentCount_eq (unsent : Undispatched trace) : sentCount trace = 0 := by
  refine countP_eq_zero.mpr fun observed member => ?_
  rw [unsent observed member]
  exact Bool.false_ne_true

theorem Inquiry.unended (inquiry : Inquiry engine row bound trace) : trace.any endsCall = false := by
  refine any_eq_false.mpr fun observed member => ?_
  cases inquiry.asks observed member <;> exact Bool.false_ne_true

theorem Inquiry.repeats {step : Nat} (inquiry : Inquiry engine row bound trace) :
    Repeats rows step bound trace :=
  ⟨inquiry.undispatched.sentCount_eq, inquiry.few, settledOnce_of_unended inquiry.unended,
    .inl ⟨inquiry.unended, inquiry.unchanged _⟩⟩

theorem PendingReplay.repeats (replayed : PendingReplay engine s row buffer trace outcome)
    (kind : row.eventType = .call) : Repeats rows row.step idempotencyReplayMaxAttempts trace := by
  have unsent := replayed.undispatched.sentCount_eq
  cases replayed with
  | cut asked | ambiguous asked => exact asked.repeats
  | @resolved earlier clockMs response errMsg errCode wrote asked told =>
    subst wrote
    refine ⟨unsent, ?_, SettledOnce.after _ asked.unended (pairwise_singleton ..),
      .inr ⟨resolvedRecord row clockMs response errMsg errCode, rfl, kind, ?_⟩⟩
    · rw [resentCount, countP_append]
      exact asked.few
    · rw [writes_append, asked.unchanged]
      rfl

end Pending

/-- A session stands at a step of its run over the rows the run has: it replays them, or it
has left replay behind all of them. -/
structure StandsAt (rows : History) (position : Nat) (s : ExecSession) : Prop where
  step : s.stepCount = position
  inside : position ≤ rows.length
  loaded : s.isReplay = true → s.history = rows
  caught : s.isReplay = false → rows.length = position

/-- A policy whose terminal event is stored behind its attempts. -/
def Finished (service operation : String) (position : Nat) (rows : History) : Prop :=
  ∃ attempts row rest, rows.drop position = attempts ++ row :: rest ∧
    (∀ attempt ∈ attempts, AttemptRow service operation attempt) ∧ EndedRow row

/-- What one incarnation of a policy keeps: a request needs a row or an interruption, the
rows from the call's step on are within the attempts if a request was sent, and a finished
policy is left alone. -/
structure WithinBudget (service operation : String) (policy : RetryPolicy) (position : Nat)
    (rows : History) (trace : Trace) : Prop where
  paid : sentCount trace + rows.length ≤
    (writes rows trace).length + (interrupted trace).toNat
  bounded : 0 < sentCount trace →
    ((writes rows trace).length : Int) ≤ position + policy.maxAttempts
  few : resentCount trace ≤ idempotencyReplayMaxAttempts
  done : Finished service operation position rows → trace = []
  ended : trace.any endsCall = true → Finished service operation position (writes rows trace)
  settled : SettledOnce trace

section Incarnation

theorem allowedAttempts_le (engine : Engine) (maxAttempts : Int) :
    engine.allowedAttempts maxAttempts ≤ maxAttempts := by
  unfold Engine.allowedAttempts
  split <;> omega

theorem stepCount_advanceAll (engine : Engine) (s : ExecSession) (rows : History) :
    (advanceAll engine s rows).stepCount = s.stepCount + rows.length ∧
      (advanceAll engine s rows).history = s.history := by
  induction rows generalizing s with
  | nil => exact ⟨rfl, rfl⟩
  | cons row rows ih =>
    obtain ⟨moved, same⟩ := ih (advanceReplayStep engine s row)
    refine ⟨moved.trans ?_, same⟩
    simp only [advanceReplayStep, length_cons]
    omega

variable {left : Nat} {rest attempts : History}

/-- An incarnation that finds only attempts of its policy, and may make the rest. -/
theorem Spends.within (spends : Spends service operation rows left trace)
    (inside : position ≤ rows.length)
    (attempts : ∀ row ∈ rows.drop position, AttemptRow service operation row)
    (allowed : 0 < left → (rows.length : Int) + left ≤ position + policy.maxAttempts) :
    WithinBudget service operation policy position rows trace where
  paid := by
    obtain ⟨added, ending, wrote, _, _, paid, _⟩ := spends.rows
    rw [wrote, length_append]
    omega
  bounded := by
    obtain ⟨added, ending, wrote, _, few, paid, _⟩ := spends.rows
    intro sent
    have able := allowed (Nat.lt_of_lt_of_le sent spends.few)
    rw [wrote, length_append]
    omega
  few := by
    rw [spends.attempted]
    exact Nat.zero_le _
  done := by
    rintro ⟨earlier, row, rest, held, _, ended⟩
    have attempt := attempts row (by simp [held])
    exact absurd (attempt.kind.symm.trans ended.1) (by simp)
  ended := by
    obtain ⟨added, ending, wrote, attempted, _, _, ended⟩ := spends.rows
    intro ends
    obtain ⟨row, rfl, finished⟩ := ended ends
    refine ⟨rows.drop position ++ added, row, [], ?_, ?_, finished⟩
    · rw [wrote, drop_append_of_le_length inside]
      simp
    · exact forall_mem_append.mpr ⟨attempts, attempted⟩
  settled := spends.settled

/-- New work is started behind the question whether it may. -/
theorem unlessStopped_spends {fresh : Work Replied} {reply : Reply}
    (started : fresh.Ensures Persisted fun trace _ =>
      Spends service operation rows left (acts trace)) :
    (stopBeforeNewWork engine s >>= fun stop => if stop then pure (reply, s) else fresh).Ensures
      Persisted fun trace _ => Spends service operation rows left (acts trace) := by
  refine ensures_acts_bind (fun shown _ => Spends service operation rows left shown)
    (every_stopBeforeNewWork engine s fun answer => ⟨rfl, rfl⟩) .nil fun stop => ?_
  split
  · exact .nil
  · exact started

/-- A record that is no attempt of the policy ends the search for attempts. -/
theorem replayRetryAttempts_ends (found : ReplayedAttempts)
    (other : ¬ AttemptRow service operation row) :
    replayRetryAttempts engine service operation (row :: rest) found =
      { found with resume := false } := by
  rw [replayRetryAttempts]
  by_cases kind : row.eventType = .callAttemptFailed
  · rw [if_neg (not_not.mpr kind)]
    have differs : row.service ≠ service ∨ row.op ≠ operation := by
      by_contra same
      simp only [not_or, not_not] at same
      exact other ⟨kind, same.1, same.2⟩
    rw [if_pos differs]
  · rw [if_pos kind]

/-- Completing the intent behind the attempts finishes the policy.

Proof: the rows are numbered by their positions, so no attempt has the step of the intent. -/
theorem finished_completeIntent {record : EventRecord} (dense : Dense rows)
    (held : rows.drop position = attempts ++ row :: rest)
    (attempted : ∀ attempt ∈ attempts, AttemptRow service operation attempt)
    (pending : row.pending = true) (same : record.step = row.step) (kind : record.eventType = .call) :
    Finished service operation position (completeIntent rows record) := by
  have numbered : ∀ index (held : EventRecord),
      (rows.drop position)[index]? = some held → held.step = position + index := by
    intro index held found
    rw [getElem?_drop] at found
    exact dense _ held found
  have own : row.step = position + attempts.length := numbered _ row (by simp [held])
  refine ⟨attempts, completeRow row record, rest.map fun row =>
    if row.step = record.step && row.pending then completeRow row record else row, ?_, attempted,
    kind, rfl⟩
  rw [completeIntent, ← map_drop, held, map_append, map_cons]
  congr 1
  · refine (map_congr_left fun attempt member => ?_).trans (map_id attempts)
    obtain ⟨index, inside, rfl⟩ := mem_iff_getElem.mp member
    have step := numbered index attempts[index] (by
      rw [held, getElem?_append_left inside, getElem?_eq_getElem inside])
    have apart : attempts[index].step ≠ record.step := by omega
    simp [apart]
  · simp [same, pending]

/-- The first record that is no attempt is the same however the attempts before it are found. -/
theorem first_other {others more : History} {other : EventRecord}
    (same : attempts ++ row :: rest = others ++ other :: more)
    (attempted : ∀ attempt ∈ attempts, AttemptRow service operation attempt)
    (alike : ∀ attempt ∈ others, AttemptRow service operation attempt)
    (ends : ¬ AttemptRow service operation row) (stops : ¬ AttemptRow service operation other) :
    row = other := by
  classical
  have first : (attempts ++ row :: rest).find? (¬ AttemptRow service operation ·) = some row :=
    find?_eq_some_iff_append.mpr ⟨by simpa, attempts, rest, rfl, by simpa⟩
  rw [find?_eq_some_iff_append.mpr ⟨by simpa, others, more, same, by simpa⟩] at first
  exact (Option.some.inj first).symm

theorem EndedRow.other (ended : EndedRow row) :
    ¬ AttemptRow service operation row :=
  fun attempt => absurd (attempt.kind.symm.trans ended.1) (by simp)

/-- An incarnation that asks nothing. -/
theorem WithinBudget.at_once {result : Replied}
    (runs : (Durable.Program.done result).Runs trace outcome) : WithinBudget service operation policy
      position rows trace := by
  obtain ⟨rfl, _⟩ := (runs_done _ _ _).mp runs
  exact ⟨by simp [sentCount], by simp [sentCount], Nat.zero_le _, fun _ => rfl, by simp,
    List.Pairwise.nil⟩

/-- The rows that a list begins with that are attempts of the policy, and the rest. -/
theorem exists_attempts (rows : History) :
    ∃ attempts rest, rows = attempts ++ rest ∧
      (∀ attempt ∈ attempts, AttemptRow service operation attempt) ∧
      ∀ row ∈ rest.head?, ¬ AttemptRow service operation row := by
  classical
  refine ⟨rows.takeWhile (AttemptRow service operation ·), rows.dropWhile
    (AttemptRow service operation ·), takeWhile_append_dropWhile.symm, ?_, ?_⟩
  · exact fun attempt member => by simpa using all_eq_true.mp all_takeWhile attempt member
  · intro row first
    have stops := head?_dropWhile_not (AttemptRow service operation ·) rows
    rw [Option.mem_def.mp first] at stops
    simpa using stops

/-- Looking for the outcome of the intent behind the attempts. -/
theorem Repeats.within (repeats : Repeats rows row.step idempotencyReplayMaxAttempts trace)
    (dense : Dense rows) (held : rows.drop position = attempts ++ row :: rest)
    (attempted : ∀ attempt ∈ attempts, AttemptRow service operation attempt)
    (other : ¬ AttemptRow service operation row) (pending : row.pending = true) :
    WithinBudget service operation policy position rows trace where
  paid := by
    rw [repeats.unsent]
    rcases repeats.wrote with ⟨_, unchanged⟩ | ⟨record, _, _, completed⟩
    · rw [unchanged]
      omega
    · rw [completed, completeIntent, length_map]
      omega
  bounded := by simp [repeats.unsent]
  few := repeats.few
  done := by
    rintro ⟨others, ended, more, found, alike, finished⟩
    have same := first_other (held.symm.trans found) attempted alike other finished.other
    rw [same, finished.2] at pending
    cases pending
  ended := by
    intro ends
    rcases repeats.wrote with ⟨unended, _⟩ | ⟨record, same, kind, completed⟩
    · rw [unended] at ends
      cases ends
    · rw [completed]
      exact finished_completeIntent dense held attempted pending same kind
  settled := repeats.settled

variable (dense : Dense rows) (stands : StandsAt rows position s)
  (runs : (durableCallWithRetry engine s service operation request policy buffer).Runs trace outcome)
  (kept : ∀ observed ∈ trace, Persisted observed)

include dense stands runs kept

/-- An incarnation in a session that has left replay. -/
theorem forward_within (stored : engine.db = true) (forward : s.isReplay = false) :
    WithinBudget service operation policy position rows trace := by
  have behind := stands.caught forward
  have spends : (durableCallWithRetry engine s service operation request policy buffer).Ensures
      Persisted fun trace _ => Spends service operation rows
        (engine.allowedAttempts policy.maxAttempts).toNat (acts trace) := by
    unfold durableCallWithRetry
    rw [forward, if_neg (by simp)]
    refine unlessStopped_spends ?_
    split
    · exact .nil
    · have fresh : (freshCallWithRetry engine s service operation request policy buffer 0 none).Ensures
          Persisted _ :=
        freshCallWithRetry_spends stored forward dense (stands.step.trans behind.symm) 0 none
      simpa using fresh
  refine (spends.of_runs runs kept).of_acts.within stands.inside ?_ fun able => ?_
  · rw [drop_eq_nil_of_le (Nat.le_of_eq behind)]
    simp
  · have limited := allowedAttempts_le engine policy.maxAttempts
    omega

/-- An incarnation that finds nothing but attempts of its policy makes those that are left,
and a single one if it finds none. -/
theorem resumed_within (stored : engine.db = true) (positive : 1 ≤ policy.maxAttempts)
    (replaying : s.isReplay = true)
    (attempts : ∀ row ∈ rows.drop position, AttemptRow service operation row) :
    WithinBudget service operation policy position rows trace := by
  have inside := stands.inside
  have held : s.remaining = rows.drop position := by
    rw [ExecSession.remaining, stands.loaded replaying, stands.step]
  obtain ⟨resume, found⟩ := replayRetryAttempts_attempts engine (rows.drop position) []
    ⟨s, 0, none, false⟩ attempts
  rw [append_nil] at found
  have length : (rows.drop position).length = rows.length - position := length_drop
  obtain ⟨moved, same⟩ := stepCount_advanceAll engine s (rows.drop position)
  have stepped : (advanceAll engine s (rows.drop position)).stepCount = rows.length := by
    rw [moved, stands.step, length]
    omega
  have exited : (exitReplay (advanceAll engine s (rows.drop position))).stepCount = rows.length :=
    stepped
  unfold durableCallWithRetry at runs
  rw [if_pos replaying, held, found] at runs
  by_cases nothing : rows.length = position
  · have empty : ¬ 0 < 0 + (rows.drop position).length := by omega
    have ended : (advanceAll engine s (rows.drop position)).history[
        (advanceAll engine s (rows.drop position)).stepCount]? = none := by
      rw [same, stands.loaded replaying, stepped]
      simp
    simp only [replayRetryAttempts, empty, decide_false, Bool.not_false, if_true, replayCall,
      ended] at runs
    have did : CallActs engine _ ⟨service, operation, request⟩ _ (acts trace) outcome :=
      (freshCall_acts persisted_flush stored rfl).of_runs runs kept
    refine (did.spends dense exited).of_acts.within inside attempts fun _ => ?_
    omega
  · have begun : 0 < 0 + (rows.drop position).length := by omega
    simp only [replayRetryAttempts, begun, decide_true, Bool.not_true, Bool.false_eq_true, if_false]
      at runs
    have spends := (unlessStopped_spends (freshCallWithRetry_spends stored rfl dense
      exited _ _)).of_runs runs kept
    refine spends.of_acts.within inside attempts fun able => ?_
    have limited := allowedAttempts_le engine policy.maxAttempts
    omega

omit kept in
/-- An incarnation that finds a record other than an attempt sends nothing new: it is
answered from the record, or looks for the outcome of an intent. -/
theorem replayed_within (replaying : s.isReplay = true)
    (held : rows.drop position = attempts ++ row :: rest)
    (attempted : ∀ attempt ∈ attempts, AttemptRow service operation attempt)
    (other : ¬ AttemptRow service operation row) :
    WithinBudget service operation policy position rows trace := by
  obtain ⟨resume, found⟩ := replayRetryAttempts_attempts engine attempts (row :: rest)
    ⟨s, 0, none, false⟩ attempted
  obtain ⟨moved, same⟩ := stepCount_advanceAll engine s attempts
  have here : (advanceAll engine s attempts).current = some row := by
    rw [ExecSession.current, same, stands.loaded replaying, moved, stands.step, ← getElem?_drop, held]
    simp
  unfold durableCallWithRetry at runs
  rw [if_pos replaying, ExecSession.remaining, stands.loaded replaying, stands.step, held, found,
    replayRetryAttempts_ends _ other] at runs
  simp only [Bool.not_false, if_true, replayCall, here] at runs
  split at runs
  · exact .at_once runs
  · rename_i kind
    split at runs
    · exact .at_once runs
    · split at runs
      · rename_i pending
        have replayed := (replayPendingIntent_ends _ buffer).of_runs runs fun _ _ => trivial
        exact (replayed.repeats (not_not.mp kind)).within dense held attempted other pending
      · exact .at_once runs

/-- One incarnation of a policy.

Proof: the rows from the call's step on begin with attempts of the policy. If there is
nothing else the policy goes on, and otherwise the first other record decides. -/
theorem durableCallWithRetry_within (stored : engine.db = true)
    (positive : 1 ≤ policy.maxAttempts) :
    WithinBudget service operation policy position rows trace := by
  cases replaying : s.isReplay with
  | false => exact forward_within dense stands runs kept stored replaying
  | true =>
    obtain ⟨attempts, rest, held, attempted, ends⟩ := exists_attempts (rows.drop position)
    cases rest with
    | nil =>
      rw [append_nil] at held
      exact resumed_within dense stands runs kept stored positive replaying (held ▸ attempted)
    | cons row rest =>
      exact replayed_within dense stands runs replaying held attempted (ends row rfl)

end Incarnation

/-- The incarnations of one call, each with what was observed in it: each stands at the
call's step over the rows that the earlier ones left, and over whatever other calls wrote
behind them. -/
inductive Incarnations (service operation request : String) (policy : RetryPolicy)
    (position : Nat) : History → List Trace → Prop where
  | none (rows : History) : Incarnations service operation request policy position rows []
  | next {rows later : History} {engine : Engine} {s : ExecSession} {buffer : OutBuf}
      {trace : Trace} {outcome : Option Replied}
      {traces : List Trace} (stored : engine.db = true) (dense : Dense rows)
      (stands : StandsAt rows position s)
      (runs : (durableCallWithRetry engine s service operation request policy buffer).Runs trace
        outcome)
      (kept : ∀ observed ∈ trace, Persisted observed)
      (after : Incarnations service operation request policy position
        (writes rows trace ++ later) traces) :
      Incarnations service operation request policy position rows (trace :: traces)

section Budget

variable {traces : List Trace}

theorem length_writes (rows : History) (trace : Trace) :
    rows.length ≤ (writes rows trace).length := by
  induction trace generalizing rows with
  | nil => exact Nat.le_refl _
  | cons observed trace ih => exact Nat.le_trans (length_applyObserved rows observed) (ih _)

theorem Finished.append (finished : Finished service operation position rows)
    (later : History) : Finished service operation position (rows ++ later) := by
  obtain ⟨attempts, row, rest, held, attempted, ended⟩ := finished
  have inside : position ≤ rows.length := by
    by_contra beyond
    rw [drop_eq_nil_of_le (by omega)] at held
    simp at held
  refine ⟨attempts, row, rest ++ later, ?_, attempted, ended⟩
  rw [drop_append_of_le_length inside, held]
  simp

section

variable (positive : 1 ≤ policy.maxAttempts)
  (run : Incarnations service operation request policy position rows traces)

include positive run

/-- The incarnations of a finished policy ask nothing. -/
theorem Incarnations.finished (finished : Finished service operation position rows) :
    traces.flatten = [] := by
  induction run with
  | none rows => rfl
  | next stored dense stands runs kept after ih =>
    have within := durableCallWithRetry_within dense stands runs kept stored positive
    obtain rfl := within.done finished
    simpa using ih (finished.append _)

/-- What is left of the attempts pays for the requests of all later incarnations. -/
theorem Incarnations.sent_le :
    sentCount traces.flatten ≤
      (position + policy.maxAttempts - rows.length).toNat + traces.countP interrupted := by
  induction run with
  | none rows => exact Nat.zero_le _
  | @next rows later engine s buffer trace outcome traces stored dense stands runs kept after ih =>
    have within := durableCallWithRetry_within dense stands runs kept stored positive
    have grown := length_writes rows trace
    have paid := within.paid
    have bounded := within.bounded
    have counted : (trace :: traces).countP interrupted =
        traces.countP interrupted + (interrupted trace).toNat := by
      rw [countP_cons]
      cases interrupted trace <;> rfl
    rw [length_append] at ih
    rw [counted, flatten_cons, sentCount_append]
    by_cases sent : 0 < sentCount trace
    · have limit := bounded sent
      omega
    · omega

/-- Nothing reaches the service behind the terminal event, in the same incarnation or in a
later one. -/
theorem Incarnations.settled :
    SettledOnce traces.flatten := by
  induction run with
  | none rows => exact List.Pairwise.nil
  | @next rows later engine s buffer trace outcome traces stored dense stands runs kept after ih =>
    have within := durableCallWithRetry_within dense stands runs kept stored positive
    refine pairwise_append.mpr ⟨within.settled, ih, fun one member next behind ends => ?_⟩
    have ended := within.ended (any_eq_true.mpr ⟨one, member, ends⟩)
    rw [after.finished positive (ended.append later)] at behind
    cases behind

end

/-- The attempts of a policy over all its incarnations. The requests sent for the call are at
most its attempts and one for each incarnation that ended between a request and its record.
A pending intent is repeated at most three times in an incarnation. Once the terminal event is
written nothing reaches the service.

Proof: the rows from the call's step on pay for the requests. They are counted by every
incarnation before it sends another one, and an incarnation that finds a terminal row asks
nothing. -/
theorem retry_budget_kept (positive : 1 ≤ policy.maxAttempts) (fresh : rows.length = position)
    (run : Incarnations service operation request policy position rows traces) :
    (sentCount traces.flatten : Int) ≤ policy.maxAttempts + traces.countP interrupted ∧
      (∀ trace ∈ traces, resentCount trace ≤ idempotencyReplayMaxAttempts) ∧
      SettledOnce traces.flatten := by
  refine ⟨?_, ?_, run.settled positive⟩
  · have sent := run.sent_le positive
    omega
  · clear fresh
    induction run with
    | none rows => simp
    | next stored dense stands runs kept after ih =>
      have within := durableCallWithRetry_within dense stands runs kept stored positive
      simpa only [forall_mem_cons] using ⟨within.few, ih⟩

end Budget

/-- A session that replays the rows of its run up to a step. -/
def replayedTo (position : Nat) (rows : History) : ExecSession :=
  { history := rows, stepCount := position, isReplay := true, nowMs := 0 }

/-- What a policy in a session observes that is answered a number of queries. -/
def policyTrace (engine : Engine) (policy : RetryPolicy) (s : ExecSession) (around : Surroundings)
    (answers : Nat) : Trace :=
  ((durableCallWithRetry engine s "svc" "op" "" policy roomy).run
    (List.replicate answers around.answer)).1

/-- An incarnation that is answered a number of queries, and those behind it. -/
theorem incarnations_policyTrace {engine : Engine} {policy : RetryPolicy} {around : Surroundings}
    {answers : Nat} {traces : List Trace} {s : ExecSession} (stored : engine.db = true)
    (dense : Dense rows) (stands : StandsAt rows position s)
    (kept : (policyTrace engine policy s around answers).all keepsEvent = true)
    (after : Incarnations "svc" "op" "" policy position
      (writes rows (policyTrace engine policy s around answers)) traces) :
    Incarnations "svc" "op" "" policy position rows
      (policyTrace engine policy s around answers :: traces) := by
  rw [← append_nil (writes rows _)] at after
  exact .next stored dense stands (run_runs _ _) (all_eq_true.mp kept) after

theorem standsAt_replayedTo (inside : position ≤ rows.length) :
    StandsAt rows position (replayedTo position rows) :=
  ⟨rfl, inside, fun _ => rfl, fun forward => absurd forward (by simp [replayedTo])⟩

/-- A policy of three attempts fails once. -/
def failedOnce : Trace :=
  policyTrace {} threeAttempts { replayedTo 0 [] with isReplay := false }
    { service := .error ⟨"down", "", none, "", ""⟩ } 4

/-- Its next incarnation succeeds. -/
def resumedAttempt : Trace :=
  policyTrace {} threeAttempts (replayedTo 0 (writes [] failedOnce)) {} 4

theorem retry_budget_kept_resumed :
    sentCount [failedOnce, resumedAttempt].flatten = 2 ∧
      (sentCount [failedOnce, resumedAttempt].flatten : Int) ≤
        3 + [failedOnce, resumedAttempt].countP interrupted := by
  have empty : Dense [] := by
    intro index row found
    simp at found
  have dense : Dense (writes [] failedOnce) := by
    have attempt : writes [] failedOnce = [] ++ [rowOf { attemptEvent 0 "svc" "op" 1 "down" with
        timestampMs := 1000 }] := by
      decide +kernel
    exact empty.snoc rfl
  have stands : StandsAt [] 0 { replayedTo 0 [] with isReplay := false } :=
    ⟨rfl, Nat.le_refl 0, fun _ => rfl, fun _ => rfl⟩
  have run : Incarnations "svc" "op" "" threeAttempts 0 [] [failedOnce, resumedAttempt] := by
    refine incarnations_policyTrace rfl empty stands (by decide +kernel) ?_
    exact incarnations_policyTrace rfl dense (standsAt_replayedTo (Nat.zero_le _))
      (by decide +kernel) (.none _)
  have positive : 1 ≤ threeAttempts.maxAttempts := by decide
  have unmade : ([] : History).length = 0 := rfl
  exact ⟨by decide +kernel, (retry_budget_kept positive unmade run).1⟩

/-- The rows of a run whose only event is consumed when it comes to the policy. -/
def consumedRows : History := [callEvent 0 "svc" "first" "" "done" ""]

/-- An engine that repeats pending intents of one operation. -/
def repeatingEngine : Engine :=
  { intentOps := ["svc.op"], idempotencyKeyReplayer := true, idempotencyKeyOps := ["svc.op"] }

/-- A policy of one attempt is lost between its request and the record. -/
def strandedAttempt : Trace :=
  policyTrace repeatingEngine singleAttempt (replayedTo 1 consumedRows) {} 4

/-- A later incarnation repeats the request. -/
def repeatedAttempt : Trace :=
  policyTrace repeatingEngine singleAttempt (replayedTo 1 (writes consumedRows strandedAttempt)) {} 3

/-- A policy of one attempt whose only request is lost with its worker, on a service that
cannot say what became of it. Each of two later incarnations sends the request again. -/
theorem pending_intent_exceeds_attempts : ¬ ∀ (service operation request : String)
    (policy : RetryPolicy) (position : Nat) (rows : History)
    (traces : List Trace), 1 ≤ policy.maxAttempts → rows.length = position →
    Incarnations service operation request policy position rows traces →
    (traces.flatten.countP reachesService : Int) ≤
      policy.maxAttempts + traces.countP interrupted := by
  intro claimed
  have first : Dense consumedRows := by
    intro index row found
    rcases index with _ | index
    · cases found
      rfl
    · simp [consumedRows] at found
  have stranded : writes consumedRows strandedAttempt =
      consumedRows ++ [intentRow (callEvent 1 "svc" "op" "" "" "") 1000] := by
    decide +kernel
  have dense : Dense (writes consumedRows strandedAttempt) := by
    exact first.snoc rfl
  have unchanged : writes (writes consumedRows strandedAttempt) repeatedAttempt =
      writes consumedRows strandedAttempt := by
    decide +kernel
  have again : ∀ traces,
      Incarnations "svc" "op" "" singleAttempt 1 (writes consumedRows strandedAttempt) traces →
      Incarnations "svc" "op" "" singleAttempt 1 (writes consumedRows strandedAttempt)
        (repeatedAttempt :: traces) := by
    intro traces after
    refine incarnations_policyTrace rfl dense (standsAt_replayedTo (by decide +kernel))
      (by decide +kernel) ?_
    exact unchanged.symm ▸ after
  have run : Incarnations "svc" "op" "" singleAttempt 1 consumedRows
      [strandedAttempt, repeatedAttempt, repeatedAttempt] :=
    incarnations_policyTrace rfl first (standsAt_replayedTo (by decide)) (by decide +kernel)
      (again _ (again _ (.none _)))
  have exceeded := claimed "svc" "op" "" singleAttempt 1 consumedRows _ (by decide) rfl run
  revert exceeded
  decide +kernel

end Cleat
