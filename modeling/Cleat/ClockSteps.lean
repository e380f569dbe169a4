import Cleat.GuestCalls
import Cleat.Runs

/-!
# How a session's time moves

A guest reads the session's time, or that of the event behind its position if that is later. Four
things move it: an event that is replayed, an event that is recorded, an event that is appended
under a time of its own, and a sleep. Only recording makes sure that the session's time does not
go back.

`Timing` is this part of a session by itself. Every call of a guest is a sequence of its steps,
and the time that is shown goes back at a step exactly when the step is not `Forward`.
-/
namespace Cleat

open Durable Durable.Program List

/-- The part of a session that tells the time: the times of its history, its position and its
own time. -/
structure Timing where
  times : List Int
  stepCount : Nat
  nowMs : Int
deriving DecidableEq, Repr

def ExecSession.timing (s : ExecSession) : Timing :=
  ⟨s.history.map EventRecord.timestampMs, s.stepCount, s.nowMs⟩

attribute [local simp] ExecSession.timing

/-- What moves a session's time. -/
inductive ClockStep where
  | replay
  | record (clockMs : Int)
  | adopt (timeMs : Int)
  | sleep (durationMs clockMs : Int)
deriving DecidableEq, Repr

namespace Timing

/-- The time of the event behind the position. -/
def last (t : Timing) : Option Int := if 0 < t.stepCount then t.times[t.stepCount - 1]? else none

/-- The time that is shown to the guest. -/
def now (t : Timing) : Int := max t.nowMs (t.last.getD t.nowMs)

/-- An event is appended, and the session's time is the event's. -/
def append (t : Timing) (timeMs : Int) : Timing :=
  ⟨t.times ++ [timeMs], t.stepCount + 1, timeMs⟩

/-- The time at which a sleep ends. It is counted from the time that is shown, or from the
worker's clock while there is none. -/
def sleepEnd (t : Timing) (durationMs clockMs : Int) : Int :=
  int64 ((if t.now ≤ 0 then clockMs else t.now) + durationMs)

/-- The effect of a step. An event without a time does not move the session's. -/
def take (t : Timing) : ClockStep → Timing
  | .replay =>
    match t.times[t.stepCount]? with
    | none => t
    | some timeMs =>
      { t with stepCount := t.stepCount + 1, nowMs := if 0 < timeMs then timeMs else t.nowMs }
  | .record clockMs => t.append (max clockMs t.nowMs)
  | .adopt timeMs => t.append timeMs
  | .sleep durationMs clockMs => { t with nowMs := t.sleepEnd durationMs clockMs }

def run (t : Timing) (steps : List ClockStep) : Timing := steps.foldl take t

/-- The step does not bring a time that is behind the one shown: an event that is replayed or
recorded and a sleep's end are not behind it, or the event that then stands behind the position
is not. -/
def Ahead (t : Timing) : ClockStep → Prop
  | .replay => ∀ timeMs ∈ t.times[t.stepCount]?,
      t.now ≤ if 0 < timeMs then timeMs else max t.nowMs timeMs
  | .record clockMs => t.now ≤ max clockMs t.nowMs ∨ ∃ left ∈ t.times[t.stepCount]?, t.now ≤ left
  | .adopt timeMs => t.now ≤ timeMs ∨ ∃ left ∈ t.times[t.stepCount]?, t.now ≤ left
  | .sleep durationMs clockMs =>
    t.now ≤ t.sleepEnd durationMs clockMs ∨ ∃ timeMs ∈ t.last, t.now ≤ timeMs

/-- Each step of a sequence is ahead where it is taken. -/
def Forward : Timing → List ClockStep → Prop
  | _, [] => True
  | t, step :: rest => t.Ahead step ∧ Forward (t.take step) rest

/-- The time that is shown does not go back at any step of a sequence. -/
def Steady : Timing → List ClockStep → Prop
  | _, [] => True
  | t, step :: rest => t.now ≤ (t.take step).now ∧ Steady (t.take step) rest

theorem now_append (t : Timing) (timeMs : Int) :
    (t.append timeMs).now = max timeMs (t.times[t.stepCount]?.getD timeMs) := by
  have behind : (t.append timeMs).last = (t.times ++ [timeMs])[t.stepCount]? := by
    simp [last, append]
  rw [now, behind]
  by_cases inside : t.stepCount < t.times.length
  · rw [getElem?_append_left inside, getElem?_eq_getElem inside]
    rfl
  · rw [getElem?_append_right (by omega), getElem?_eq_none (by omega : t.times.length ≤ t.stepCount)]
    cases t.stepCount - t.times.length <;> simp [append]

theorem le_now_append_iff (t : Timing) (timeMs : Int) :
    t.now ≤ (t.append timeMs).now ↔
      t.now ≤ timeMs ∨ ∃ left ∈ t.times[t.stepCount]?, t.now ≤ left := by
  rw [now_append]
  cases t.times[t.stepCount]? with
  | none => simp
  | some left =>
    simp only [Option.getD_some, Option.mem_some_iff, exists_eq_left']
    omega

theorem le_now_take_iff (t : Timing) (step : ClockStep) :
    t.now ≤ (t.take step).now ↔ t.Ahead step := by
  cases step with
  | replay =>
    unfold take Ahead
    cases here : t.times[t.stepCount]? with
    | none => simp
    | some timeMs =>
      have shown : (⟨t.times, t.stepCount + 1,
          if 0 < timeMs then timeMs else t.nowMs⟩ : Timing).now =
          if 0 < timeMs then timeMs else max t.nowMs timeMs := by
        simp only [now, last, Nat.zero_lt_succ, if_true, Nat.add_sub_cancel, here,
          Option.getD_some]
        split <;> omega
      simp only [shown, Option.mem_some_iff, forall_eq']
  | record clockMs => exact le_now_append_iff t _
  | adopt timeMs => exact le_now_append_iff t _
  | sleep durationMs clockMs =>
    unfold take Ahead
    have shown : ({ t with nowMs := t.sleepEnd durationMs clockMs } : Timing).now =
        max (t.sleepEnd durationMs clockMs) (t.last.getD (t.sleepEnd durationMs clockMs)) := rfl
    rw [shown]
    cases t.last with
    | none => simp
    | some timeMs =>
      simp only [Option.getD_some, Option.mem_some_iff, exists_eq_left']
      omega

theorem steady_iff_forward (t : Timing) (steps : List ClockStep) :
    t.Steady steps ↔ t.Forward steps := by
  induction steps generalizing t with
  | nil => exact Iff.rfl
  | cons step rest ih => exact and_congr (t.le_now_take_iff step) (ih _)

end Timing

/-- The time that a guest reads is that of the session's timing. -/
theorem nowValue_eq (s : ExecSession) : nowValue s = s.timing.now := by
  unfold nowValue Timing.now Timing.last
  split
  · rename_i inside
    have same : s.timing.times[s.timing.stepCount - 1]? =
        s.history[s.stepCount - 1]?.map EventRecord.timestampMs := getElem?_map ..
    rw [if_pos (by exact inside), same]
    cases s.history[s.stepCount - 1]? with
    | none => simp
    | some record =>
      change (if record.timestampMs > s.nowMs then record.timestampMs else s.nowMs) =
        max s.nowMs record.timestampMs
      split <;> omega
  · rename_i start
    rw [if_neg (by exact start)]
    simp

/-- The call can append an event under a time that is not compared with the session's: the
result of an operation that is declared write-ahead, and the start of a child. -/
def GuestCall.adoptsTime (engine : Engine) : GuestCall → Bool
  | .host (.durableCall service operation _ _) =>
    engine.callSemantics service operation = .writeAheadIntent
  | .host (.durableCallWithRetry service operation _ _ _) =>
    engine.callSemantics service operation = .writeAheadIntent
  | .childWorkflow _ _ => engine.childWfStore
  | _ => false

/-- Records of the history are replayed one after the other. -/
inductive Consumes (engine : Engine) : ExecSession → ExecSession → Prop where
  | refl {s : ExecSession} : Consumes engine s s
  | step {s after : ExecSession} {record : EventRecord} (found : s.current = some record)
      (rest : Consumes engine (advanceReplayStep engine s record) after) :
      Consumes engine s after

section Ticking

variable {Permitted : ClockStep → Prop} {engine : Engine} {s : ExecSession} {α β : Type}

/-- What the work leaves of a session's time is what a sequence of permitted steps makes of it. -/
def Ticking (Permitted : ClockStep → Prop) (s : ExecSession) (work : Work (α × ExecSession)) :
    Prop :=
  work.Ensures (fun _ => True) fun _ outcome => ∀ value after, outcome = some (value, after) →
    ∃ steps, (∀ step ∈ steps, Permitted step) ∧ after.timing = s.timing.run steps

variable {value : α} {middle s : ExecSession} {work : Work (α × ExecSession)} {record : EventRecord}
  {rest : History}

theorem Ticking.done {after : ExecSession} (same : after.timing = s.timing) :
    Ticking Permitted s (.done (value, after) : Work (α × ExecSession)) := by
  intro given session returned
  cases returned
  exact ⟨[], by simp, same⟩

theorem Ticking.ask {query : Query} {next : Answer query → Work (α × ExecSession)}
    (rest : ∀ answer, Ticking Permitted s (next answer)) : Ticking Permitted s (.ask query next) :=
  ⟨by simp, fun answer _ => rest answer⟩

/-- Work that does not hand on a session leaves the time alone. -/
theorem Ticking.skip {first : Work β} {next : β → Work (α × ExecSession)}
    (rest : ∀ value, Ticking Permitted s (next value)) : Ticking Permitted s (first >>= next) := by
  induction first with
  | done value => exact rest value
  | ask query more ih => exact .ask fun answer => ih answer

/-- Steps before what remains to be done. -/
theorem Ticking.after (steps : List ClockStep) (permitted : ∀ step ∈ steps, Permitted step)
    (moved : middle.timing = s.timing.run steps) (rest : Ticking Permitted middle work) :
    Ticking Permitted s work := by
  refine Program.Ensures.mono rest fun trace outcome ticks value after returned => ?_
  obtain ⟨more, allowed, reached⟩ := ticks value after returned
  refine ⟨steps ++ more, ?_, ?_⟩
  · simpa [or_imp, forall_and] using ⟨permitted, allowed⟩
  · rw [reached, moved, Timing.run, Timing.run, Timing.run, foldl_append]

theorem Ticking.of_timing (same : ExecSession) (equal : same.timing = s.timing)
    (rest : Ticking Permitted same work) : Ticking Permitted s work :=
  .after [] (by simp) equal rest

theorem Ticking.bind {first : Work (β × ExecSession)}
    {next : β × ExecSession → Work (α × ExecSession)} (begins : Ticking Permitted s first)
    (rest : ∀ value after, Ticking Permitted after (next (value, after))) :
    Ticking Permitted s (first >>= next) := by
  unfold Ticking
  rw [ensures_bind]
  refine Program.Ensures.mono begins fun trace outcome ticks => ?_
  cases outcome with
  | none => simp
  | some result =>
    obtain ⟨steps, permitted, moved⟩ := ticks result.1 result.2 rfl
    exact Ticking.after steps permitted moved (rest result.1 result.2)

/-- A record is replayed. -/
theorem Ticking.replayed (engine : Engine) (permitted : Permitted .replay)
    (found : s.current = some record)
    (rest : Ticking Permitted (advanceReplayStep engine s record) work) :
    Ticking Permitted s work := by
  refine .after [.replay] (by simpa using permitted) ?_ rest
  have time : s.timing.times[s.timing.stepCount]? = some record.timestampMs := by
    simp [found]
  simp only [Timing.run, foldl_cons, foldl_nil, Timing.take, time]
  rfl

/-- An event is recorded. -/
theorem Ticking.recorded {start : ExecSession}
    {next : EventPersistence × ExecSession → Work (α × ExecSession)}
    (permitted : ∀ clockMs, Permitted (.record clockMs)) (same : start.timing = s.timing)
    (rest : ∀ persistence after, Ticking Permitted after (next (persistence, after))) :
    Ticking Permitted s (recordEvent engine start record >>= next) := by
  refine .of_timing start same (.bind (.skip fun clockMs => ?_) rest)
  have moved : (appendEvent start (stampEvent start record clockMs)).timing =
      start.timing.run [.record clockMs] := by
    simp [appendEvent, stampEvent, Timing.run, Timing.take, Timing.append]
  refine .after [.record clockMs] (by simpa using permitted clockMs) moved ?_
  split
  · refine .skip fun persistence => ?_
    split <;> exact .done rfl
  · exact .done rfl

/-- An event is appended under a time of its own. -/
theorem Ticking.adopted {after : ExecSession} (permitted : Permitted (.adopt record.timestampMs))
    (same : after.timing = (appendEvent s record).timing) :
    Ticking Permitted s (.done (value, after) : Work (α × ExecSession)) := by
  refine .after [.adopt record.timestampMs] (by simpa using permitted) ?_ (.done same)
  simp [appendEvent, Timing.run, Timing.take, Timing.append]

theorem Ticking.consumed (permitted : Permitted .replay) (consumes : Consumes engine s middle)
    (rest : Ticking Permitted middle work) : Ticking Permitted s work := by
  induction consumes with
  | refl => exact rest
  | step found more ih => exact .replayed engine permitted found (ih rest)

/-- A call answers with a record that it replays. -/
theorem Ticking.replies {after : ExecSession} (permitted : Permitted .replay)
    (found : s.current = some record)
    (same : after.timing = (advanceReplayStep engine s record).timing) :
    Ticking Permitted s (.done (value, after) : Work (α × ExecSession)) :=
  .replayed engine permitted found (.done same)

variable (replays : Permitted .replay) (records : ∀ clockMs, Permitted (.record clockMs))
  {service operation request : String} {buffer : OutBuf} (s : ExecSession)

/-! The calls one after the other. What a call does is taken apart by the lemmas above: it asks
for something, records or replays an event, and goes on or returns. -/

theorem freshCallWithIntent_ticks (step : Nat) (adopts : ∀ timeMs, Permitted (.adopt timeMs)) :
    Ticking Permitted s (freshCallWithIntent engine s service operation request step) := by
  unfold freshCallWithIntent
  split
  · exact .done rfl
  · refine .skip fun written => ?_
    cases written with
    | error reason => exact .done rfl
    | ok createdAt =>
      refine .skip fun outcome => .skip fun clockMs => .skip fun completed => ?_
      cases completed with
      | error reason => exact .done rfl
      | ok _ =>
        unfold recordEventPersisted
        rw [bind_assoc]
        exact .skip fun timeMs => .adopted (adopts timeMs) rfl

theorem replayPendingIntent_ticks (record : EventRecord) :
    Ticking Permitted s (replayPendingIntent engine s record buffer) := by
  refine .skip fun replayed => ?_
  cases replayed with
  | some response => exact .done rfl
  | none =>
    refine .skip fun resolved => ?_
    obtain ⟨response, outcome⟩ := resolved
    cases outcome with
    | resolved | notSent => exact .done rfl
    | cannotSay =>
      refine .done ?_
      unfold recordAmbiguity
      split <;> rfl

theorem replayRetryAttempts_consumes (rest : History) (found : ReplayedAttempts)
    (left : found.session.remaining = rest) :
    Consumes engine found.session
      (replayRetryAttempts engine service operation rest found).session := by
  induction rest generalizing found with
  | nil => exact .refl
  | cons record rest ih =>
    unfold replayRetryAttempts
    split
    · exact .refl
    · split
      · exact .refl
      · exact .step (current_of_remaining left) (ih ⟨_, _, _, _⟩ (drop_of_remaining left))

theorem replayHeartbeats_consumes (rest : History) (s : ExecSession)
    (left : s.remaining = rest) :
    Consumes engine s (replayHeartbeats engine rest s) := by
  induction rest generalizing s with
  | nil => exact .refl
  | cons record rest ih =>
    unfold replayHeartbeats
    split
    · exact .step (current_of_remaining left) (ih _ (drop_of_remaining left))
    · exact .refl

theorem replayAnyAnswer_consumes (request : String) (rest : History) (s : ExecSession)
    (left : s.remaining = rest) :
    Consumes engine s (replayAnyAnswer engine request rest s).2 := by
  induction rest generalizing s with
  | nil => exact .refl
  | cons record rest ih =>
    unfold replayAnyAnswer
    split
    · exact .refl
    · split
      · exact .step (current_of_remaining left) .refl
      · exact .step (current_of_remaining left) (ih _ (drop_of_remaining left))

theorem replayStreamChunks_consumes (rest : History) (found : ReplayedStream)
    (left : found.session.remaining = rest) :
    Consumes engine found.session (replayStreamChunks engine rest found).session := by
  induction rest generalizing found with
  | nil => exact .refl
  | cons record rest ih =>
    unfold replayStreamChunks
    split
    · exact .refl
    · exact .step (current_of_remaining left) (ih ⟨_, _, _⟩ (drop_of_remaining left))

theorem releaseCurrentScope_ticks {next : ExecSession → Work Replied}
    (s : ExecSession) (rest : ∀ after, Ticking Permitted after (next after)) :
    Ticking Permitted s (releaseCurrentScope engine s >>= next) := by
  have forgotten : Ticking Permitted s (next (forgetHeldScope s s.scopeKey)) :=
    .of_timing _ rfl (rest _)
  unfold releaseCurrentScope
  split
  · split
    · rw [bind_assoc]
      exact .skip fun released => forgotten
    · exact forgotten
  · exact rest s

/-- A sleep moves the time to its end before anything else is done. -/
theorem Ticking.slept {durationMs : Int} (sleeps : ∀ clockMs, Permitted (.sleep durationMs clockMs))
    {next : Int → Work (α × ExecSession)} (rest : ∀ anchor,
      Ticking Permitted { s with nowMs := int64 (anchor + durationMs) } (next anchor)) :
    Ticking Permitted s (sleepAnchor s >>= next) := by
  have shown : (if nowValue s > s.nowMs then nowValue s else s.nowMs) = s.timing.now := by
    have least : s.nowMs ≤ s.timing.now := Int.le_max_left ..
    rw [nowValue_eq]
    split <;> omega
  have ends : ∀ anchor clockMs, anchor = (if s.timing.now ≤ 0 then clockMs else s.timing.now) →
      Ticking Permitted s (next anchor) := by
    intro anchor clockMs counted
    refine Ticking.after [.sleep durationMs clockMs] (by simpa using sleeps clockMs) ?_ (rest _)
    rw [counted]
    rfl
  unfold sleepAnchor
  rw [shown]
  dsimp only
  split
  · rename_i unset
    exact .skip fun clockMs => ends clockMs clockMs (if_pos unset).symm
  · rename_i set
    exact ends _ 0 (if_neg set).symm

theorem durableSleep_ticks (durationMs : Int)
    (sleeps : ∀ clockMs, Permitted (.sleep durationMs clockMs)) :
    Ticking Permitted s (durableSleep s durationMs) := by
  refine .slept s sleeps fun anchor => .skip fun realNowMs => ?_
  split <;> exact .done rfl

theorem serveWasiSleep_ticks (durationMs : Int)
    (sleeps : ∀ clockMs, Permitted (.sleep durationMs clockMs)) :
    Ticking Permitted s (serveWasiSleep s durationMs) := by
  unfold serveWasiSleep
  split
  · exact .done rfl
  · exact .slept s sleeps fun anchor => .skip fun realNowMs => .done rfl

include records

theorem dispatchCall_ticks :
    Ticking Permitted s (dispatchCall engine s service operation request buffer) := by
  refine .skip fun outcome => ?_
  cases outcome with
  | ok response => exact .recorded records rfl fun _ _ => .done rfl
  | error failure =>
    refine .skip fun stopped => ?_
    split
    · exact .done rfl
    · exact .recorded records rfl fun _ _ => .done rfl

theorem retryAttempts_ticks {policy : RetryPolicy} {codes : List String} {retryStep left : Nat}
    {attempt : Int} :
    Ticking Permitted s (retryAttempts engine policy codes service operation request retryStep
      buffer left attempt s) := by
  induction left generalizing attempt s with
  | zero => exact .skip fun never => never.elim
  | succ left ih =>
    refine .skip fun outcome => ?_
    cases outcome with
    | ok response => exact .recorded records rfl fun _ _ => .done rfl
    | error failure =>
      dsimp only
      split
      · exact .recorded records rfl fun _ _ => .done rfl
      · split
        · exact .recorded records rfl fun _ _ => .done rfl
        · refine .recorded records rfl fun _ after => .skip fun waited => ?_
          cases waited with
          | elapsed => exact ih _
          | contextDone | shutdownRequested => exact .done rfl

theorem freshCallWithRetry_ticks (policy : RetryPolicy) (spent : Nat) (resumeStep : Option Nat) :
    Ticking Permitted s (freshCallWithRetry engine s service operation request policy buffer spent
      resumeStep) := by
  unfold freshCallWithRetry
  split
  · exact .done rfl
  · exact retryAttempts_ticks records s

theorem beatHeart_ticks (ticks : Nat) (cancelled : Bool) (s : ExecSession) :
    Ticking Permitted s (beatHeart engine service operation ticks cancelled s) := by
  induction ticks generalizing cancelled s with
  | zero => exact .done rfl
  | succ ticks ih => exact .recorded records rfl fun _ after => .skip fun polled => ih _ after

theorem freshCallWithHeartbeat_ticks (intervalMs : Int) :
    Ticking Permitted s
      (freshCallWithHeartbeat engine s service operation request intervalMs buffer) := by
  refine .skip fun outcome => ?_
  split
  · exact .skip fun never => never.elim
  · refine .skip fun ticks => .bind (beatHeart_ticks records _ _ _) fun cancelled after => ?_
    refine .recorded records rfl fun _ last => ?_
    cases outcome <;> exact .done rfl

theorem freshSetScope_ticks (objectType instanceKey : String) :
    Ticking Permitted s (freshSetScope engine s objectType instanceKey buffer) := by
  unfold freshSetScope
  split
  · unfold clearScope
    rw [bind_assoc]
    exact releaseCurrentScope_ticks _ fun after => .done rfl
  · refine releaseCurrentScope_ticks _ fun after => ?_
    unfold acquireScope
    split
    · refine .skip fun acquired => ?_
      split
      · exact .recorded records rfl fun _ _ => .done rfl
      · exact .recorded records rfl fun _ _ => .done rfl
      · exact .of_timing _ rfl (.recorded records rfl fun _ _ => .done rfl)
    · exact .recorded records rfl fun _ _ => .done rfl

theorem collectChunks_ticks {pluginName functionName input : String} (left : Nat)
    (collected : List StreamEvent) (s : ExecSession) :
    Ticking Permitted s
      (collectChunks engine pluginName functionName input left collected s) := by
  induction left generalizing collected s with
  | zero => exact .done rfl
  | succ left ih => exact .skip fun chunk => .recorded records rfl fun _ after => ih _ after

theorem freshPluginCallStreaming_ticks (pluginName functionName input : String) :
    Ticking Permitted s
      (freshPluginCallStreaming engine s pluginName functionName input buffer) := by
  unfold freshPluginCallStreaming
  repeat' first
    | split
    | exact .recorded records rfl fun _ _ => .done rfl
    | exact .bind (collectChunks_ticks records _ _ _) fun _ _ => .done rfl
    | refine .skip fun _ => ?_
    | dsimp only

section

variable (adopts : engine.callSemantics service operation = .writeAheadIntent →
  ∀ timeMs, Permitted (.adopt timeMs))
include adopts

theorem freshCall_ticks :
    Ticking Permitted s (freshCall engine s service operation request buffer) := by
  refine .skip fun cancelled => ?_
  split
  · exact .done rfl
  · refine .skip fun admitted => ?_
    split
    · exact .done rfl
    · split
      · simp only [continueAsNew, pure_eq, bind_assoc, done_bind]
        exact .of_timing _ rfl (.recorded records rfl fun _ _ => .done rfl)
      · refine .of_timing { s with eventCount := s.eventCount + 1 } rfl ?_
        split
        · rename_i declared
          exact .bind (freshCallWithIntent_ticks _ _ (adopts declared)) fun _ _ => .done rfl
        · exact dispatchCall_ticks records _

include replays

theorem replayCall_ticks :
    Ticking Permitted s (replayCall engine s service operation request buffer) := by
  unfold replayCall
  repeat' first
    | split
    | exact .replies replays ‹_› rfl
    | exact .replayed engine replays ‹_› (replayPendingIntent_ticks _ _)
    | exact .of_timing _ rfl (freshCall_ticks records _ adopts)

theorem durableCall_ticks :
    Ticking Permitted s (durableCall engine s service operation request buffer) := by
  unfold durableCall
  split
  · exact replayCall_ticks replays records s adopts
  · refine .skip fun stopped => ?_
    split
    · exact .done rfl
    · exact freshCall_ticks records s adopts

theorem durableCallWithRetry_ticks (policy : RetryPolicy) :
    Ticking Permitted s
      (durableCallWithRetry engine s service operation request policy buffer) := by
  unfold durableCallWithRetry
  split
  · have consumed := @replayRetryAttempts_consumes engine service operation _ ⟨s, 0, none, false⟩ rfl
    dsimp only at consumed ⊢
    refine .consumed replays consumed ?_
    split
    · exact replayCall_ticks replays records _ adopts
    · refine .of_timing (exitReplay _) rfl (.skip fun stopped => ?_)
      split
      · exact .done rfl
      · exact freshCallWithRetry_ticks records _ _ _ _
  · refine .skip fun stopped => ?_
    split
    · exact .done rfl
    · split
      · exact .done rfl
      · exact freshCallWithRetry_ticks records _ _ _ _

end

include replays

theorem durableCallWithHeartbeat_ticks (intervalMs : Int) :
    Ticking Permitted s
      (durableCallWithHeartbeat engine s service operation request intervalMs buffer) := by
  have noted : ∀ s record, (recordAmbiguity s record).timing = s.timing := by
    intro s record
    unfold recordAmbiguity
    split <;> rfl
  unfold durableCallWithHeartbeat
  split
  · unfold replayCallWithHeartbeat
    refine .consumed replays (@replayHeartbeats_consumes engine _ s rfl) ?_
    dsimp only
    repeat' first
      | split
      | exact .replies replays ‹_› rfl
      | exact .replies replays ‹_› (noted _ _)
      | exact .of_timing _ rfl (freshCallWithHeartbeat_ticks records _ _)
  · refine .skip fun stopped => ?_
    split
    · exact .done rfl
    · exact freshCallWithHeartbeat_ticks records _ _

theorem setScope_ticks (objectType instanceKey : String) :
    Ticking Permitted s (setScope engine s objectType instanceKey buffer) := by
  have forgets : ∀ s, (forgetCurrentScope s).timing = s.timing := by
    intro s
    unfold forgetCurrentScope
    split <;> rfl
  unfold setScope replaySetScope
  repeat' first
    | split
    | exact .done (forgets s)
    | exact .replies replays ‹_› rfl
    | exact .replies replays ‹_› (forgets _)
    | exact .of_timing _ rfl (freshSetScope_ticks records _ _ _)
    | exact .replayed engine replays ‹_› (.of_timing _ rfl (freshSetScope_ticks records _ _ _))

theorem durableAwaitSignals_ticks (signalNames : String) (timeoutMs : Int)
    (nameBuffer payloadBuffer : OutBuf) : Ticking Permitted s
      (durableAwaitSignals engine s signalNames timeoutMs nameBuffer payloadBuffer) := by
  dsimp only [durableAwaitSignals, replayAwaitSignals, resumeAwaitSignals, freshAwaitSignals,
    receiveSignal]
  repeat' first
    | dsimp only
    | split
    | exact .done rfl
    | exact .replayed engine replays ‹_› (.done rfl)
    | exact .of_timing s rfl (.replayed engine replays ‹_› (.replies replays ‹_› rfl))
    | refine .recorded records rfl fun _ _ => ?_
    | refine .replayed engine replays ‹_› (.recorded records rfl fun _ _ => ?_)
    | refine .skip fun _ => ?_

theorem hostCall_ticks (call : HostCall)
    (adopts : (GuestCall.host call).adoptsTime engine → ∀ timeMs, Permitted (.adopt timeMs)) :
    Ticking Permitted s (call.execute engine s) := by
  cases call with
  | durableCall service operation request buffer =>
    exact durableCall_ticks replays records s fun declared =>
      adopts (by simpa [GuestCall.adoptsTime] using declared)
  | durableCallWithRetry service operation request policy buffer =>
    exact durableCallWithRetry_ticks replays records s
      (fun declared => adopts (by simpa [GuestCall.adoptsTime] using declared)) _
  | durableCallWithHeartbeat => exact durableCallWithHeartbeat_ticks replays records s _
  | setScope => exact setScope_ticks replays records s _ _
  | durableAwaitSignals => exact durableAwaitSignals_ticks replays records s _ _ _ _
  | _ =>
    unfold HostCall.execute
    dsimp only [sideEffect, replaySideEffect, freshSideEffect, createPromise, freshCreatePromise,
      awaitPromise, awaitStore, awaitPending, signalWorkflow, beginSignalWorkflow]
    -- An await looks at the history when it has forgotten the last rejection.
    refine .of_timing { s with awaitRejected := false } rfl ?_
    repeat' first
      | dsimp only
      | split
      | exact .done rfl
      | exact .replayed engine replays ‹_› (.done rfl)
      | refine .recorded records rfl fun _ _ => ?_
      | refine .replayed engine replays ‹_› (.recorded records rfl fun _ _ => ?_)
      | refine .skip fun _ => ?_

theorem childWorkflow_ticks (child : ChildRequest)
    (adopts : engine.childWfStore = true → ∀ timeMs, Permitted (.adopt timeMs)) :
    Ticking Permitted s (childWorkflow engine s child buffer) := by
  have starts : ∀ s version, engine.childWfStore = true →
      Ticking Permitted s (startChildInStore engine s child version buffer) := by
    intro s version stored
    refine .skip fun refused => ?_
    split
    · exact .done rfl
    · refine .skip fun clockMs => .skip fun started => ?_
      split
      · exact .done rfl
      · exact .adopted (adopts stored clockMs) rfl
  have begins : ∀ s, Ticking Permitted s (beginChildWorkflow engine s child buffer) := by
    intro s
    unfold beginChildWorkflow
    repeat' first
      | split
      | exact .done rfl
      | exact .recorded records rfl fun _ _ => .done rfl
      | exact starts _ _ ‹_›
      | refine .skip fun _ => ?_
  unfold childWorkflow
  repeat' first
    | split
    | exact .done rfl
    | exact .replies replays ‹_› rfl
    | exact .of_timing _ rfl (begins _)

theorem awaitAnyChild_ticks (runIDsJSON : String) :
    Ticking Permitted s (awaitAnyChild engine s runIDsJSON buffer) := by
  have fresh : ∀ s resumed,
      Ticking Permitted s (freshAwaitAnyChild engine s runIDsJSON buffer resumed) := by
    intro s resumed
    unfold freshAwaitAnyChild
    repeat' first
      | split
      | exact .done rfl
      | exact .recorded records rfl fun _ _ => .done rfl
      | refine .skip fun _ => ?_
  unfold awaitAnyChild
  split
  · exact .done rfl
  · split
    · split
      · exact .of_timing (exitReplay s) rfl (fresh _ _)
      · rename_i record found
        split
        · refine .replayed engine replays found ?_
          dsimp only
          split
          · exact .done rfl
          · refine .consumed replays
              (@replayAnyAnswer_consumes engine record.request _ (advanceReplayStep engine s record)
                rfl) ?_
            split
            · exact .done rfl
            · exact .of_timing (exitReplay _) rfl (fresh _ _)
        · exact .done rfl
    · exact fresh _ _

theorem pluginCall_ticks (pluginName functionName input : String) :
    Ticking Permitted s (pluginCall engine s pluginName functionName input buffer) := by
  unfold pluginCall replayPluginCall freshPluginCall freshPluginCallWithHistory
    freshPluginCallInternal
  repeat' first
    | dsimp only
    | split
    | exact .done rfl
    | exact .replies replays ‹_› rfl
    | refine .recorded records rfl fun _ _ => ?_
    | refine .replayed engine replays ‹_› (.recorded records rfl fun _ _ => ?_)
    | refine .skip fun _ => ?_

theorem pluginCallStreaming_ticks (pluginName functionName input : String) :
    Ticking Permitted s (pluginCallStreaming engine s pluginName functionName input buffer) := by
  unfold pluginCallStreaming
  split
  · unfold replayPluginCallStreaming
    split
    · exact .of_timing (exitReplay s) rfl (freshPluginCallStreaming_ticks records _ _ _ _)
    · exact .consumed replays (@replayStreamChunks_consumes engine _ ⟨s, [], 0⟩ rfl) (.done rfl)
  · refine .skip fun stopped => ?_
    split
    · exact .done rfl
    · exact freshPluginCallStreaming_ticks records _ _ _ _

theorem startDetachedRun_ticks (name input : String) (wantID : Bool) :
    Ticking Permitted s (startDetachedRun engine s name input buffer wantID) := by
  unfold startDetachedRun freshRunDetached
  repeat' first
    | dsimp only
    | split
    | exact .done rfl
    | exact .replies replays ‹_› rfl
    | refine .recorded records rfl fun _ _ => ?_
    | refine .skip fun _ => ?_

end Ticking

/-- The steps of the clock that a call can make. -/
def ClockStep.MadeBy (engine : Engine) (call : GuestCall) : ClockStep → Prop
  | .replay => True
  | .record _ => True
  | .adopt _ => call.adoptsTime engine = true
  | .sleep durationMs _ => call = .durableSleep durationMs ∨ call = .serveWasiSleep durationMs

/-- Every call moves the time by steps that it can make. -/
theorem guestCall_ticks (engine : Engine) (s : ExecSession) (call : GuestCall) :
    Ticking (ClockStep.MadeBy engine call) s (call.execute engine s) := by
  have replays : ClockStep.MadeBy engine call .replay := trivial
  have records : ∀ clockMs, ClockStep.MadeBy engine call (.record clockMs) := fun _ => trivial
  cases call with
  | host call => exact hostCall_ticks replays records s call fun adopts _ => adopts
  | durableSleep durationMs => exact durableSleep_ticks s durationMs fun _ => .inl rfl
  | childWorkflow => exact childWorkflow_ticks replays records s _ fun adopts _ => adopts
  | awaitAnyChild => exact awaitAnyChild_ticks replays records s _
  | pluginCall => exact pluginCall_ticks replays records s _ _ _
  | pluginCallStreaming => exact pluginCallStreaming_ticks replays records s _ _ _
  | serveWasiSleep durationMs =>
    exact .bind (serveWasiSleep_ticks s durationMs fun _ => .inr rfl)
      fun _ _ => .done rfl
  | runDetached | startDetached =>
    exact .bind (startDetachedRun_ticks replays records s _ _ _)
      fun _ _ => .done rfl
  | _ =>
    -- What is left asks, records and replays one event after the other.
    dsimp only [GuestCall.execute, now, pollSignal, pollCancellation, awaitChild, freshAwaitChild,
      awaitAllChildren, replayAwaitAllChildren, freshAwaitAllChildren, pollChild, acquireLock,
      replayAcquireLock, freshAcquireLock, releaseLock, freshReleaseLock, scheduleCron,
      beginScheduleCron, durableSend, durableScheduleInvoke, sendInBackground, durablePollUpdate,
      freshPollUpdate, durableCompleteUpdate, freshCompleteUpdate, continueAsNewCall, continueAsNewWithVersion,
      recordContinueAsNew, suspendToContinue, registerUpdateHandler, durableDefer, replayOrLeave,
      fetch, freshFetch, deleteCron, freshDeleteCron, listCrons, freshListCrons, resolvePromise,
      rejectPromise, settlePromise]
    repeat' first
      | dsimp only
      | split
      | exact .done rfl
      | exact .replayed engine replays ‹_› (.done rfl)
      | refine .recorded records rfl fun _ _ => ?_
      | refine .replayed engine replays ‹_› (.recorded records rfl fun _ _ => ?_)
      | refine .skip fun _ => ?_

/-- A call of a guest, and what its environment answers. -/
abbrev GivenCall := GuestCall × Script Query Answer

/-- The sessions before, between and after a guest's calls. A call that is cut is the last. -/
def guestSessions (engine : Engine) : ExecSession → List GivenCall → List ExecSession
  | s, [] => [s]
  | s, (call, script) :: rest =>
    s :: match ((call.execute engine s).run script).2 with
      | none => []
      | some (_, after) => guestSessions engine after rest

/-- What reading the clock before, between and after the calls returns. -/
def guestClock (engine : Engine) (s : ExecSession) (calls : List GivenCall) : List Int :=
  (guestSessions engine s calls).map nowValue

/-- For each call that returns, the steps by which it moves the time. -/
def Explains (engine : Engine) : ExecSession → List GivenCall → List (List ClockStep) → Prop
  | _, [], ticks => ticks = []
  | s, (call, script) :: rest, ticks =>
    match ((call.execute engine s).run script).2 with
    | none => ticks = []
    | some (_, after) => ∃ steps more, ticks = steps :: more ∧
        (∀ step ∈ steps, step.MadeBy engine call) ∧ after.timing = s.timing.run steps ∧
        Explains engine after rest more

theorem exists_explains (engine : Engine) (s : ExecSession) (calls : List GivenCall) :
    ∃ ticks, Explains engine s calls ticks := by
  induction calls generalizing s with
  | nil => exact ⟨[], rfl⟩
  | cons given rest ih =>
    obtain ⟨call, script⟩ := given
    unfold Explains
    cases outcome : ((call.execute engine s).run script).2 with
    | none => exact ⟨[], rfl⟩
    | some result =>
      have ticks := (guestCall_ticks engine s call).of_runs
        (run_runs _ script) (fun _ _ => trivial)
      obtain ⟨steps, made, moved⟩ := ticks result.1 result.2 outcome
      obtain ⟨more, explained⟩ := ih result.2
      exact ⟨steps :: more, steps, more, rfl, made, moved, explained⟩

theorem Timing.Forward.append {t : Timing} {first second : List ClockStep}
    (forward : t.Forward (first ++ second)) :
    t.now ≤ (t.run first).now ∧ (t.run first).Forward second := by
  induction first generalizing t with
  | nil => exact ⟨Int.le_refl _, forward⟩
  | cons step first ih =>
    obtain ⟨ahead, rest⟩ := forward
    obtain ⟨further, remaining⟩ := ih rest
    exact ⟨Int.le_trans ((t.le_now_take_iff step).mpr ahead) further, remaining⟩

/-- The time that is shown at the start of forward steps is not later than any that follows. -/
theorem guestClock_le_of_forward {engine : Engine} {s : ExecSession} {calls : List GivenCall}
    {ticks : List (List ClockStep)} (explained : Explains engine s calls ticks)
    (forward : s.timing.Forward ticks.flatten) :
    (∀ time ∈ guestClock engine s calls, nowValue s ≤ time) ∧
      (guestClock engine s calls).Pairwise (· ≤ ·) := by
  induction calls generalizing s ticks with
  | nil => simp [guestClock, guestSessions]
  | cons given rest ih =>
    obtain ⟨call, script⟩ := given
    unfold Explains at explained
    unfold guestClock guestSessions
    cases outcome : ((call.execute engine s).run script).2 with
    | none => simp
    | some result =>
      rw [outcome] at explained
      obtain ⟨steps, more, rfl, made, moved, remaining⟩ := explained
      obtain ⟨onward, rest⟩ := forward.append
      rw [← moved] at onward rest
      obtain ⟨least, ordered⟩ := ih remaining rest
      rw [← nowValue_eq, ← nowValue_eq] at onward
      have all : ∀ time ∈ guestClock engine result.2 _, nowValue s ≤ time :=
        fun time later => Int.le_trans onward (least time later)
      refine ⟨?_, pairwise_cons.mpr ⟨all, ordered⟩⟩
      exact forall_mem_cons.mpr ⟨Int.le_refl _, all⟩

/-- The time that a guest reads never goes back in a run whose clock steps are all ahead of it,
and it goes back at every other step. -/
theorem guestClock_ordered_of_forward (engine : Engine) (s : ExecSession) (calls : List GivenCall) :
    (∃ ticks, Explains engine s calls ticks) ∧
      ∀ ticks, Explains engine s calls ticks →
        (s.timing.Steady ticks.flatten ↔ s.timing.Forward ticks.flatten) ∧
        (s.timing.Forward ticks.flatten → (guestClock engine s calls).Pairwise (· ≤ ·)) :=
  ⟨exists_explains engine s calls, fun _ explained =>
    ⟨Timing.steady_iff_forward _ _, fun forward => (guestClock_le_of_forward explained forward).2⟩⟩

/-- A call that is declared write-ahead sets the session's time to the worker's clock, also when
that is behind. -/
theorem declared_call_turns_clock_back :
    ¬ (guestClock { intentOps := ["svc.op"], workflowStartMs := 1000 }
      (Engine.openSession { intentOps := ["svc.op"], workflowStartMs := 1000 } {} [])
      [(.host (.durableCall "svc" "op" "" roomy),
        replicate 20 (Surroundings.answer { clockMs := 500 }))]).Pairwise (· ≤ ·) := by
  decide +kernel

end Cleat
