import Cleat.Durable.Machine
import Mathlib.Data.List.Nodup

/-!
# The audit log's queue

A request hands its event to a bounded buffer. Workers take events from it and append them, with
retries; a shutdown drains what is buffered, stops waiting at a deadline, sweeps the buffer and
takes over the accounting of what is still in flight. An event ends on the recorded count or on
one of the lost counts.

Callers, workers, drain goroutines and the shutdown interleave freely. Each event is in the hands
of at most one of them, so the state of the goroutine that has an event is kept with the event.
How many goroutines take from the buffer is left open, and an append returns whenever and however
it likes. Times are in milliseconds.
-/
namespace Cleat.Audit

open Durable List Function

section Configuration

structure QueueConfig where
  bufferSize : Int := 0
  enqueueWaitMs : Int := 0
  retryDeadlineMs : Int := 0
  shutdownDrainMs : Int := 0

/-- A configured time, with the default for one that is not positive, and at most a bound. -/
def clampedMs (ms : Int) (default bound : Nat) : Nat :=
  if ms ≤ 0 then default else if ms.toNat < bound then ms.toNat else bound

def QueueConfig.capacity (c : QueueConfig) : Nat :=
  if c.bufferSize ≤ 0 then 1000 else min c.bufferSize.toNat 1000000

def QueueConfig.enqueueWait (c : QueueConfig) : Nat := clampedMs c.enqueueWaitMs 1000 30000

def QueueConfig.retryDeadline (c : QueueConfig) : Nat := clampedMs c.retryDeadlineMs 60000 3600000

def QueueConfig.shutdownDrain (c : QueueConfig) : Nat := clampedMs c.shutdownDrainMs 10000 25000

def retryBackoffMin : Nat := 100

def retryBackoffMax : Nat := 5000

end Configuration

section Entries

inductive LossReason where
  | bufferFull | insertFailed | shutdown | shutdownInflight
deriving DecidableEq

/-- Where the retries of an event are. -/
structure Attempt where
  attempt : Nat
  backoff : Nat
  giveUp : Nat
deriving DecidableEq

/-- Where the goroutine is that has an event in its hands. -/
inductive Phase where
  | fresh
  /-- The caller of `enqueue` has the read lock and is about to send. -/
  | sending
  | waiting (until' : Nat)
  /-- The caller gives the event up and has not counted it yet. -/
  | refused (reason : LossReason)
  | buffered
  | received
  /-- The id is stored in `inflight`. -/
  | registered
  | starting (run : Attempt)
  | appending (run : Attempt)
  | sleeping (until' : Nat) (run : Attempt)
  | succeeded
  /-- The event is on the recorded count, and its id may still be in `inflight`. -/
  | noted
  /-- The attempts are over without success. -/
  | leaving (reason : LossReason)
  /-- The worker has taken its id back and has not counted the loss yet. -/
  | losing (reason : LossReason)
  /-- The shutdown has taken the event from the buffer. -/
  | swept
  | finished
deriving DecidableEq

/-- What there is of one event: its goroutine, its id in `inflight`, whether the shutdown's range
over `inflight` has yet to come to it and has taken it, and what it was counted as. The last
three fields record the past: the appends begun, whether it was inside one when the shutdown
stopped waiting, and whether it was enqueued after the shutdown had returned. -/
structure Entry where
  phase : Phase := .fresh
  inflight : Bool := false
  pending : Bool := false
  taken : Bool := false
  recorded : Nat := 0
  lost : List LossReason := []
  appends : Nat := 0
  atStop : Bool := false
  late : Bool := false
deriving DecidableEq

/-- The caller of `enqueue` holds the read lock. -/
def Phase.locks : Phase → Bool
  | .sending | .waiting _ | .refused _ => true
  | _ => false

/-- The event is in `persistGuarded`, or about to be. -/
def Phase.worked : Phase → Bool
  | .received | .registered | .starting _ | .appending _ | .sleeping _ _ | .succeeded | .noted
  | .leaving _ | .losing _ => true
  | _ => false

def Phase.inAppend : Phase → Bool
  | .appending _ => true
  | _ => false

/-- An attempt is about to start. -/
def Phase.starts : Phase → Bool
  | .starting _ => true
  | _ => false

/-- An append of the event has succeeded and its worker has not finished. -/
def Phase.written : Phase → Bool
  | .succeeded | .noted => true
  | _ => false

/-- What a goroutine sees of the queue. -/
structure QueueView where
  clock : Nat
  drainDeadline : Option Nat
  abandoned : Bool
  stopSignalled : Bool

inductive AppendResult where
  /-- The append succeeded, or found the event already recorded. -/
  | ok
  /-- It failed; the wait before the next attempt has some jitter. -/
  | failed (jitter : Nat)
  | panicked
deriving DecidableEq

/-- The steps of the goroutine that has an event. -/
inductive OwnStep where
  | waitExpires | waitStops | countRefused
  | register | look | beginAppend | appendReturns (result : AppendResult) | wake
  | record | release | countLost
deriving DecidableEq

/-- The latest instant at which an event may still be retried, and whether it is the end of the
shutdown's drain. -/
def QueueView.limit (view : QueueView) (giveUp : Nat) : Nat × Bool :=
  match view.drainDeadline with
  | some deadline => if deadline < giveUp then (deadline, true) else (giveUp, false)
  | none => (giveUp, false)

/-- What follows a failed attempt: a sleep, or the end of the attempts. -/
def Attempt.afterFailure (run : Attempt) (view : QueueView) (jitter : Nat) : Phase :=
  let wait := run.backoff / 2 + min jitter (run.backoff / 2)
  let lim := view.limit run.giveUp
  if view.clock + wait > lim.1 then .leaving (if lim.2 then .shutdown else .insertFailed)
  else
    .sleeping (view.clock + wait)
      { run with
        attempt := run.attempt + 1
        backoff := min (run.backoff * 2) retryBackoffMax }

/-- One step of the goroutine that has an event. A step that is not its next one does nothing. -/
def Entry.own (config : QueueConfig) (view : QueueView) (entry : Entry) (step : OwnStep) : Entry :=
  match step, entry.phase with
  | .waitExpires, .waiting until' =>
    if until' ≤ view.clock then { entry with phase := .refused .bufferFull } else entry
  | .waitStops, .waiting _ =>
    if view.stopSignalled then { entry with phase := .refused .shutdown } else entry
  | .countRefused, .refused reason =>
    { entry with phase := .finished, lost := entry.lost ++ [reason] }
  | .register, .received => { entry with phase := .registered, inflight := true }
  | .look, .registered =>
    if view.abandoned then { entry with phase := .leaving .shutdown }
    else
      { entry with
        phase := .starting
          { attempt := 1, backoff := retryBackoffMin, giveUp := view.clock + config.retryDeadline } }
  | .beginAppend, .starting run =>
    { entry with phase := .appending run, appends := entry.appends + 1 }
  | .appendReturns .ok, .appending _ => { entry with phase := .succeeded }
  | .appendReturns (.failed jitter), .appending run =>
    { entry with phase := run.afterFailure view jitter }
  | .appendReturns .panicked, .appending _ => { entry with phase := .leaving .insertFailed }
  | .wake, .sleeping until' run =>
    if until' ≤ view.clock then { entry with phase := .starting run } else entry
  | .record, .succeeded => { entry with phase := .noted, recorded := entry.recorded + 1 }
  | .release, .noted => { entry with phase := .finished, inflight := false }
  | .release, .leaving reason =>
    -- only the one that removes the id counts the event
    if entry.inflight then { entry with phase := .losing reason, inflight := false }
    else { entry with phase := .finished }
  | .countLost, .losing reason => { entry with phase := .finished, lost := entry.lost ++ [reason] }
  | _, _ => entry

end Entries

section Queue

variable {Event : Type} [DecidableEq Event]

inductive ShutdownPhase (Event : Type) where
  | idle | draining | stopping | locking | sweeping
  | counting (event : Event)
  | ranging | returned
deriving DecidableEq

structure AuditQueue (Event : Type) where
  /-- The events handed to `enqueue`. -/
  events : List Event := []
  entries : Event → Entry := fun _ => {}
  buffer : List Event := []
  clock : Nat := 0
  drainDeadline : Option Nat := none
  abandoned : Bool := false
  stopSignalled : Bool := false
  stopped : Bool := false
  shutdown : ShutdownPhase Event := .idle

inductive QueueAction (Event : Type) where
  | tick (ms : Nat)
  | enqueue (event : Event)
  | send (event : Event)
  | own (event : Event) (step : OwnStep)
  | receive
  | shutdown | stopWaiting | signalStop | lock | sweep | countSwept
  | visit (event : Event)
  | rangeEnds
deriving DecidableEq

namespace AuditQueue

def view (queue : AuditQueue Event) : QueueView where
  clock := queue.clock
  drainDeadline := queue.drainDeadline
  abandoned := queue.abandoned
  stopSignalled := queue.stopSignalled

def set (queue : AuditQueue Event) (event : Event) (entry : Entry) : AuditQueue Event :=
  { queue with entries := Function.update queue.entries event entry }

def setPhase (queue : AuditQueue Event) (event : Event) (phase : Phase) : AuditQueue Event :=
  queue.set event { queue.entries event with phase }

/-- The event goes into the buffer. -/
def push (queue : AuditQueue Event) (event : Event) : AuditQueue Event :=
  { queue.setPhase event .buffered with buffer := queue.buffer ++ [event] }

/-- Every entry that the shutdown has taken is counted. -/
def loseInflight (queue : AuditQueue Event) : AuditQueue Event :=
  { queue with
    entries := fun event =>
      if (queue.entries event).taken then
        { queue.entries event with
          taken := false, lost := (queue.entries event).lost ++ [.shutdownInflight] }
      else queue.entries event }

/-- One step of one of the goroutines, or of the clock. A step that cannot be taken does
nothing. -/
def step (config : QueueConfig) (queue : AuditQueue Event) : QueueAction Event → AuditQueue Event
  | .tick ms => { queue with clock := queue.clock + ms }
  | .enqueue event =>
    if (queue.entries event).phase = .fresh then
      { queue.set event
          { phase := if queue.stopped then .refused .shutdown else .sending
            late := queue.shutdown = .returned } with
        events := queue.events ++ [event] }
    else queue
  | .send event =>
    match (queue.entries event).phase with
    | .sending =>
      if queue.buffer.length < config.capacity then queue.push event
      else queue.setPhase event (.waiting (queue.clock + config.enqueueWait))
    | .waiting _ =>
      if queue.buffer.length < config.capacity then queue.push event else queue
    | _ => queue
  | .own event step => queue.set event ((queue.entries event).own config queue.view step)
  | .receive =>
    match queue.buffer with
    | [] => queue
    | event :: rest => { queue.setPhase event .received with buffer := rest }
  | .shutdown =>
    if queue.shutdown = .idle then
      { queue with
        shutdown := .draining, drainDeadline := some (queue.clock + config.shutdownDrain) }
    else queue
  | .stopWaiting =>
    -- the deadline has passed, or the workers and the drain are done
    if queue.shutdown = .draining ∧
        (queue.drainDeadline.all (· ≤ queue.clock) ∨
          queue.events.all fun event => !(queue.entries event).phase.worked) then
      { queue with
        shutdown := .stopping, abandoned := true
        entries := fun event =>
          { queue.entries event with atStop := (queue.entries event).phase.inAppend } }
    else queue
  | .signalStop =>
    if queue.shutdown = .stopping then { queue with shutdown := .locking, stopSignalled := true }
    else queue
  | .lock =>
    if queue.shutdown = .locking ∧
        queue.events.all (fun event => !(queue.entries event).phase.locks) then
      { queue with shutdown := .sweeping, stopped := true }
    else queue
  | .sweep =>
    if queue.shutdown = .sweeping then
      match queue.buffer with
      | [] =>
        { queue with
          shutdown := .ranging
          entries := fun event =>
            { queue.entries event with pending := (queue.entries event).inflight } }
      | event :: rest =>
        { queue.setPhase event .swept with shutdown := .counting event, buffer := rest }
    else queue
  | .countSwept =>
    match queue.shutdown with
    | .counting event =>
      { queue.set event
          { queue.entries event with
            phase := .finished, lost := (queue.entries event).lost ++ [.shutdown] } with
        shutdown := .sweeping }
    | _ => queue
  | .visit event =>
    if queue.shutdown = .ranging then
      queue.set event
        (if (queue.entries event).inflight then
          { queue.entries event with inflight := false, taken := true, pending := false }
        else { queue.entries event with pending := false })
    else queue
  | .rangeEnds =>
    if queue.shutdown = .ranging ∧
        queue.events.all (fun event => !(queue.entries event).pending) then
      { queue.loseInflight with shutdown := .returned }
    else queue

end AuditQueue

end Queue

section Accounting

/-- The places where the accounting of an event can be: its id in `inflight`, the shutdown's hands,
and the lost counts. -/
def Entry.tokens (entry : Entry) : Nat :=
  entry.inflight.toNat + entry.taken.toNat + entry.lost.length

/-- The event is counted. -/
def Entry.counted (entry : Entry) : Prop := 0 < entry.recorded ∨ entry.lost ≠ []

/-- The caller is about to send or waits for room. -/
def Phase.sends : Phase → Bool
  | .sending | .waiting _ => true
  | _ => false

/-- The accounting of an event is at one place from its registration on. Before, it is with the
one that has the event; in the end it may be nowhere, if the event is recorded. -/
def Entry.Sound (entry : Entry) : Prop :=
  match entry.phase with
  | .finished =>
    entry.inflight = false ∧ entry.recorded ≤ 1 ∧ entry.tokens ≤ 1 ∧
      0 < entry.recorded + entry.tokens
  | .noted => entry.tokens = 1 ∧ entry.recorded = 1
  | .registered | .starting _ | .appending _ | .sleeping _ _ | .succeeded | .leaving _ =>
    entry.tokens = 1 ∧ entry.recorded = 0
  | .fresh | .sending | .waiting _ | .refused _ | .buffered | .received | .losing _ | .swept =>
    entry.tokens = 0 ∧ entry.recorded = 0

variable {entry : Entry}

theorem Entry.Sound.tokens_le (sound : entry.Sound) :
    entry.tokens ≤ 1 ∧ entry.recorded ≤ 1 := by
  unfold Entry.Sound at sound
  split at sound <;> omega

theorem Entry.Sound.lost_le (sound : entry.Sound) : entry.lost.length ≤ 1 := by
  have tokens := sound.tokens_le.1
  unfold Entry.tokens at tokens
  omega

variable {config : QueueConfig} {view : QueueView} {entry : Entry} {step : OwnStep}

theorem afterFailure_phase (view : QueueView) (run : Attempt) (jitter : Nat) :
    (∃ reason, run.afterFailure view jitter = .leaving reason) ∨
      ∃ until' next, run.afterFailure view jitter = .sleeping until' next := by
  unfold Attempt.afterFailure
  dsimp only
  split
  · exact .inl ⟨_, rfl⟩
  · exact .inr ⟨_, _, rfl⟩

/-- A step of its goroutine keeps the accounting of an event. -/
theorem Entry.Sound.own (sound : entry.Sound) : (entry.own config view step).Sound := by
  fun_cases Entry.own config view entry step with
  | case2 | case4 | case14 | case20 => exact sound
  | case11 jitter run phase =>
    obtain ⟨reason, same⟩ | ⟨until', next, same⟩ := afterFailure_phase view run jitter
    all_goals simpa [Entry.Sound, same, phase, Entry.tokens] using sound
  | case16 =>
    -- the id may have been taken by the shutdown
    simp_all [Entry.Sound, Entry.tokens]
    omega
  | case17 reason phase flying =>
    simp only [Entry.Sound, phase, Entry.tokens, flying, Bool.toNat_true, Bool.toNat_false]
      at sound ⊢
    omega
  | _ => cases flying : entry.inflight <;> simp_all [Entry.Sound, Entry.tokens]

end Accounting

section Runs

variable {Event : Type} [DecidableEq Event] {config : QueueConfig} {queue : AuditQueue Event}
  {event : Event} {entry : Entry}

/-- The shutdown has closed the queue. -/
def ShutdownPhase.closes : ShutdownPhase Event → Bool
  | .sweeping | .counting _ | .ranging | .returned => true
  | _ => false

/-- The shutdown has stopped waiting. -/
def ShutdownPhase.stops : ShutdownPhase Event → Bool
  | .idle | .draining => false
  | _ => true

/-- An event with its entry fits the rest of the queue. -/
structure Fits (queue : AuditQueue Event) (event : Event) (entry : Entry) : Prop where
  sound : entry.Sound
  known : event ∈ queue.events ↔ entry.phase ≠ .fresh
  queued : event ∈ queue.buffer ↔ entry.phase = .buffered
  swept : entry.phase = .swept ↔ queue.shutdown = .counting event
  taken : entry.taken = true → queue.shutdown = .ranging
  closed : queue.stopped = true → entry.phase.sends = false
  late : entry.late = true →
    ((∃ reason, entry.phase = .refused reason) ∨ entry.phase = .finished) ∧
      entry.appends = 0 ∧ entry.recorded = 0

structure AuditQueue.Sound (queue : AuditQueue Event) : Prop where
  fits : ∀ event, Fits queue event (queue.entries event)
  nodup : queue.buffer.Nodup
  stopped : queue.shutdown.closes = true → queue.stopped = true
  emptied : queue.shutdown = .ranging ∨ queue.shutdown = .returned → queue.buffer = []
  abandoned : queue.abandoned = queue.shutdown.stops

attribute [local simp] Phase.sends

omit [DecidableEq Event] in
/-- A step of its goroutine keeps an event fitting. -/
theorem Fits.own (fits : Fits queue event entry) {view : QueueView} {step : OwnStep} :
    Fits queue event (entry.own config view step) := by
  have kept : (entry.own config view step).Sound := fits.sound.own
  revert kept
  obtain ⟨_, known, queued, swept, taken, closed, late⟩ := fits
  fun_cases Entry.own config view entry step with
  | case2 | case4 | case14 | case20 =>
    exact fun kept => ⟨kept, known, queued, swept, taken, closed, late⟩
  | case11 jitter run phase =>
    intro kept
    obtain ⟨reason, same⟩ | ⟨until', next, same⟩ := afterFailure_phase view run jitter
    all_goals constructor <;> simp_all
  | _ =>
    intro kept
    constructor <;> simp_all

variable {other : AuditQueue Event} {rest : List Event}

omit [DecidableEq Event] in
/-- What an event fits in does not depend on the other entries. -/
theorem Fits.congr (fits : Fits queue event entry)
    (events : event ∈ other.events ↔ event ∈ queue.events)
    (buffer : event ∈ other.buffer ↔ event ∈ queue.buffer)
    (shutdown : other.shutdown = queue.shutdown) (stopped : other.stopped = queue.stopped) :
    Fits other event entry where
  sound := fits.sound
  known := events.trans fits.known
  queued := buffer.trans fits.queued
  swept := shutdown ▸ fits.swept
  taken := shutdown ▸ fits.taken
  closed := stopped ▸ fits.closed
  late := fits.late

omit [DecidableEq Event] in
/-- The shutdown goes on to another phase, and marks the entry. -/
theorem Fits.shift {pending atStop : Bool} (fits : Fits queue event entry)
    (before : queue.shutdown ≠ .ranging ∧ queue.shutdown ≠ .counting event)
    (after : other.shutdown ≠ .counting event) (events : other.events = queue.events)
    (buffer : other.buffer = queue.buffer)
    (closed : other.stopped = true → entry.phase.sends = false) :
    Fits other event { entry with pending, atStop } where
  sound := fits.sound
  known := events ▸ fits.known
  queued := buffer ▸ fits.queued
  swept := ⟨fun swept => absurd (fits.swept.mp swept) before.2, fun counting => absurd counting after⟩
  taken held := absurd (fits.taken held) before.1
  closed := closed
  late := fits.late

/-- One entry has changed, and the rest of the queue with it. -/
theorem fits_update (entries : other.entries = update queue.entries event entry)
    (own : Fits other event entry) (frame : ∀ id ≠ event, Fits other id (queue.entries id)) :
    ∀ id, Fits other id (other.entries id) :=
  entries ▸ (forall_update_iff queue.entries (p := fun id held => Fits other id held)).mpr ⟨own, frame⟩

namespace AuditQueue

omit [DecidableEq Event] in
theorem Sound.abandoned_of (sound : queue.Sound) {phase : ShutdownPhase Event}
    (shutdown : queue.shutdown = phase) : queue.abandoned = phase.stops :=
  shutdown ▸ sound.abandoned

theorem Sound.set (sound : queue.Sound) (fits : Fits queue event entry) :
    (queue.set event entry).Sound where
  fits := fits_update rfl (fits.congr Iff.rfl Iff.rfl rfl rfl)
    fun other _ => (sound.fits other).congr Iff.rfl Iff.rfl rfl rfl
  nodup := sound.nodup
  stopped := sound.stopped
  emptied := sound.emptied
  abandoned := sound.abandoned

/-- A caller's event goes into the buffer. -/
theorem Sound.push (sound : queue.Sound)
    (sends : (queue.entries event).phase.sends = true) : (queue.push event).Sound := by
  have fits := sound.fits event
  have opened : queue.stopped = false := by
    by_contra stopped
    rw [fits.closed (by simpa using stopped)] at sends
    cases sends
  have outside : event ∉ queue.buffer := by
    intro inside
    rw [fits.queued.mp inside] at sends
    cases sends
  cases fits
  refine ⟨fits_update rfl ?_ ?_, ?_, sound.stopped, ?_, sound.abandoned⟩
  · cases phase : (queue.entries event).phase with
    | sending | waiting =>
      constructor
      all_goals
        simp_all [Entry.Sound, Entry.tokens, AuditQueue.push, AuditQueue.setPhase,
          AuditQueue.set]
    | _ =>
      rw [phase] at sends
      cases sends
  · intro other different
    refine (sound.fits other).congr Iff.rfl ?_ rfl rfl
    simp [AuditQueue.push, different]
  · simpa [AuditQueue.push] using List.Nodup.concat outside sound.nodup
  · intro (finished : queue.shutdown = .ranging ∨ queue.shutdown = .returned)
    have stopped := sound.stopped (by obtain phase | phase := finished <;> rw [phase] <;> rfl)
    rw [opened] at stopped
    cases stopped

/-- The oldest event leaves the buffer. -/
theorem Sound.pop (sound : queue.Sound) (oldest : queue.buffer = event :: rest) :
    ({ queue.setPhase event .received with buffer := rest } : AuditQueue Event).Sound := by
  have fits := sound.fits event
  have nodup := sound.nodup
  rw [oldest, nodup_cons] at nodup
  have phase : (queue.entries event).phase = .buffered := fits.queued.mp (oldest ▸ by simp)
  cases fits
  refine ⟨fits_update rfl ?_ ?_, nodup.2, sound.stopped, ?_, sound.abandoned⟩
  · constructor
    all_goals
      simp_all [Entry.Sound, Entry.tokens, AuditQueue.setPhase, AuditQueue.set]
  · intro other different
    refine (sound.fits other).congr Iff.rfl ?_ rfl rfl
    simp [oldest, different]
  · intro finished
    have empty := sound.emptied finished
    rw [oldest] at empty
    cases empty

/-- The shutdown takes the oldest event from the buffer. -/
theorem Sound.sweeps (sound : queue.Sound) (sweeping : queue.shutdown = .sweeping)
    (oldest : queue.buffer = event :: rest) :
    ({ queue.setPhase event .swept with shutdown := .counting event, buffer := rest } :
      AuditQueue Event).Sound := by
  have nodup := sound.nodup
  rw [oldest, nodup_cons] at nodup
  have phase : (queue.entries event).phase = .buffered :=
    (sound.fits event).queued.mp (oldest ▸ by simp)
  have stopped := sound.stopped (sweeping ▸ rfl)
  refine ⟨fits_update rfl ?_ ?_, nodup.2, fun _ => stopped, nofun,
    (sound.abandoned_of sweeping :)⟩
  · cases sound.fits event
    constructor
    all_goals
      simp_all [Entry.Sound, Entry.tokens, AuditQueue.setPhase, AuditQueue.set]
  · intro other different
    cases sound.fits other
    constructor
    all_goals simp_all [AuditQueue.setPhase, AuditQueue.set, Ne.symm different]

/-- The shutdown counts the event that it has taken from the buffer. -/
theorem Sound.countsSwept (sound : queue.Sound)
    (counting : queue.shutdown = .counting event) :
    ({ queue.set event
        { queue.entries event with
          phase := .finished, lost := (queue.entries event).lost ++ [.shutdown] } with
      shutdown := .sweeping } : AuditQueue Event).Sound := by
  have phase : (queue.entries event).phase = .swept := (sound.fits event).swept.mpr counting
  have stopped := sound.stopped (counting ▸ rfl)
  refine ⟨fits_update rfl ?_ ?_, sound.nodup, fun _ => stopped, nofun,
    (sound.abandoned_of counting :)⟩
  · cases sound.fits event
    constructor
    all_goals simp_all [Entry.Sound, Entry.tokens, AuditQueue.set]
  · intro other different
    cases sound.fits other
    constructor
    all_goals simp_all [AuditQueue.set, Ne.symm different]

end AuditQueue

omit [DecidableEq Event] in
/-- The range takes the id of an event that is in flight. -/
theorem Fits.visit (fits : Fits queue event entry) (ranging : queue.shutdown = .ranging) :
    Fits queue event
      (if entry.inflight then { entry with inflight := false, taken := true, pending := false }
        else { entry with pending := false }) := by
  obtain ⟨own, known, queued, swept, taken, closed, late⟩ := fits
  split
  · rename_i flying
    refine ⟨?_, known, queued, swept, fun _ => ranging, closed, late⟩
    have one := own.tokens_le.1
    have moved : Entry.tokens { entry with inflight := false, taken := true, pending := false } =
        entry.tokens := by
      cases held : entry.taken
      · simp [Entry.tokens, flying, held]
      · simp only [Entry.tokens, flying, held, Bool.toNat_true] at one
        omega
    simp only [Entry.Sound, moved]
    unfold Entry.Sound at own
    split at own <;> simp_all
  · exact ⟨own, known, queued, swept, taken, closed, late⟩

namespace AuditQueue

omit [DecidableEq Event] in
/-- The range is over, and what it has taken is counted. -/
theorem Sound.ends (sound : queue.Sound) (ranging : queue.shutdown = .ranging) :
    ({ queue.loseInflight with shutdown := .returned } : AuditQueue Event).Sound := by
  have stopped := sound.stopped (ranging ▸ rfl)
  refine ⟨fun event => ?_, sound.nodup, fun _ => stopped, fun _ => sound.emptied (.inl ranging),
    (sound.abandoned_of ranging :)⟩
  obtain ⟨own, known, queued, swept, taken, closed, late⟩ := sound.fits event
  simp only [loseInflight]
  split
  · rename_i held
    have moved : Entry.tokens { queue.entries event with
        taken := false, lost := (queue.entries event).lost ++ [.shutdownInflight] } =
        (queue.entries event).tokens := by
      simp [Entry.tokens, held]
      omega
    refine ⟨?_, known, queued, ?_, nofun, closed, late⟩
    · simp only [Entry.Sound, moved]
      exact own
    · simpa [ranging] using swept
  · rename_i held
    exact ⟨own, known, queued, by simpa [ranging] using swept, fun taken => absurd taken held, closed,
      late⟩

theorem Sound.step (sound : queue.Sound) (action : QueueAction Event) :
    (queue.step config action).Sound := by
  fun_cases AuditQueue.step config queue action with
  | case1 => exact ⟨fun event => (sound.fits event).congr Iff.rfl Iff.rfl rfl rfl, sound.nodup,
      sound.stopped, sound.emptied, sound.abandoned⟩
  | case2 event fresh =>
    -- a new event, which is refused if the queue is stopped
    cases sound.fits event
    refine ⟨fits_update rfl ?_ ?_, sound.nodup, sound.stopped, sound.emptied, sound.abandoned⟩
    · cases stopped : queue.stopped with
      | true =>
        constructor
        all_goals simp_all +zetaDelta [Entry.Sound, Entry.tokens, AuditQueue.set]
      | false =>
        have running : queue.shutdown ≠ .returned := by
          intro returned
          have closes := sound.stopped (returned ▸ rfl)
          rw [stopped] at closes
          cases closes
        constructor
        all_goals simp_all +zetaDelta [Entry.Sound, Entry.tokens, AuditQueue.set]
    · intro other different
      exact (sound.fits other).congr (by simp [different]) Iff.rfl rfl rfl
  | case4 event phase | case6 event _ phase => exact sound.push (by rw [phase]; rfl)
  | case5 event phase =>
    cases sound.fits event
    apply sound.set
    constructor
    all_goals simp_all [Entry.Sound, Entry.tokens]
  | case9 event => exact sound.set (sound.fits event).own
  | case11 event rest oldest => exact sound.pop oldest
  | case12 idle =>
    -- the shutdown begins
    exact ⟨fun event => (sound.fits event).shift (by simp [idle]) nofun rfl rfl
      (sound.fits event).closed, sound.nodup, nofun, nofun,
      (sound.abandoned_of idle :)⟩
  | case14 ends =>
    exact ⟨fun event => (sound.fits event).shift (by simp [ends.1]) nofun rfl rfl
      (sound.fits event).closed, sound.nodup, nofun, nofun, rfl⟩
  | case16 stopping =>
    exact ⟨fun event => (sound.fits event).shift (by simp [stopping]) nofun rfl rfl
      (sound.fits event).closed, sound.nodup, nofun, nofun,
      (sound.abandoned_of stopping :)⟩
  | case18 ends =>
    -- nobody holds the read lock, so nobody is about to send
    have silent : ∀ event, (queue.entries event).phase.sends = false := by
      intro event
      have unlocked : (queue.entries event).phase ≠ .fresh →
          (queue.entries event).phase.locks = false := by
        intro used
        simpa using all_eq_true.mp ends.2 event ((sound.fits event).known.mpr used)
      cases phase : (queue.entries event).phase <;> simp_all [Phase.locks]
    exact ⟨fun event => (sound.fits event).shift (by simp [ends.1]) nofun rfl rfl
      (fun _ => silent event), sound.nodup, fun _ => rfl, nofun,
      (sound.abandoned_of ends.1 :)⟩
  | case20 sweeping empty =>
    -- the buffer is empty
    have stopped := sound.stopped (sweeping ▸ rfl)
    exact ⟨fun event => (sound.fits event).shift (by simp [sweeping]) nofun rfl rfl
      (sound.fits event).closed, sound.nodup, fun _ => stopped, fun _ => empty,
      (sound.abandoned_of sweeping :)⟩
  | case21 sweeping event rest oldest => exact sound.sweeps sweeping oldest
  | case23 event counting => exact sound.countsSwept counting
  | case25 event ranging => exact sound.set ((sound.fits event).visit ranging)
  | case27 ends => exact sound.ends ends.1
  | _ => exact sound

omit [DecidableEq Event] in
theorem sound_start : ({} : AuditQueue Event).Sound := by
  refine ⟨fun event => ?_, nodup_nil, nofun, nofun, rfl⟩
  constructor <;> simp [Entry.Sound, Entry.tokens]

theorem sound_run (actions : List (QueueAction Event)) :
    (stateAfter (step config) {} actions).Sound :=
  stateAfter_invariant Sound (fun _ action sound => sound.step action) sound_start actions

end AuditQueue

end Runs

section Twice

variable {Event : Type} [DecidableEq Event] {config : QueueConfig} {queue : AuditQueue Event}
  {event : Event} {entry : Entry}

/-- The event is registered, and its worker has not removed its id. -/
def Phase.held : Phase → Bool
  | .registered | .starting _ | .appending _ | .sleeping _ _ | .succeeded | .noted | .leaving _ =>
    true
  | _ => false

attribute [local simp] Phase.held

variable {phase : Phase} {abandoned : Bool}

attribute [local simp] Phase.inAppend

theorem Phase.held_of_writing (writing : phase.inAppend = true ∨ phase.written = true) :
    phase.held = true := by
  cases phase <;> simp_all [Phase.written]

/-- No attempt starts once the shutdown has stopped waiting, and the range does not take the id of
an event whose append had succeeded before. -/
def AuditQueue.meets (queue : AuditQueue Event) : QueueAction Event → Bool
  | .own event .beginAppend => !((queue.entries event).phase.starts && queue.abandoned)
  | .visit event =>
    !(queue.shutdown = .ranging && (queue.entries event).inflight &&
      (queue.entries event).phase.written && !(queue.entries event).atStop)
  | _ => true

/-- Before the shutdown stops waiting nobody but its worker has an event's accounting. After that,
it can only end on both counts if it was inside an append. -/
structure Fair (abandoned : Bool) (entry : Entry) : Prop where
  waiting : abandoned = false → entry.taken = false ∧
    (entry.phase.held = true → entry.inflight = true) ∧ (0 < entry.recorded → entry.lost = [])
  inside : abandoned = true → entry.phase.inAppend = true → entry.atStop = true
  written : entry.inflight = false → entry.phase.inAppend = true ∨ entry.phase.written = true →
    entry.atStop = true
  both : 0 < entry.recorded → entry.taken = true ∨ entry.lost ≠ [] → entry.atStop = true

/-- An accounting that is in flight is nowhere else. -/
theorem Entry.only_inflight (one : entry.tokens = 1) (flying : entry.inflight = true) :
    entry.taken = false ∧ entry.lost = [] := by
  simp only [Entry.tokens, flying, Bool.toNat_true] at one
  cases held : entry.taken with
  | true =>
    simp only [held, Bool.toNat_true] at one
    omega
  | false => exact ⟨rfl, length_eq_zero_iff.mp (by omega)⟩

/-- A recorded event whose id is still in flight is between its success and its release. -/
theorem Entry.written_of_recorded (sound : entry.Sound) (flying : entry.inflight = true)
    (recorded : 0 < entry.recorded) : entry.phase.written = true := by
  cases phase : entry.phase <;> simp_all [Entry.Sound, Phase.written]

theorem Fair.own {view : QueueView} {step : OwnStep} (fair : Fair abandoned entry)
    (sound : entry.Sound) (seen : view.abandoned = abandoned)
    (meets : step = .beginAppend → entry.phase.starts = true → abandoned = false) :
    Fair abandoned (entry.own config view step) := by
  obtain ⟨waiting, inside, written, both⟩ := fair
  fun_cases Entry.own config view entry step with
  | case2 | case4 | case14 | case20 => exact ⟨waiting, inside, written, both⟩
  | case11 jitter run phase =>
    obtain ⟨reason, same⟩ | ⟨until', next, same⟩ := afterFailure_phase view run jitter
    all_goals constructor <;> simp_all [Phase.written]
  | case15 phase =>
    -- the event is recorded
    simp only [Entry.Sound, phase] at sound
    have flies : entry.taken = true ∨ entry.lost ≠ [] → entry.inflight = false := by
      intro elsewhere
      by_contra flying
      obtain ⟨untaken, none_lost⟩ := Entry.only_inflight sound.1 (by simpa using flying)
      rcases elsewhere with taken | lost
      · rw [untaken] at taken
        cases taken
      · exact lost none_lost
    refine ⟨fun early => ?_, nofun, fun away _ => ?_, fun _ elsewhere => ?_⟩
    · obtain ⟨untaken, flying, _⟩ := waiting early
      have flying := flying (by rw [phase]; rfl)
      exact ⟨untaken, fun _ => flying, fun _ => (Entry.only_inflight sound.1 flying).2⟩
    · exact written away (.inr (by rw [phase]; rfl))
    · exact written (flies elsewhere) (.inr (by rw [phase]; rfl))
  | _ =>
    constructor <;>
      simp_all [Phase.written, Phase.starts, Entry.Sound, Entry.tokens]

/-- A change of phase outside the worker's hands. -/
theorem Fair.rephase (fair : Fair abandoned entry) (free : phase.held = false) :
    Fair abandoned { entry with phase } := by
  obtain ⟨waiting, inside, written, both⟩ := fair
  constructor
  all_goals
    cases phase <;> simp_all [Phase.written]

namespace AuditQueue

theorem fair_set (fair : ∀ event, Fair queue.abandoned (queue.entries event))
    (own : Fair queue.abandoned entry) :
    ∀ other, Fair queue.abandoned ((queue.set event entry).entries other) :=
  (forall_update_iff queue.entries
    (p := fun _ held => Fair queue.abandoned held)).mpr ⟨own, fun other _ => fair other⟩

/-- A step that meets the condition keeps every event's counts apart. -/
theorem fair_step (sound : queue.Sound)
    (fair : ∀ event, Fair queue.abandoned (queue.entries event)) {action : QueueAction Event}
    (meets : queue.meets action = true) (event : Event) :
    Fair (queue.step config action).abandoned ((queue.step config action).entries event) := by
  fun_cases AuditQueue.step config queue action with
  | case2 other =>
    refine fair_set fair ?_ event
    cases stopped : queue.stopped <;> constructor <;>
      simp [Phase.written]
  | case4 other | case5 other | case6 other | case11 other =>
    exact fair_set fair ((fair other).rephase rfl) event
  | case9 other step =>
    refine fair_set fair ((fair other).own (sound.fits other).sound rfl ?_) event
    rintro rfl starts
    simpa [AuditQueue.meets, starts] using meets
  | case14 ends =>
    -- the shutdown stops waiting
    have early : queue.abandoned = false := sound.abandoned_of ends.1
    obtain ⟨waiting, _, _, _⟩ := fair event
    obtain ⟨untaken, flying, none_lost⟩ := waiting early
    refine ⟨nofun, fun _ => id, fun away writing => ?_, fun recorded elsewhere => ?_⟩
    · have away : (queue.entries event).inflight = false := away
      rw [flying (Phase.held_of_writing writing)] at away
      cases away
    · rcases elsewhere with taken | lost
      · have taken : (queue.entries event).taken = true := taken
        rw [untaken] at taken
        cases taken
      · exact absurd (none_lost recorded) lost
  | case20 =>
    obtain ⟨waiting, inside, written, both⟩ := fair event
    exact ⟨waiting, inside, written, both⟩
  | case21 _ other => exact fair_set fair ((fair other).rephase rfl) event
  | case23 other counting =>
    have phase := (sound.fits other).swept.mpr counting
    have own := (sound.fits other).sound
    simp only [Entry.Sound, phase] at own
    refine fair_set fair ?_ event
    obtain ⟨waiting, inside, written, both⟩ := fair other
    constructor <;> simp_all [Phase.written]
  | case25 other ranging =>
    -- the range comes to an event
    have late : queue.abandoned = true := sound.abandoned_of ranging
    refine fair_set fair ?_ event
    obtain ⟨waiting, inside, written, both⟩ := fair other
    split
    · rename_i flying
      have known : (queue.entries other).phase.inAppend = true ∨
          (queue.entries other).phase.written = true → (queue.entries other).atStop = true := by
        rintro (appending | done)
        · exact inside late appending
        · simpa [AuditQueue.meets, ranging, flying, done] using meets
      refine ⟨fun early => ?_, inside, fun _ => known, fun recorded _ => known ?_⟩
      · rw [late] at early
        cases early
      · exact .inr (Entry.written_of_recorded (sound.fits other).sound flying recorded)
    · exact ⟨waiting, inside, written, both⟩
  | case27 ends =>
    have late : queue.abandoned = true := sound.abandoned_of ends.1
    obtain ⟨waiting, inside, written, both⟩ := fair event
    change Fair queue.abandoned (queue.loseInflight.entries event)
    simp only [AuditQueue.loseInflight]
    split
    · rename_i held
      refine ⟨fun early => ?_, inside, written, fun recorded _ => both recorded (.inl held)⟩
      rw [late] at early
      cases early
    · exact ⟨waiting, inside, written, both⟩
  | _ => exact fair event

/-- In every run whose steps meet the condition an event's counts stay apart. -/
theorem fair_run {actions : List (QueueAction Event)}
    (meets : Allows (step config) (fun queue action => queue.meets action = true) {}
      actions) (event : Event) :
    Fair (stateAfter (step config) {} actions).abandoned
      ((stateAfter (step config) {} actions).entries event) := by
  have kept := meets.invariant
    (fun queue => queue.Sound ∧ ∀ event, Fair queue.abandoned (queue.entries event))
    (fun _ _ meets held => ⟨held.1.step _, fair_step held.1 held.2 meets⟩)
    ⟨sound_start, fun _ => by constructor <;> simp [Phase.written]⟩
  exact kept.2 event

end AuditQueue

end Twice

section Totals

variable {Event : Type} [DecidableEq Event] {config : QueueConfig} {queue : AuditQueue Event}
  {event : Event}

/-- An append of the event is under way or still to come. -/
def Phase.attempts : Phase → Bool
  | .starting _ | .appending _ | .sleeping _ _ => true
  | _ => false

/-- Steps of an event's goroutine alone. -/
def AuditQueue.ownSteps (config : QueueConfig) (queue : AuditQueue Event) (event : Event)
    (steps : List OwnStep) : AuditQueue Event :=
  stateAfter (AuditQueue.step config) queue (steps.map (.own event))

theorem AuditQueue.ownSteps_entry (steps : List OwnStep) :
    (queue.ownSteps config event steps).entries event =
      steps.foldl (fun entry step => entry.own config queue.view step) (queue.entries event) := by
  induction steps generalizing queue with
  | nil => rfl
  | cons step rest ih =>
    rw [AuditQueue.ownSteps, map_cons, stateAfter_cons, ← AuditQueue.ownSteps, ih,
      foldl_cons]
    simp [AuditQueue.step, AuditQueue.set, AuditQueue.view]

attribute [local simp] AuditQueue.ownSteps_entry Entry.counted Entry.own

/-- Once the shutdown has returned, an event of which no append is under way or to come is counted
after at most a few more steps of the goroutine that has it. -/
theorem AuditQueue.Sound.counts (sound : queue.Sound) (returned : queue.shutdown = .returned)
    (known : event ∈ queue.events) (ended : (queue.entries event).phase.attempts = false) :
    ∃ steps : List OwnStep, OwnStep.beginAppend ∉ steps ∧
      ((queue.ownSteps config event steps).entries event).counted := by
  obtain ⟨own, used, queued, swept, taken, closed, late⟩ := sound.fits event
  have used := used.mp known
  have abandoned : queue.view.abandoned = true := by
    rw [AuditQueue.view, sound.abandoned, returned]
    rfl
  have untaken : (queue.entries event).taken = false := by
    by_contra held
    have ranging := taken (by simpa using held)
    rw [returned] at ranging
    cases ranging
  have silent := closed (sound.stopped (returned ▸ rfl))
  have unqueued : (queue.entries event).phase ≠ .buffered := by
    rw [Ne, ← queued, sound.emptied (.inr returned)]
    exact not_mem_nil
  have unswept : (queue.entries event).phase ≠ .swept := by
    rw [Ne, swept, returned]
    nofun
  have elsewhere : (queue.entries event).inflight = false → 0 < (queue.entries event).tokens →
      (queue.entries event).lost ≠ [] := by
    intro away some none_lost
    simp [Entry.tokens, away, untaken, none_lost] at some
  -- the steps that are left to the goroutine, by where it is
  cases phase : (queue.entries event).phase with
  | fresh => exact absurd phase used
  | sending | waiting =>
    rw [phase] at silent
    cases silent
  | buffered => exact absurd phase unqueued
  | swept => exact absurd phase unswept
  | starting | appending | sleeping =>
    rw [phase] at ended
    cases ended
  | refused reason =>
    refine ⟨[.countRefused], by simp, ?_⟩
    simp [phase]
  | received =>
    refine ⟨[.register, .look, .release, .countLost], by simp, ?_⟩
    simp [phase, abandoned]
  | registered =>
    refine ⟨[.look, .release, .countLost], by simp, ?_⟩
    simp only [Entry.Sound, phase] at own
    cases flying : (queue.entries event).inflight with
    | true => simp [phase, abandoned, flying]
    | false =>
      simp [phase, abandoned, flying, elsewhere flying (by omega)]
  | succeeded =>
    refine ⟨[.record], by simp, ?_⟩
    simp [phase]
  | noted =>
    refine ⟨[], by simp, ?_⟩
    simp_all [Entry.Sound]
  | leaving reason =>
    refine ⟨[.release, .countLost], by simp, ?_⟩
    simp only [Entry.Sound, phase] at own
    cases flying : (queue.entries event).inflight with
    | true => simp [phase, flying]
    | false =>
      simp [phase, flying, elsewhere flying (by omega)]
  | losing reason =>
    refine ⟨[.countLost], by simp, ?_⟩
    simp [phase]
  | finished =>
    refine ⟨[], by simp, ?_⟩
    simp only [Entry.Sound, phase] at own
    by_cases recorded : 0 < (queue.entries event).recorded
    · exact .inl recorded
    · exact .inr (elsewhere own.1 (by omega))

/-- The accounting of the queue, for every interleaving of callers, workers, drain goroutines and
one shutdown, with appends that return whenever and however they like.

An event is counted lost at most once. Once the shutdown has returned, an event of which no append
is under way or to come is counted: at once, or after a few more steps of the goroutine that has
it, none of them an append. An event that is enqueued after the shutdown has returned is never
appended. If no attempt starts after the shutdown has stopped waiting, and the range over the ids
in flight takes none whose append had succeeded before, an event ends on both counts only if it
was inside an append when the shutdown stopped waiting. -/
theorem audit_queue_accounts (actions : List (QueueAction Event)) (event : Event)
    (queue : AuditQueue Event) (ran : stateAfter (AuditQueue.step config) {} actions = queue) :
    (queue.entries event).lost.length ≤ 1 ∧
      (queue.shutdown = .returned → event ∈ queue.events →
        (queue.entries event).phase.attempts = false →
          ∃ steps : List OwnStep, OwnStep.beginAppend ∉ steps ∧
            ((queue.ownSteps config event steps).entries event).counted) ∧
      ((queue.entries event).late = true →
        (queue.entries event).appends = 0 ∧ (queue.entries event).recorded = 0) ∧
      (Allows (AuditQueue.step config) (fun queue action => queue.meets action = true) {} actions →
        0 < (queue.entries event).recorded → (queue.entries event).lost ≠ [] →
          (queue.entries event).atStop = true) := by
  subst ran
  have sound : (stateAfter (AuditQueue.step config) {} actions).Sound :=
    AuditQueue.sound_run actions
  refine ⟨(sound.fits event).sound.lost_le, sound.counts, ?_, ?_⟩
  · intro late
    exact ((sound.fits event).late late).2
  · intro meets recorded lost
    exact (AuditQueue.fair_run meets event).both recorded (.inr lost)

/-- A shutdown that drains for a second. -/
def shortDrain : QueueConfig := { shutdownDrainMs := 1000 }

/-- An event from its request to its first append. -/
def firstAppend : List (QueueAction Nat) :=
  [.enqueue 1, .send 1, .receive, .own 1 .register, .own 1 .look, .own 1 .beginAppend]

/-- The attempt fails, and the next one begins after the longest wait. -/
def retryAfter (wait : Nat) : List (QueueAction Nat) :=
  [.own 1 (.appendReturns (.failed wait)), .tick wait, .own 1 .wake, .own 1 .beginAppend]

/-- The shutdown from its start to its return, with the event in flight. -/
def givesUp : List (QueueAction Nat) :=
  [.shutdown, .tick 1000, .stopWaiting, .signalStop, .lock, .sweep, .visit 1, .rangeEnds]

/-- The append succeeds. -/
def succeeds : List (QueueAction Nat) :=
  [.own 1 (.appendReturns .ok), .own 1 .record, .own 1 .release]

/-- An append that returns after the shutdown. -/
theorem audit_queue_accounts_inside :
    ∃ queue : AuditQueue Nat, queue.shutdown = .returned ∧ 0 < (queue.entries 1).recorded ∧
      (queue.entries 1).lost ≠ [] ∧ (queue.entries 1).atStop = true := by
  obtain ⟨_, _, _, inside⟩ := @audit_queue_accounts Nat _ shortDrain
    (firstAppend ++ givesUp ++ succeeds) 1 _ rfl
  have recorded : 0 < ((stateAfter (AuditQueue.step shortDrain) {}
      (firstAppend ++ givesUp ++ succeeds)).entries 1).recorded := by decide +kernel
  have lost : ((stateAfter (AuditQueue.step shortDrain) {}
      (firstAppend ++ givesUp ++ succeeds)).entries 1).lost ≠ [] := by decide +kernel
  exact ⟨_, by decide +kernel, recorded, lost, inside (by decide +kernel) recorded lost⟩

/-- An event whose appends have failed sleeps before its next attempt when the shutdown stops
waiting. The shutdown counts it lost; then the attempt is made, and the event is recorded. -/
theorem retried_after_shutdown :
    ∃ actions : List (QueueAction Nat),
      let queue := stateAfter (AuditQueue.step shortDrain) {} actions
      queue.shutdown = .returned ∧ 0 < (queue.entries 1).recorded ∧ (queue.entries 1).lost ≠ [] ∧
        (queue.entries 1).atStop = false :=
  ⟨firstAppend ++ retryAfter 100 ++ retryAfter 200 ++ retryAfter 400 ++ retryAfter 800 ++
    [.own 1 (.appendReturns (.failed 1600))] ++ givesUp ++
    [.tick 600, .own 1 .wake, .own 1 .beginAppend] ++ succeeds, by decide +kernel⟩

end Totals
end Cleat.Audit
