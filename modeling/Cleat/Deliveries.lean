import Cleat.GuestRuns
import Mathlib.Data.List.Nodup

/-!
# Deliveries of signals

A delivery is a row that waits for the run under the name of the signal. A poll reads the oldest
row of a name and records nothing. An await records the signal that it finds and then deletes the
row.
-/
namespace Cleat

open Durable Durable.Program List

section Consumption

variable {engine : Engine} {s : ExecSession}

/-- The delivery that an observation deletes. -/
def consumedID : Observed → Option Int
  | ⟨.consumeSignal id, _⟩ => some id
  | _ => none

/-- Nothing is deleted. -/
def Unconsumed (trace : Trace) : Prop := ∀ observed ∈ trace, consumedID observed = none

attribute [local simp] Unconsumed

/-- A delivery has been found and, if there is a database, offered to the store as an event. -/
def Received (engine : Engine) (trace : Trace) (id : Int) : Prop :=
  ∃ signalName delivery, delivery.id = id ∧
    ⟨.pollSignal signalName, .ok (some delivery)⟩ ∈ trace ∧
    (engine.db = true → ∃ record checksum answer,
      ⟨.flushEvent record checksum, answer⟩ ∈ trace ∧ record.eventType = .signalReceived ∧
        record.signalName = signalName ∧ record.signalPayload = delivery.payload ∧
        record.pending = false)

/-- A delivery is deleted only after that. -/
def ReceivedFirst (engine : Engine) (trace : Trace) : Prop :=
  ∀ earlier observed later id, trace = earlier ++ observed :: later →
    consumedID observed = some id → Received engine earlier id

variable {trace asked : Trace}

theorem ReceivedFirst.of_unconsumed (unconsumed : Unconsumed trace) :
    ReceivedFirst engine trace := by
  rintro earlier observed later id rfl consumed
  rw [unconsumed observed (by simp)] at consumed
  cases consumed

theorem ReceivedFirst.snoc {observed : Observed} (unconsumed : Unconsumed trace)
    (received : ∀ id, consumedID observed = some id → Received engine trace id) :
    ReceivedFirst engine (trace ++ [observed]) := by
  intro earlier other later id split consumed
  rcases eq_nil_or_concat later with rfl | ⟨later, last, rfl⟩
  · obtain ⟨rfl, same⟩ := append_inj' split rfl
    cases same
    exact received id consumed
  · rw [concat_eq_append, ← cons_append, ← append_assoc] at split
    obtain ⟨rfl, _⟩ := append_inj' split rfl
    rw [unconsumed other (by simp)] at consumed
    cases consumed

theorem Unconsumed.append {first second : Trace} (one : Unconsumed first)
    (other : Unconsumed second) : Unconsumed (first ++ second) :=
  forall_mem_append.mpr ⟨one, other⟩

/-- A program that deletes nothing. -/
theorem unconsumed_of_every {α : Type} {program : Work α}
    (every : program.Every fun query => ∀ answer, consumedID ⟨query, answer⟩ = none) :
    program.Always fun trace _ => Unconsumed trace :=
  ensures_of_runs fun _ _ runs observed member => every.of_runs runs observed member _

theorem stopBeforeNewWork_unconsumed :
    (stopBeforeNewWork engine s).Always fun trace _ => Unconsumed trace :=
  unconsumed_of_every (every_stopBeforeNewWork _ _ fun _ => rfl)

/-- An event is offered to the store as it was stamped. -/
theorem recordEvent_offers (record : EventRecord) (forward : s.isReplay = false) :
    (recordEvent engine s record).Always fun trace outcome =>
      Unconsumed trace ∧ (outcome.isSome → engine.db = true → ∃ clockMs checksum answer,
        ⟨.flushEvent (stampEvent s record clockMs) checksum, answer⟩ ∈ trace) := by
  have timed : (recordTime record).Always fun trace _ => Unconsumed trace := by
    refine unconsumed_of_every ?_
    unfold recordTime
    split
    · exact ⟨fun _ => rfl, fun _ => trivial⟩
    · trivial
  unfold recordEvent
  rw [Always, ensures_bind]
  refine timed.mono fun trace outcome unconsumed => ?_
  cases outcome with
  | none => exact ⟨unconsumed, by simp⟩
  | some clockMs =>
    dsimp only
    split
    · refine ⟨⟨by simpa using unconsumed, by simp⟩, fun answer _ => ?_⟩
      have offered : Unconsumed (trace ++ [⟨.flushEvent (stampEvent s record clockMs)
          (engine.computeEventChecksum (stampEvent s record clockMs) s.lastChecksum), answer⟩]) :=
        unconsumed.append (by simp [consumedID])
      change Program.Ensures _ (if _ then _ else _) _
      split
      · exact ⟨offered, fun _ _ => ⟨clockMs, _, answer, by simp⟩⟩
      · exact ⟨offered, fun _ _ => ⟨clockMs, _, answer, by simp⟩⟩
    · rename_i unstored
      refine ⟨by simpa using unconsumed, fun _ stored => ?_⟩
      exact absurd (by simp [stored, forward]) unstored

theorem pollSignals_finds (names : List String) :
    (pollSignals names).Always fun trace outcome => Unconsumed trace ∧
      ∀ signalName delivery, outcome = some (some (signalName, delivery)) →
        ⟨.pollSignal signalName, .ok (some delivery)⟩ ∈ trace := by
  induction names with
  | nil => exact ⟨by simp, by simp⟩
  | cons name names ih =>
    have missed : ∀ answer : Except String (Option SignalDelivery),
        (pollSignals names).Always fun trace outcome =>
          Unconsumed (⟨.pollSignal name, answer⟩ :: trace) ∧
            ∀ signalName delivery, outcome = some (some (signalName, delivery)) →
              ⟨.pollSignal signalName, .ok (some delivery)⟩ ∈
                (⟨.pollSignal name, answer⟩ :: trace : Trace) := by
      intro answer
      refine ih.mono fun trace outcome ⟨unconsumed, found⟩ => ⟨?_, fun _ _ given => ?_⟩
      · exact forall_mem_cons.mpr ⟨rfl, unconsumed⟩
      · exact mem_cons_of_mem _ (found _ _ given)
    refine ⟨⟨by simp, by simp⟩, fun answer _ => ?_⟩
    rcases answer with reason | _ | delivery
    · exact missed (.error reason)
    · exact missed (.ok none)
    · refine ⟨by simp [consumedID], fun signalName delivery given => ?_⟩
      cases given
      exact mem_cons_self

theorem findSignal_finds (signalNames : String) :
    (findSignal engine signalNames).Always fun trace outcome =>
      Unconsumed trace ∧ ∀ signalName delivery, outcome = some (some (signalName, delivery)) →
        ⟨.pollSignal signalName, .ok (some delivery)⟩ ∈ trace := by
  unfold findSignal
  split
  · exact pollSignals_finds _
  · exact ⟨by simp, by simp⟩

variable {nameBuffer payloadBuffer : OutBuf}

/-- A signal that has been found is offered to the store before its delivery is deleted. -/
theorem receiveSignal_first {signalName : String} {delivery : SignalDelivery}
    (unconsumed : Unconsumed asked) (found : ⟨.pollSignal signalName, .ok (some delivery)⟩ ∈ asked)
    (forward : s.isReplay = false) :
    (receiveSignal engine s signalName delivery nameBuffer payloadBuffer).Always
      fun trace _ => ReceivedFirst engine (asked ++ trace) := by
  unfold receiveSignal
  rw [Always, ensures_bind]
  refine (recordEvent_offers _ forward).mono fun trace outcome ⟨quiet, offered⟩ => ?_
  have sofar := unconsumed.append quiet
  cases outcome with
  | none => exact .of_unconsumed sofar
  | some recorded =>
    refine ⟨.of_unconsumed (by simpa using sofar), fun answer _ => ?_⟩
    have received : ∀ id, consumedID ⟨.consumeSignal delivery.id, answer⟩ = some id →
        Received engine (asked ++ trace) id := by
      rintro _ ⟨rfl⟩
      refine ⟨signalName, delivery, rfl, mem_append_left _ found, fun stored => ?_⟩
      obtain ⟨clockMs, checksum, persistence, there⟩ := offered rfl stored
      exact ⟨_, checksum, persistence, mem_append_right _ there, rfl, rfl, rfl, rfl⟩
    have first := ReceivedFirst.snoc sofar received
    rw [append_assoc] at first
    exact first

/-- What is found is received, and otherwise nothing is deleted. -/
theorem findSignal_first {signalNames : String}
    {next : Option (String × SignalDelivery) → Work Replied} (unconsumed : Unconsumed asked)
    (receives : ∀ signalName delivery,
      next (some (signalName, delivery)) =
        receiveSignal engine s signalName delivery nameBuffer payloadBuffer)
    (forward : s.isReplay = false) (quiet : (next none).Always fun trace _ => Unconsumed trace) :
    (findSignal engine signalNames >>= next).Always fun trace _ =>
      ReceivedFirst engine (asked ++ trace) := by
  rw [Always, ensures_bind]
  refine (findSignal_finds signalNames).mono fun trace outcome ⟨polled, found⟩ => ?_
  have sofar := unconsumed.append polled
  rcases outcome with _ | _ | ⟨signalName, delivery⟩
  · exact .of_unconsumed sofar
  · refine quiet.mono fun later _ silent => ?_
    rw [← append_assoc]
    exact .of_unconsumed (sofar.append silent)
  · dsimp only
    rw [receives]
    refine (receiveSignal_first sofar (mem_append_right _ (found _ _ rfl)) forward).mono
      fun later _ first => ?_
    rwa [← append_assoc]

theorem resumeAwaitSignals_first (record : EventRecord) (forward : s.isReplay = false) :
    (resumeAwaitSignals engine s record nameBuffer payloadBuffer).Always
      fun trace _ => ReceivedFirst engine trace := by
  have nothing : Unconsumed [] := by simp
  refine findSignal_first nothing (fun _ _ => rfl) forward (unconsumed_of_every ?_)
  refine ⟨fun _ => rfl, fun clockMs => ?_⟩
  change Program.Every _ (if _ then _ else _)
  split
  · trivial
  · trivial

theorem freshAwaitSignals_first (signalNames : String) (timeoutMs : Int)
    (forward : s.isReplay = false) :
    (freshAwaitSignals engine s signalNames timeoutMs nameBuffer payloadBuffer).Always fun trace _ => ReceivedFirst engine trace := by
  unfold freshAwaitSignals
  rw [Always, ensures_bind]
  refine stopBeforeNewWork_unconsumed.mono fun trace outcome unconsumed => ?_
  have stops : ReceivedFirst engine (trace ++ []) := .of_unconsumed (by simpa using unconsumed)
  rcases outcome with _ | stopped
  · exact .of_unconsumed unconsumed
  · dsimp only
    split
    · exact stops
    · split
      · exact stops
      · refine findSignal_first unconsumed (fun _ _ => rfl) forward ?_
        dsimp only
        split
        · simp
        · rw [Always, ensures_bind]
          refine (recordEvent_offers _ forward).mono fun later outcome ⟨silent, _⟩ => ?_
          rcases outcome with _ | recorded
          · exact silent
          · simpa using silent

/-- An await deletes only what it has found and offered to the store. -/
theorem durableAwaitSignals_first (signalNames : String) (timeoutMs : Int) :
    (durableAwaitSignals engine s signalNames timeoutMs nameBuffer payloadBuffer).Always fun trace _ => ReceivedFirst engine trace := by
  have nothing : ReceivedFirst engine [] := .of_unconsumed (by simp)
  unfold durableAwaitSignals
  split
  · split
    · split
      · exact nothing
      · split
        · unfold replayAwaitSignals
          dsimp only
          split
          · split
            · exact nothing
            · exact nothing
          · exact resumeAwaitSignals_first _ rfl
        · exact freshAwaitSignals_first _ _ rfl
    · exact freshAwaitSignals_first _ _ rfl
  · rename_i forward
    exact freshAwaitSignals_first _ _ (by simpa using forward)

end Consumption

section Mailbox

/-- A delivery under the name of its signal. -/
structure Mail where
  signalName : String
  delivery : SignalDelivery
deriving DecidableEq, Repr

/-- What the store holds for a run: its events, the deliveries that wait, and, which no table
has, all that were ever made. -/
structure Mailbox where
  rows : History
  waiting : List Mail
  made : List Mail
deriving DecidableEq, Repr

namespace Mailbox

/-- The delivery is the oldest of its name. -/
def Oldest (box : Mailbox) (mail : Mail) : Prop :=
  mail ∈ box.waiting ∧
    ∀ other ∈ box.waiting, other.signalName = mail.signalName → mail.delivery.id ≤ other.delivery.id

def consume (box : Mailbox) (id : Int) : Mailbox :=
  { box with waiting := box.waiting.filter fun mail => mail.delivery.id ≠ id }

def deliver (box : Mailbox) (mail : Mail) : Mailbox :=
  { box with waiting := box.waiting ++ [mail], made := box.made ++ [mail] }

/-- The history has received the signal. -/
def Recorded (box : Mailbox) (mail : Mail) : Prop :=
  ∃ row ∈ box.rows, row.eventType = .signalReceived ∧ row.pending = false ∧
    row.signalName = mail.signalName ∧ row.signalPayload = mail.delivery.payload

/-- Deliveries have different numbers, and only what was delivered waits. -/
structure Numbered (box : Mailbox) : Prop where
  distinct : (box.made.map fun mail => mail.delivery.id).Nodup
  known : ∀ mail ∈ box.waiting, mail ∈ box.made

instance (box : Mailbox) (mail : Mail) : Decidable (box.Recorded mail) :=
  inferInstanceAs (Decidable (∃ row ∈ box.rows, _ ∧ _))

/-- No delivery is lost: it waits or has been received. -/
def NothingLost (box : Mailbox) : Prop := ∀ mail ∈ box.made, mail ∈ box.waiting ∨ box.Recorded mail

instance (box : Mailbox) : Decidable box.NothingLost :=
  inferInstanceAs (Decidable (∀ mail ∈ box.made, _ ∨ _))

/-- What has been delivered and what has been received stays so, and a delivery that has been
consumed does not come back. -/
structure Grown (box later : Mailbox) : Prop where
  made : ∀ mail ∈ box.made, mail ∈ later.made
  rows : ∀ row ∈ box.rows, awaitsCompletion row = false → row.pending = false → row ∈ later.rows
  waiting : ∀ mail ∈ later.waiting, mail ∈ box.made → mail ∈ box.waiting

end Mailbox

/-- What an answer does to the mailbox. A write that fails may have been committed. -/
def ServesMail (box : Mailbox) (observed : Observed) (after : Mailbox) : Prop :=
  match observed with
  | ⟨.pollSignal signalName, .ok (some delivery)⟩ => box.Oldest ⟨signalName, delivery⟩ ∧ after = box
  | ⟨.pollSignal signalName, .ok none⟩ =>
    (∀ mail ∈ box.waiting, mail.signalName ≠ signalName) ∧ after = box
  | ⟨.consumeSignal id, .ok _⟩ => after = box.consume id
  | ⟨.consumeSignal id, .error _⟩ => after = box ∨ after = box.consume id
  | ⟨.flushEvent record _, .flushFailed⟩ =>
    after = box ∨ after = { box with rows := insertEvent box.rows (rowOf record) }
  | observed => after = { box with rows := applyObserved box.rows observed }

/-- The store of one run. Its clients are awaits, each made by one of the run's sessions.
Meanwhile signals are delivered, and the sessions write the events of their other calls. -/
def mailWorld : World Query Answer Nat Mailbox where
  Serves _ := ServesMail
  Moves box after :=
    (∃ mail, (∀ other ∈ box.made, other.delivery.id ≠ mail.delivery.id) ∧ after = box.deliver mail) ∨
      ∃ observed, after = { box with rows := applyObserved box.rows observed }

namespace Mailbox

variable {box after : Mailbox}

theorem Grown.of_rows {rows : History} (kept : ∀ row ∈ box.rows, awaitsCompletion row = false →
    row.pending = false → row ∈ rows) : box.Grown { box with rows } :=
  ⟨fun _ => id, kept, fun _ waits _ => waits⟩

theorem Grown.refl (box : Mailbox) : box.Grown box := .of_rows fun _ member _ _ => member

theorem Grown.trans {later : Mailbox} (first : box.Grown after) (second : after.Grown later) :
    box.Grown later where
  made mail member := second.made mail (first.made mail member)
  rows row member done settled := second.rows row (first.rows row member done settled) done settled
  waiting mail waits member :=
    first.waiting mail (second.waiting mail waits (first.made mail member)) member

theorem Grown.answered (box : Mailbox) (observed : Observed) :
    box.Grown { box with rows := applyObserved box.rows observed } :=
  .of_rows fun _ member done settled => mem_applyObserved observed member done settled

theorem Grown.consumed (box : Mailbox) (id : Int) : box.Grown (box.consume id) :=
  ⟨fun _ member => member, fun _ member _ _ => member, fun _ waits _ => mem_of_mem_filter waits⟩

theorem grown_of_moves (moves : mailWorld.Moves box after) : box.Grown after := by
  rcases moves with ⟨new, fresh, rfl⟩ | ⟨observed, rfl⟩
  · refine ⟨fun _ => mem_append_left _, fun _ member _ _ => member, fun mail waits member => ?_⟩
    rcases mem_append.mp waits with before | last
    · exact before
    · exact absurd (congrArg (·.delivery.id) (mem_singleton.mp last)) (fresh mail member)
  · exact .answered box observed

variable {observed : Observed}

/-- Only a deletion takes a delivery from those that wait. -/
theorem grown_of_serves (serves : ServesMail box observed after) :
    box.Grown after ∧ after.made = box.made ∧ ((∃ id, consumedID observed = some id ∧
        after.waiting = (box.consume id).waiting) ∨ after.waiting = box.waiting) := by
  unfold ServesMail at serves
  split at serves
  · exact serves.2 ▸ ⟨.refl _, rfl, .inr rfl⟩
  · exact serves.2 ▸ ⟨.refl _, rfl, .inr rfl⟩
  · exact serves ▸ ⟨.consumed box _, rfl, .inl ⟨_, rfl, rfl⟩⟩
  · rcases serves with rfl | rfl
    · exact ⟨.refl _, rfl, .inr rfl⟩
    · exact ⟨.consumed box _, rfl, .inl ⟨_, rfl, rfl⟩⟩
  · rcases serves with rfl | rfl
    · exact ⟨.refl _, rfl, .inr rfl⟩
    · exact ⟨.of_rows fun _ member done _ => mem_insertEvent member done, rfl, .inr rfl⟩
  · exact serves ▸ ⟨.answered box _, rfl, .inr rfl⟩

theorem Numbered.serves (numbered : box.Numbered) (serves : ServesMail box observed after) :
    after.Numbered := by
  obtain ⟨_, made, waiting⟩ := grown_of_serves serves
  refine ⟨made ▸ numbered.distinct, fun mail member => made ▸ numbered.known mail ?_⟩
  rcases waiting with ⟨id, _, waiting⟩ | waiting
  · exact mem_of_mem_filter (waiting ▸ member)
  · exact waiting ▸ member

theorem Numbered.moves (moves : mailWorld.Moves box after) (numbered : box.Numbered) :
    after.Numbered := by
  rcases moves with ⟨mail, fresh, rfl⟩ | ⟨observed, rfl⟩
  · constructor
    · simp only [deliver, map_append, map_cons, map_nil]
      refine nodup_append.mpr ⟨numbered.distinct, nodup_singleton _, ?_⟩
      intro id inside other last
      obtain ⟨held, member, rfl⟩ := mem_map.mp inside
      rw [mem_singleton.mp last]
      exact fresh held member
    · refine forall_mem_append.mpr ⟨fun other before => ?_, fun other => mem_append_right _⟩
      exact mem_append_left _ (numbered.known other before)
  · exact ⟨numbered.distinct, numbered.known⟩

/-- Two deliveries with one number are one delivery. -/
theorem Numbered.same (numbered : box.Numbered) {mail other : Mail} (one : mail ∈ box.made)
    (two : other ∈ box.made) (same : mail.delivery.id = other.delivery.id) : mail = other :=
  inj_on_of_nodup_map numbered.distinct one two same

variable {path : List (Served Query Answer Nat Mailbox)} (valid : mailWorld.Valid box path)

include valid

/-- The deliveries are numbered at every time. -/
theorem Numbered.along (numbered : box.Numbered) : ∀ served ∈ path, served.before.Numbered := by
  have kept := World.Valid.invariant Mailbox.Numbered valid
    (fun _ _ moves numbered => numbered.moves moves)
    (fun served member numbered => numbered.serves (valid.serves served member)) numbered
  exact fun served member => (kept served member).1

theorem grown_along : path.Pairwise fun served later => served.after.Grown later.before := by
  obtain ⟨_, _, _, _, ordered⟩ := valid.growing Grown.refl Grown.trans grown_of_moves
    fun serves => (grown_of_serves serves).1
  exact ordered

omit valid

theorem Recorded.grown {mail : Mail} (recorded : box.Recorded mail) (grown : box.Grown after) :
    after.Recorded mail := by
  obtain ⟨row, member, kind, settled, reads⟩ := recorded
  have done : awaitsCompletion row = false := by simp [awaitsCompletion, kind]
  exact ⟨row, grown.rows row member done settled, kind, settled, reads⟩

theorem NothingLost.moves (moves : mailWorld.Moves box after) (kept : box.NothingLost) :
    after.NothingLost := by
  have grown := grown_of_moves moves
  intro mail made
  rcases moves with ⟨new, _, rfl⟩ | ⟨observed, rfl⟩
  · rcases mem_append.mp made with before | last
    · rcases kept mail before with waits | recorded
      · exact .inl (mem_append_left _ waits)
      · exact .inr (recorded.grown grown)
    · exact .inl (mem_append_right _ last)
  · rcases kept mail made with waits | recorded
    · exact .inl waits
    · exact .inr (recorded.grown grown)

/-- What a poll finds has been delivered. -/
theorem made_of_found {signalName : String} {delivery : SignalDelivery}
    (serves : ServesMail box ⟨.pollSignal signalName, .ok (some delivery)⟩ after)
    (numbered : box.Numbered) : ⟨signalName, delivery⟩ ∈ after.made := by
  obtain ⟨⟨waits, _⟩, rfl⟩ := serves
  exact numbered.known _ waits

end Mailbox

/-- The event of a received signal that is offered to the store. -/
def offeredSignal : Observed → Option EventRecord
  | ⟨.flushEvent record _, _⟩ => if record.eventType = .signalReceived then some record else none
  | _ => none

/-- Awaits of sessions of one run, and what its store did meanwhile. -/
structure SignalAwaits (engine : Engine) where
  box : Mailbox
  path : List (Served Query Answer Nat Mailbox)
  numbered : box.Numbered
  nothingLost : box.NothingLost
  valid : mailWorld.Valid box path
  session : Nat → ExecSession
  signalNames : Nat → String
  timeoutMs : Nat → Int
  nameBuffer : Nat → OutBuf
  payloadBuffer : Nat → OutBuf
  outcome : Nat → Option Replied
  executes : ∀ await, (durableAwaitSignals engine (session await) (signalNames await)
    (timeoutMs await) (nameBuffer await) (payloadBuffer await)).Runs
      (observedBy await path) (outcome await)

/-- The store takes the event of a received signal, at a step that has no row. -/
def TakesSignal (served : Served Query Answer Nat Mailbox) : Prop :=
  ∀ record ∈ offeredSignal served.observed, persistedEvent served.observed = some record ∧
    ∀ row ∈ served.before.rows, row.step ≠ record.step

instance (served : Served Query Answer Nat Mailbox) : Decidable (TakesSignal served) :=
  inferInstanceAs (Decidable (∀ record ∈ offeredSignal served.observed, _ ∧ _))

/-- An event that the store takes is among its rows. -/
theorem Mailbox.row_of_taken {record : EventRecord} {checksum : String} {answer : EventPersistence}
    {served : Served Query Answer Nat Mailbox} (kind : record.eventType = .signalReceived)
    (flushed : served.observed = ⟨.flushEvent record checksum, answer⟩) (takes : TakesSignal served)
    (serves : ServesMail served.before served.observed served.after) :
    rowOf record ∈ served.after.rows := by
  obtain ⟨persisted, free⟩ := takes record (by simp [flushed, offeredSignal, kind])
  rw [flushed] at serves persisted
  cases answer with
  | persisted =>
    rw [show served.after = _ from serves]
    exact mem_insertEvent_self free
  | _ => cases persisted

namespace SignalAwaits

variable {engine : Engine} (awaits : SignalAwaits engine)

/-- A delivery that is deleted has been received.

Proof: the await that deletes it has found it and offered its event to the store before. What it
found is the delivery of that number, and the event is still there. -/
theorem removed_recorded (stored : engine.db = true)
    (takes : ∀ served ∈ awaits.path, TakesSignal served) (served : Served Query Answer Nat Mailbox)
    (member : served ∈ awaits.path) (mail : Mail) (waited : mail ∈ served.before.waiting)
    (gone : mail ∉ served.after.waiting) : served.before.Recorded mail := by
  obtain ⟨_, ⟨id, consumed, waiting⟩ | waiting⟩ :=
    (Mailbox.grown_of_serves (awaits.valid.serves served member)).2
  · have numbered : mail.delivery.id = id := by
      by_contra different
      rw [waiting] at gone
      exact gone (mem_filter.mpr ⟨waited, by simpa using different⟩)
    have ordered := Mailbox.grown_along awaits.valid
    have known := awaits.numbered.along awaits.valid
    obtain ⟨earlier, later, split⟩ := append_of_mem member
    have before : ∀ one ∈ earlier, one.after.Grown served.before := by
      rw [split] at ordered
      exact fun one inside => (pairwise_append.mp ordered).2.2 one inside served (by simp)
    have inside : ∀ one ∈ earlier, one ∈ awaits.path := by
      rw [split]
      exact fun one => mem_append_left _
    have trace : observedBy served.client awaits.path = observedBy served.client earlier ++
        served.observed :: observedBy served.client later := by
      rw [split]
      simp [observedBy]
    have first := (durableAwaitSignals_first _ _).of_runs (awaits.executes served.client)
      fun _ _ => trivial
    obtain ⟨signalName, delivery, same, found, offers⟩ := first _ _ _ id trace consumed
    obtain ⟨record, checksum, answer, offered, kind, name, payload, settled⟩ := offers stored
    obtain ⟨poll, polled, asked⟩ := mem_observedBy found
    obtain ⟨write, written, flushed⟩ := mem_observedBy offered
    have delivered := Mailbox.made_of_found (asked ▸ awaits.valid.serves poll (inside poll polled))
      (known poll (inside poll polled))
    have received := Mailbox.row_of_taken kind flushed (takes write (inside write written))
      (awaits.valid.serves write (inside write written))
    have one : mail = ⟨signalName, delivery⟩ := by
      refine (known served member).same ?_ ?_ (numbered.trans same.symm)
      · exact (known served member).known mail waited
      · exact (before poll polled).made _ delivered
    have done : awaitsCompletion (rowOf record) = false := by
      simp [awaitsCompletion, rowOf, kind]
    refine ⟨rowOf record, (before write written).rows _ received done settled, kind, settled, ?_, ?_⟩
    · rw [one]
      exact name
    · rw [one]
      exact payload
  · exact absurd (waiting ▸ waited) gone

/-- If the store takes the events of all received signals, a delivery is deleted only when its
signal is among the events, and none is ever lost. -/
theorem signals_kept (stored : engine.db = true)
    (takes : ∀ served ∈ awaits.path, TakesSignal served) :
    ∀ served ∈ awaits.path,
      (∀ mail ∈ served.before.waiting, mail ∉ served.after.waiting →
        served.before.Recorded mail) ∧
        served.before.NothingLost ∧ served.after.NothingLost := by
  have removed := awaits.removed_recorded stored takes
  have keeps : ∀ served ∈ awaits.path, served.before.NothingLost → served.after.NothingLost := by
    intro served member kept mail made
    have serves := awaits.valid.serves served member
    obtain ⟨grown, same, _⟩ := Mailbox.grown_of_serves serves
    rw [same] at made
    by_cases waits : mail ∈ served.after.waiting
    · exact .inl waits
    · refine .inr (Mailbox.Recorded.grown ?_ grown)
      rcases kept mail made with waited | recorded
      · exact removed served member mail waited waits
      · exact recorded
  have kept := World.Valid.invariant Mailbox.NothingLost awaits.valid
    (fun _ _ moved => .moves moved) keeps awaits.nothingLost
  exact fun served member => ⟨removed served member, kept served member⟩

end SignalAwaits

section Alone

/-- What the mailbox is after an answer that was not an error, or whose error was one. -/
def mailAfter (_ : Nat) (box : Mailbox) (observed : Observed) : Mailbox :=
  match observed with
  | ⟨.consumeSignal id, .ok _⟩ => box.consume id
  | observed => { box with rows := applyObserved box.rows observed }

/-- The delivery that an answer shows under a name. -/
def shownMail : Observed → Option (String × Option SignalDelivery)
  | ⟨.pollSignal signalName, .ok delivery⟩ => some (signalName, delivery)
  | _ => none

/-- The answer shows what waits. -/
def ShowsMail (box : Mailbox) (observed : Observed) : Prop :=
  ∀ shown ∈ shownMail observed,
    (∀ delivery ∈ shown.2, ⟨shown.1, delivery⟩ ∈ box.waiting ∧ ∀ other ∈ box.waiting,
      other.signalName = shown.1 → delivery.id ≤ other.delivery.id) ∧
      (shown.2 = none → ∀ mail ∈ box.waiting, mail.signalName ≠ shown.1)

instance (box : Mailbox) (observed : Observed) : Decidable (ShowsMail box observed) :=
  inferInstanceAs (Decidable (∀ shown ∈ shownMail observed, _ ∧ _))

theorem servesMail_after {client : Nat} {box : Mailbox} {observed : Observed}
    (shows : ShowsMail box observed) : ServesMail box observed (mailAfter client box observed) := by
  unfold ServesMail
  split
  · exact ⟨(shows _ rfl).1 _ rfl, rfl⟩
  · exact ⟨(shows _ rfl).2 rfl, rfl⟩
  · rfl
  · exact .inl rfl
  · exact .inl rfl
  · rename_i noDeletion _ _
    unfold mailAfter
    split
    · exact absurd rfl (noDeletion _ _)
    · rfl

/-- An environment in which a signal waits and the store takes events like this. -/
def waitsAndTakes (persistence : EventPersistence) : (query : Query) → Option (Answer query)
  | .flushEvent _ _ => some persistence
  | query => Surroundings.answer { signal := some ⟨1, "payload", 1000⟩ } query

/-- An await that finds the signal. -/
def loneAwait (persistence : EventPersistence) : Trace × Option Replied :=
  (durableAwaitSignals {} (Engine.openSession {} {} []) "signal" 60000 roomy roomy).run
    (List.replicate 8 (waitsAndTakes persistence))

/-- The mailbox in which the signal waits. -/
def oneMail : Mailbox := ⟨[], [⟨"signal", ⟨1, "payload", 1000⟩⟩], [⟨"signal", ⟨1, "payload", 1000⟩⟩]⟩

/-- What the store does for the await. -/
def lonePath (persistence : EventPersistence) : List (Served Query Answer Nat Mailbox) :=
  World.pathOf mailAfter oneMail ((loneAwait persistence).1.map fun observed => (0, observed))

/-- The await on its own. -/
def SignalAwaits.alone (persistence : EventPersistence)
    (shows : ∀ served ∈ lonePath persistence, ShowsMail served.before served.observed) :
    SignalAwaits {} where
  box := oneMail
  path := lonePath persistence
  numbered := ⟨by decide, fun _ => id⟩
  nothingLost _ := .inl
  valid := World.pathOf_valid fun served member => servesMail_after (shows served member)
  session _ := Engine.openSession {} {} []
  signalNames _ := "signal"
  timeoutMs _ := 60000
  nameBuffer _ := roomy
  payloadBuffer _ := roomy
  outcome await := if await = 0 then (loneAwait persistence).2 else none
  executes await := by
    rw [lonePath, World.observedBy_pathOf, filterMap_askedBy]
    rcases await with _ | await
    · exact ⟨List.replicate 8 (waitsAndTakes persistence), rfl⟩
    · exact ⟨[], rfl⟩

/-- The event is taken, and the delivery may be deleted. -/
theorem signals_kept_alone :
    ∃ awaits : SignalAwaits {}, awaits.path = lonePath .persisted ∧
      ∀ served ∈ awaits.path, served.before.NothingLost ∧ served.after.NothingLost :=
  ⟨.alone .persisted (by decide +kernel), rfl, fun served member =>
    (SignalAwaits.signals_kept _ rfl (by decide +kernel) served member).2⟩

/-- The store refuses the event of a received signal and the delivery is deleted all the same. -/
theorem signal_lost :
    ∃ awaits : SignalAwaits {}, ∃ served ∈ awaits.path, ¬ served.after.NothingLost :=
  ⟨.alone .flushFailed (by decide +kernel), by decide +kernel⟩

end Alone

end Mailbox

section Polls

namespace Mailbox

variable {box later : Mailbox} {mail : Mail}

/-- The delivery has not been consumed meanwhile, and no delivery of its name was committed
meanwhile that has a smaller number. -/
def Keeps (box later : Mailbox) (mail : Mail) : Prop :=
  mail ∈ later.waiting ∧ ∀ other ∈ later.waiting, other.signalName = mail.signalName →
    other ∉ box.made → mail.delivery.id ≤ other.delivery.id

/-- The oldest delivery of a name stays the oldest exactly if it is kept. -/
theorem Oldest.keeps_iff (oldest : box.Oldest mail) (grown : box.Grown later) :
    later.Oldest mail ↔ box.Keeps later mail := by
  constructor
  · exact fun ⟨waits, least⟩ => ⟨waits, fun other waiting same _ => least other waiting same⟩
  · refine fun ⟨waits, late⟩ => ⟨waits, fun other waiting same => ?_⟩
    by_cases early : other ∈ box.made
    · exact oldest.2 other (grown.waiting other waiting early) same
    · exact late other waiting same early

/-- The delivery is the oldest of a name and due by the session's time. -/
def Due (signalName : String) (box : Mailbox) (s : ExecSession) (mail : Mail) : Prop :=
  mail.signalName = signalName ∧ box.Oldest mail ∧ signalIsVisibleNow s mail.delivery = true

/-- A delivery that was due is kept and still due, or one is due that the guest cannot tell from
it. If none was due, none is. -/
def StillDue (signalName : String) (buffer : OutBuf) (box later : Mailbox)
    (s again : ExecSession) : Prop :=
  (∀ mail, box.Due signalName s mail →
    box.Keeps later mail ∧ signalIsVisibleNow again mail.delivery = true ∨
      ∃ other, later.Due signalName again other ∧
        shownText buffer other.delivery.payload = shownText buffer mail.delivery.payload) ∧
    ((∀ mail, ¬ box.Due signalName s mail) → ∀ mail, ¬ later.Due signalName again mail)

variable {signalName : String} {shown reshown : Option SignalDelivery} {s again : ExecSession}
  {after last : Mailbox}

/-- What is due is what an answer shows, if that is due. -/
theorem due_iff_shown (numbered : box.Numbered)
    (serves : ServesMail box ⟨.pollSignal signalName, .ok shown⟩ after) :
    box.Due signalName s mail ↔
      ∃ delivery ∈ shown.filter (signalIsVisibleNow s), mail = ⟨signalName, delivery⟩ := by
  constructor
  · rintro ⟨named, oldest, visible⟩
    cases shown with
    | none => exact absurd named (serves.1 mail oldest.1)
    | some delivery =>
      obtain ⟨⟨waits, least⟩, _⟩ := serves
      have one : mail = ⟨signalName, delivery⟩ :=
        numbered.same (numbered.known _ oldest.1) (numbered.known _ waits)
          (Int.le_antisymm (oldest.2 _ waits named.symm) (least mail oldest.1 named))
      subst one
      exact ⟨delivery, Option.mem_filter_iff.mpr ⟨rfl, visible⟩, rfl⟩
  · rintro ⟨delivery, found, rfl⟩
    obtain ⟨rfl, visible⟩ := Option.mem_filter_iff.mp found
    exact ⟨rfl, serves.1, visible⟩

/-- Two answers in order show the same, as far as the guest can tell, exactly if what was due is
still due. -/
theorem stillDue_iff {buffer : OutBuf} (numbered : box.Numbered) (renumbered : later.Numbered)
    (grown : box.Grown later)
    (serves : ServesMail box ⟨.pollSignal signalName, .ok shown⟩ after)
    (reserves : ServesMail later ⟨.pollSignal signalName, .ok reshown⟩ last) :
    StillDue signalName buffer box later s again ↔
      ((reshown.filter (signalIsVisibleNow again)).map SignalDelivery.payload).map
          (shownText buffer) =
        ((shown.filter (signalIsVisibleNow s)).map SignalDelivery.payload).map
          (shownText buffer) := by
  have kept : ∀ mail, box.Due signalName s mail →
      (box.Keeps later mail ∧ signalIsVisibleNow again mail.delivery = true ↔
        later.Due signalName again mail) := by
    rintro mail ⟨named, oldest, _⟩
    simp [Due, named, oldest.keeps_iff grown]
  rw [StillDue, forall₂_congr fun mail held => or_congr_left (kept mail held)]
  simp only [due_iff_shown numbered serves, due_iff_shown renumbered reserves]
  cases shown.filter (signalIsVisibleNow s) <;>
    cases reshown.filter (signalIsVisibleNow again) <;> simp
  rintro rfl
  rfl

end Mailbox

/-- The signal that a call polls for, and its buffer. -/
def GuestCall.polledSignal : GuestCall → Option (String × OutBuf)
  | .pollSignal signalName buffer => some (signalName, buffer)
  | _ => none

/-- The store fails to show a delivery. -/
def signalPollFailed : Observed → Bool
  | ⟨.pollSignal _, .error _⟩ => true
  | _ => false

variable {engine : Engine} {guest : Guest GuestCall ToldCall} {cuts : List Cut}

/-- A poll asks once, and answers by the delivery that it is shown if that is due. -/
theorem pollSignal_told {signalName : String} {buffer : OutBuf} {s : ExecSession} :
    ((guestHost engine).execute (.pollSignal signalName buffer) s).Always fun trace outcome =>
      ∀ result ∈ outcome, if engine.signalStore then
        ∃ answer, trace = [⟨.pollSignal signalName, answer⟩] ∧ ∀ shown, answer = .ok shown →
          result.1 = ⟨.pollSignal signalName buffer, pollReply foundFlag buffer
            ((shown.filter (signalIsVisibleNow s)).map SignalDelivery.payload)⟩
      else trace = [] ∧ result.1 = ⟨.pollSignal signalName buffer, notFoundReply⟩ := by
  dsimp only [guestHost, GuestCall.execute]
  unfold pollSignal
  cases engine.signalStore with
  | false =>
    rintro result ⟨rfl⟩
    exact ⟨rfl, rfl⟩
  | true =>
    refine ⟨by simp, fun answer _ => ?_⟩
    rcases answer with reason | _ | delivery
    · rintro result ⟨rfl⟩
      exact ⟨_, rfl, nofun⟩
    · rintro result ⟨rfl⟩
      refine ⟨_, rfl, ?_⟩
      rintro _ ⟨rfl⟩
      rfl
    · change Program.Ensures _ (andThen (if signalIsVisibleNow s delivery then _ else _) _) _
      cases due : signalIsVisibleNow s delivery with
      | true | false =>
        rintro result ⟨rfl⟩
        refine ⟨_, rfl, ?_⟩
        rintro _ ⟨rfl⟩
        simp [Option.filter, due, pollReply]

/-- A poll for a signal that is made again has the same reply. Polls to which the store fails
return nothing. -/
def SignalPolledAgain (step again : GuestStep) : Prop :=
  step.call.polledSignal.isSome → again.call = step.call →
    (∀ observed ∈ step.trace ++ again.trace, signalPollFailed observed = false) →
    ∀ result ∈ step.outcome, ∀ repeated ∈ again.outcome, repeated.1 = result.1

instance (step again : GuestStep) : Decidable (SignalPolledAgain step again) :=
  inferInstanceAs (Decidable (_ → _ → _ → _))

/-- A run of a guest and its mailbox. -/
structure MailRun (engine : Engine) (guest : Guest GuestCall ToldCall) (cuts : List Cut) extends
    ServedRun mailWorld engine guest cuts where
  numbered : state.Numbered

/-- The deliveries that were due for a poll are still due when it is made again, in the mailbox in
which it is answered then and by the time of its session, and no other is. -/
def SignalKept (step again : GuestStep × List (Served Query Answer Nat Mailbox)) : Prop :=
  ∀ polled ∈ step.1.call.polledSignal, again.1.call = step.1.call →
    (∀ observed ∈ step.1.trace ++ again.1.trace, signalPollFailed observed = false) →
    step.1.outcome.isSome → again.1.outcome.isSome →
    ∀ served ∈ step.2, ∀ later ∈ again.2,
      Mailbox.StillDue polled.1 polled.2 served.before later.before step.1.before again.1.before

theorem MailRun.served (run : MailRun engine guest cuts) :
    ∀ step ∈ run.segments.flatten, ∀ served ∈ step.2, served.before.Numbered ∧
      ServesMail served.before served.observed served.after := by
  intro step member served inside
  have within := mem_flatMap.mpr ⟨step, member, inside⟩
  exact ⟨run.numbered.along run.valid served within, run.valid.serves served within⟩

variable {step again : GuestStep × List (Served Query Answer Nat Mailbox)}

/-- Two polls to which the store did not fail have the same reply exactly if what was due in the
mailbox of the first is still due in that of the second. -/
theorem MailRun.alike_iff (run : MailRun engine guest cuts) {signalName : String} {buffer : OutBuf}
    (member : step ∈ run.segments.flatten) (remember : again ∈ run.segments.flatten)
    (grown : ∀ served ∈ step.2, ∀ later ∈ again.2, served.after.Grown later.before)
    (polls : step.1.call = .pollSignal signalName buffer)
    (same : again.1.call = .pollSignal signalName buffer)
    (answered : ∀ observed ∈ step.1.trace ++ again.1.trace, signalPollFailed observed = false) :
    (∀ result ∈ step.1.outcome, ∀ repeated ∈ again.1.outcome, repeated.1 = result.1) ↔
      (step.1.outcome.isSome → again.1.outcome.isSome → ∀ served ∈ step.2, ∀ later ∈ again.2,
        Mailbox.StillDue signalName buffer served.before later.before step.1.before
          again.1.before) := by
  have observed := run.followed step member
  have reobserved := run.followed again remember
  have told := pollSignal_told.of_runs (polls ▸ run.executes step member) fun _ _ => trivial
  have retold := pollSignal_told.of_runs (same ▸ run.executes again remember) fun _ _ => trivial
  cases returned : step.1.outcome with
  | none => simp
  | some result =>
  cases rereturned : again.1.outcome with
  | none => simp
  | some repeated =>
  simp only [Option.mem_some_iff, forall_eq', Option.isSome_some, forall_const]
  replace told := told result returned
  replace retold := retold repeated rereturned
  cases store : engine.signalStore with
  | false =>
    simp only [store, Bool.false_eq_true, if_false] at told retold
    have none : step.2 = [] := map_eq_nil_iff.mp (observed.trans told.1)
    simp [none, told.2, retold.2]
  | true =>
    simp only [store, if_true] at told retold
    obtain ⟨answer, trace, told⟩ := told
    obtain ⟨reanswer, retrace, retold⟩ := retold
    obtain ⟨served, one, asked⟩ := map_eq_singleton_iff.mp (observed.trans trace)
    obtain ⟨later, two, reasked⟩ := map_eq_singleton_iff.mp (reobserved.trans retrace)
    rw [trace, retrace] at answered
    rw [one, two] at grown ⊢
    rcases answer with reason | shown
    · cases answered _ mem_cons_self
    rcases reanswer with reason | reshown
    · cases answered _ (mem_cons_of_mem _ mem_cons_self)
    obtain ⟨numbered, serving⟩ := run.served step member served (one ▸ mem_cons_self)
    obtain ⟨renumbered, reserving⟩ := run.served again remember later (two ▸ mem_cons_self)
    have between := (Mailbox.grown_of_serves serving).1.trans
      (grown served mem_cons_self later mem_cons_self)
    simp only [told shown rfl, retold reshown rfl, ToldCall.mk.injEq, true_and, pollReply_inj,
      mem_singleton, forall_eq, Mailbox.stillDue_iff numbered renumbered between (asked ▸ serving)
        (reasked ▸ reserving)]

/-- A guest that makes a call, polls for a signal and then awaits it. -/
def pollsThenAwaits : Guest GuestCall ToldCall :=
  inTurn [.host (.durableCall "service" "operation" "" roomy), .pollSignal "signal" roomy,
    .host (.durableAwaitSignals "signal" 60000 roomy roomy)]

/-- A signal waits in the first segment, in which it is consumed. -/
def consumedSignal : List Cut :=
  [Surroundings.cut { signal := some ⟨1, "payload", 1000⟩ } [8, 8, 8],
    Surroundings.cut {} [8, 8, 8]]

end Polls

end Cleat
