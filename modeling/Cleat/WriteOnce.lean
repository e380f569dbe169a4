import Cleat.Children
import Cleat.EventStore

/-!
# The writers of the event history

Every writer of the rows of one workflow: the flush of one step, the flush of a batch, the
append at the end of a segment, a write-ahead intent and its completion, and the event of
a child's start. The three inserting writers share one conflict clause. An intent is a
plain insertion, which a row at its step refuses.

What any sequence of these writes does to the row of one step is a run of a small machine
that sees only that row: an await without an outcome is replaced by each later insertion
until one closes it, a pending intent is completed once, and nothing moves any other row.
-/
namespace Cleat

open List EventRecord

/-- A record as the inserting writers propose it. Only an intent's own statement marks a
row as pending. -/
def proposedRow (record : EventRecord) : EventRecord :=
  { rowOf record with pending := false }

/-- The columns that the statement of an intent fills. -/
def callIntentRow (step : Nat) (service operation request : String) (createdAt : Int) :
    EventRecord :=
  intentRow
    { step := step, eventType := .call, service := service, op := operation,
      request := request } createdAt

/-- One proposed row, as a single statement settles it. -/
inductive RowWrite where
  | insert (record : EventRecord)
  | intent (step : Nat) (service operation request : String) (createdAt : Int)
  | complete (record : EventRecord)
  | child (event : EventRecord) (runID : String)

/-- The rows after one proposed row. The completion of an intent leaves the event type
column alone, which is `call` in every intent. -/
def RowWrite.apply (rows : History) : RowWrite → History
  | insert record => insertEvent rows (proposedRow record)
  | intent step service operation request createdAt =>
    -- the primary key refuses the statement when the step has a row
    if rows.any fun row => row.step = step then rows
    else insertEvent rows (callIntentRow step service operation request createdAt)
  | complete record => completeIntent rows { record with eventType := .call }
  | child event runID => insertChildEvent rows { event with pending := false } runID

/-- A batch is one statement, and a statement may not change one row twice: a second
proposal for a step fails it when the first one inserted or replaced the row there. -/
def batchFails (touched : List Nat) (rows : History) : History → Bool
  | [] => false
  | record :: rest =>
    record.step ∈ touched ||
      batchFails
        (if rows.any fun row => row.step = record.step && !awaitsCompletion row then touched
          else record.step :: touched)
        (insertEvent rows (proposedRow record)) rest

/-- The events of a segment in the order in which their checksums are linked. -/
def chainOrder (records : History) : History :=
  records.mergeSort fun one other => one.step ≤ other.step

/-- One write to the history of a workflow. -/
inductive EventWrite where
  | flush (record : EventRecord)
  | batchFlush (records : History)
  | appendEvents (records : History)
  | writeCallIntent (step : Nat) (service operation request : String) (createdAt : Int)
  | completeCallIntent (record : EventRecord)
  | startChild (event : EventRecord) (runID : String)

/-- The rows that a write proposes. A failed batch proposes none: its statement is undone. -/
def EventWrite.rowWrites (rows : History) : EventWrite → List RowWrite
  | flush record => [.insert record]
  | batchFlush records => if batchFails [] rows records then [] else records.map .insert
  | appendEvents records => (chainOrder records).map .insert
  | writeCallIntent step service operation request createdAt =>
    [.intent step service operation request createdAt]
  | completeCallIntent record => [.complete record]
  | startChild event runID => [.child event runID]

/-- The records that a write asks to insert. -/
def EventWrite.records : EventWrite → History
  | flush record => [record]
  | batchFlush records => records
  | appendEvents records => records
  | _ => []

/-- The rows after one write. -/
def EventWrite.apply (rows : History) (write : EventWrite) : History :=
  (write.rowWrites rows).foldl RowWrite.apply rows

/-- The history that a sequence of writes leaves, as it is loaded. -/
def historyAfter (writes : List EventWrite) : History :=
  writes.foldl EventWrite.apply []

/-- What one proposed row makes of a row that is already stored. -/
def EventRecord.under (row : EventRecord) : RowWrite → EventRecord
  | .insert record =>
    if record.step = row.step then resolveConflict row (proposedRow record) else row
  | .complete record =>
    if row.step = record.step && row.pending then
      completeRow row { record with eventType := .call }
    else row
  | _ => row

attribute [local simp] EventRecord.under

/-- A row that no write changes any more. -/
def Closed (row : EventRecord) : Prop :=
  awaitsCompletion row = false ∧ row.pending = false

section Row

variable {row : EventRecord} {write : RowWrite}

theorem step_resolveConflict {record : EventRecord} (same : record.step = row.step) :
    (resolveConflict row record).step = row.step := by
  unfold resolveConflict
  split
  · exact same
  · rfl

@[simp] theorem step_under : (row.under write).step = row.step := by
  cases write with
  | insert record =>
    rw [under]
    split
    · rename_i same
      exact step_resolveConflict same
    · rfl
  | complete record =>
    rw [under]
    split
    · rename_i completes
      simp only [Bool.and_eq_true, decide_eq_true_eq] at completes
      exact completes.1.symm
    · rfl
  | intent => rfl
  | child => rfl

theorem Closed.under (closed : Closed row) : row.under write = row := by
  cases write with
  | insert record => simp [resolveConflict, closed.1]
  | complete record => simp [closed.2]
  | intent => rfl
  | child => rfl

/-- A pending row is the row of an intent: a call that has no outcome. -/
def IntentOnly (row : EventRecord) : Prop :=
  row.pending = true →
    row.eventType = .call ∧ row.response = "" ∧ row.err = ""

theorem intentOnly_of_settled (settled : row.pending = false) : IntentOnly row := by
  intro pending
  rw [settled] at pending
  cases pending

/-- No insertion reaches a pending row, so a write leaves it or completes it. -/
theorem IntentOnly.under (intent : IntentOnly row) (pending : row.pending = true) :
    row.under write = row ∨ Closed (row.under write) := by
  have declined : awaitsCompletion row = false := by
    simp [awaitsCompletion, (intent pending).1]
  cases write with
  | insert record => simp [resolveConflict, declined]
  | complete record =>
    rw [under]
    split
    · exact .inr ⟨rfl, rfl⟩
    · exact .inl rfl
  | intent => exact .inl rfl
  | child => exact .inl rfl

theorem IntentOnly.kept (intent : IntentOnly row) : IntentOnly (row.under write) := by
  cases write with
  | insert record =>
    rw [EventRecord.under]
    split
    · rw [resolveConflict]
      split
      · exact intentOnly_of_settled rfl
      · exact intent
    · exact intent
  | complete record =>
    rw [EventRecord.under]
    split
    · exact intentOnly_of_settled rfl
    · exact intent
  | intent => exact intent
  | child => exact intent

/-- A write that repeats an open await leaves it, and every other write to it closes it. -/
theorem awaiting_under (awaiting : awaitsCompletion row = true) (settled : row.pending = false)
    (repeats : ∀ record, write = .insert record → record.step = row.step →
      awaitsCompletion record = true → resolveConflict row (proposedRow record) = row) :
    row.under write = row ∨ Closed (row.under write) := by
  cases write with
  | insert record =>
    by_cases same : record.step = row.step
    · rw [under, if_pos same]
      cases still : awaitsCompletion record with
      | true => exact .inl (repeats record rfl same still)
      | false =>
        right
        rw [resolveConflict, if_pos awaiting]
        exact ⟨still, rfl⟩
    · simp [same]
  | complete record => simp [settled]
  | intent => exact .inl rfl
  | child => exact .inl rfl

theorem Closed.foldl_under (closed : Closed row) (writes : List RowWrite) :
    writes.foldl EventRecord.under row = row := by
  induction writes with
  | nil => rfl
  | cons write writes ih => rw [foldl_cons, closed.under, ih]

/-- A row changes at most once if every write leaves it as it was or closes it: it is the
first row until some write closes it, and nothing moves it afterwards. -/
theorem foldl_under_once (writes : List RowWrite)
    (once : ∀ write ∈ writes, row.under write = row ∨ Closed (row.under write)) :
    writes.foldl EventRecord.under row = row ∨ Closed (writes.foldl EventRecord.under row) := by
  induction writes with
  | nil => exact .inl rfl
  | cons write writes ih =>
    rw [foldl_cons]
    rcases once write (by simp) with same | closed
    · rw [same]
      exact ih fun write member => once write (by simp [member])
    · rw [closed.foldl_under]
      exact .inr closed

end Row

section Rows

variable {rows : History}

/-- The rows of a store, one for each step. -/
abbrev OneRowPerStep (rows : History) : Prop :=
  rows.Pairwise fun one other => one.step < other.step

variable {row record : EventRecord}

/-- The row at the step of an insertion takes it by the conflict clause, and every other
row stays.

Proof: the steps grow along the rows, so a row that comes later than the step of the
insertion is never the one that is replaced. -/
theorem mem_insertEvent_under (ordered : OneRowPerStep rows) (member : row ∈ rows)
    (record : EventRecord) :
    row.under (.insert record) ∈ insertEvent rows (proposedRow record) := by
  induction rows with
  | nil => cases member
  | cons first rest ih =>
    obtain ⟨smaller, later⟩ := pairwise_cons.mp ordered
    have proposed : (proposedRow record).step = record.step := rfl
    rw [insertEvent, proposed]
    rcases mem_cons.mp member with rfl | behind
    · by_cases same : record.step = row.step
      · rw [if_neg (by omega), if_pos same, under, if_pos same]
        exact mem_cons_self
      · rw [under, if_neg same]
        split <;> simp
    · have after := smaller row behind
      by_cases below : record.step ≤ first.step
      · have apart : record.step ≠ row.step := by omega
        rw [under, if_neg apart]
        split
        · simp [behind]
        · split
          · simp [behind]
          · omega
      · rw [if_neg (by omega), if_neg (by omega)]
        exact mem_cons_of_mem _ (ih later behind)

/-- An insertion at a free step leaves every row. -/
theorem mem_insertEvent_free (member : row ∈ rows)
    (free : (rows.any fun held => held.step = record.step) = false) :
    row ∈ insertEvent rows record := by
  induction rows with
  | nil => cases member
  | cons first rest ih =>
    simp only [any_cons, Bool.or_eq_false_iff, decide_eq_false_iff_not] at free
    rw [insertEvent]
    split
    · exact mem_cons_of_mem _ member
    · rw [if_neg fun same => free.1 same.symm]
      rcases mem_cons.mp member with rfl | behind
      · exact mem_cons_self
      · exact mem_cons_of_mem _ (ih behind free.2)

/-- A stored row lives on as what the write makes of it. -/
theorem mem_apply_under (ordered : OneRowPerStep rows) (member : row ∈ rows) (write : RowWrite) :
    row.under write ∈ write.apply rows := by
  cases write with
  | insert record => exact mem_insertEvent_under ordered member record
  | intent step service operation request createdAt =>
    rw [RowWrite.apply]
    split
    · exact member
    · rename_i free
      exact mem_insertEvent_free member (Bool.eq_false_iff.mpr free)
  | complete record => exact mem_map.mpr ⟨row, member, rfl⟩
  | child event runID =>
    rw [RowWrite.apply, insertChildEvent]
    split
    · exact member
    · rename_i free
      exact mem_insertEvent_free member (Bool.eq_false_iff.mpr free)

theorem ordered_apply (ordered : OneRowPerStep rows) (write : RowWrite) :
    OneRowPerStep (write.apply rows) := by
  cases write with
  | insert record => exact ordered_insertEvent ordered
  | intent =>
    rw [RowWrite.apply]
    split
    · exact ordered
    · exact ordered_insertEvent ordered
  | complete record =>
    rw [OneRowPerStep, ← pairwise_map (f := step)] at ordered ⊢
    rwa [RowWrite.apply, completeIntent_steps]
  | child =>
    rw [RowWrite.apply, insertChildEvent]
    split
    · exact ordered
    · exact ordered_insertEvent ordered

/-- What an insertion leaves: the record itself, a row that was there, or such a row
replaced by the record. -/
theorem mem_of_mem_insertEvent (member : row ∈ insertEvent rows record) :
    row = record ∨ row ∈ rows ∨ ∃ held ∈ rows, row = resolveConflict held record := by
  induction rows with
  | nil => simpa [insertEvent] using member
  | cons first rest ih =>
    rw [insertEvent] at member
    split at member
    · rcases mem_cons.mp member with rfl | behind
      · exact .inl rfl
      · exact .inr (.inl behind)
    · split at member
      · rcases mem_cons.mp member with rfl | behind
        · exact .inr (.inr ⟨first, by simp, rfl⟩)
        · exact .inr (.inl (by simp [behind]))
      · rcases mem_cons.mp member with rfl | behind
        · exact .inr (.inl (by simp))
        · rcases ih behind with same | held | ⟨held, inside, same⟩
          · exact .inl same
          · exact .inr (.inl (by simp [held]))
          · exact .inr (.inr ⟨held, by simp [inside], same⟩)

theorem intentOnly_insertEvent (sound : ∀ row ∈ rows, IntentOnly row) (own : IntentOnly record) :
    ∀ row ∈ insertEvent rows record, IntentOnly row := by
  intro row member
  rcases mem_of_mem_insertEvent member with rfl | held | ⟨held, inside, rfl⟩
  · exact own
  · exact sound row held
  · rw [resolveConflict]
    split
    · exact fun pending => own pending
    · exact sound held inside

/-- Only intents are pending, after any write. -/
theorem intentOnly_apply (sound : ∀ row ∈ rows, IntentOnly row) (write : RowWrite) :
    ∀ row ∈ write.apply rows, IntentOnly row := by
  cases write with
  | insert record =>
    exact intentOnly_insertEvent sound (intentOnly_of_settled rfl)
  | intent =>
    rw [RowWrite.apply]
    split
    · exact sound
    · exact intentOnly_insertEvent sound fun _ => ⟨rfl, rfl, rfl⟩
  | complete record =>
    intro row member
    obtain ⟨held, inside, rfl⟩ := mem_map.mp member
    exact @IntentOnly.kept held (.complete record) (sound held inside)
  | child =>
    rw [RowWrite.apply, insertChildEvent]
    split
    · exact sound
    · exact intentOnly_insertEvent sound (intentOnly_of_settled rfl)

end Rows

section Histories

/-- The rows that a sequence of writes proposes, one after the other. -/
def proposals : History → List EventWrite → List RowWrite
  | _, [] => []
  | rows, write :: writes => write.rowWrites rows ++ proposals (write.apply rows) writes

theorem foldl_proposals (writes : List EventWrite) (rows : History) :
    writes.foldl EventWrite.apply rows = (proposals rows writes).foldl RowWrite.apply rows := by
  induction writes generalizing rows with
  | nil => rfl
  | cons write writes ih =>
    rw [foldl_cons, ih, proposals, foldl_append]
    rfl

variable {writes earlier : List EventWrite} {row : EventRecord}

/-- An inserted row is one that a write asked to insert. -/
theorem mem_proposals_insert {rows : History} {record : EventRecord}
    (member : RowWrite.insert record ∈ proposals rows writes) :
    record ∈ writes.flatMap EventWrite.records := by
  induction writes generalizing rows with
  | nil => cases member
  | cons write writes ih =>
    rw [flatMap_cons, mem_append]
    rcases mem_append.mp member with own | later
    · left
      cases write with
      | batchFlush records =>
        rw [EventWrite.rowWrites] at own
        split at own
        · cases own
        · simpa [EventWrite.records] using own
      | flush | appendEvents =>
        simpa [EventWrite.rowWrites, EventWrite.records, chainOrder] using own
      | writeCallIntent | completeCallIntent | startChild => simp [EventWrite.rowWrites] at own
    · exact .inr (ih later)

/-- A whole sequence of writes keeps one row for each step, leaves only intents pending,
and takes every stored row through the writes one by one. -/
theorem foldl_apply_rows (writes : List RowWrite) (rows : History)
    (ordered : OneRowPerStep rows) (sound : ∀ row ∈ rows, IntentOnly row) :
    OneRowPerStep (writes.foldl RowWrite.apply rows) ∧
      (∀ row ∈ writes.foldl RowWrite.apply rows, IntentOnly row) ∧
      ∀ row ∈ rows, writes.foldl under row ∈ writes.foldl RowWrite.apply rows := by
  induction writes generalizing rows with
  | nil => exact ⟨ordered, sound, fun _ member => member⟩
  | cons write writes ih =>
    obtain ⟨order, only, lives⟩ :=
      ih (write.apply rows) (ordered_apply ordered write) (intentOnly_apply sound write)
    exact ⟨order, only, fun row member => lives _ (mem_apply_under ordered member write)⟩

theorem historyAfter_sound (writes : List EventWrite) :
    OneRowPerStep (historyAfter writes) ∧ ∀ row ∈ historyAfter writes, IntentOnly row := by
  obtain ⟨order, only, _⟩ := foldl_apply_rows (proposals [] writes) [] List.Pairwise.nil (by simp)
  rw [historyAfter, foldl_proposals]
  exact ⟨order, only⟩

/-- The row of a step in a later history is what the writes in between make of it. -/
theorem mem_historyAfter_append (later : List EventWrite) (stored : row ∈ historyAfter earlier) :
    (proposals (historyAfter earlier) later).foldl under row ∈
      historyAfter (earlier ++ later) := by
  obtain ⟨ordered, sound⟩ := historyAfter_sound earlier
  rw [historyAfter, foldl_append, foldl_proposals]
  exact (foldl_apply_rows _ _ ordered sound).2.2 row stored

@[simp] theorem step_foldl_under (writes : List RowWrite) (row : EventRecord) :
    (writes.foldl under row).step = row.step := by
  induction writes generalizing row with
  | nil => rfl
  | cons write writes ih => rw [foldl_cons, ih, step_under]

/-- Every insertion at the step of a row that would leave an await open repeats the row. -/
def RepeatsOpen (row : EventRecord) (records : History) : Prop :=
  ∀ record ∈ records, record.step = row.step → awaitsCompletion record = true →
    resolveConflict row (proposedRow record) = row

/-- A row with a response or an error is closed: an open await has neither, and neither
has an intent. -/
theorem closed_of_outcome (intent : IntentOnly row) (outcome : row.response ≠ "" ∨ row.err ≠ "") :
    Closed row := by
  constructor
  · rcases outcome with response | err
    · simp [awaitsCompletion, response]
    · simp [awaitsCompletion, err]
  · by_contra pending
    obtain ⟨_, noResponse, noErr⟩ := intent (by simpa using pending)
    rcases outcome with response | err
    · exact response noResponse
    · exact err noErr

/-- A row that is an intent, or that meets only repetitions while it is open, is left as it
was or closed. -/
theorem left_or_closed (intent : IntentOnly row)
    (repeats : row.pending = true ∨ RepeatsOpen row (writes.flatMap EventWrite.records)) :
    (proposals (historyAfter earlier) writes).foldl under row = row ∨
      Closed ((proposals (historyAfter earlier) writes).foldl under row) := by
  refine foldl_under_once _ fun write member => ?_
  cases pending : row.pending with
  | true => exact intent.under pending
  | false =>
    cases awaiting : awaitsCompletion row with
    | false => exact .inl (Closed.under ⟨awaiting, pending⟩)
    | true =>
      refine awaiting_under awaiting pending fun record same => ?_
      rcases repeats with marked | repeats
      · rw [pending] at marked
        cases marked
      · exact repeats record (mem_proposals_insert (same ▸ member))

/-- Stored events are written once, up to their completion. Whatever is written after a row
is stored, its step keeps exactly one row. Once that row has a response or an error it is
the same in every later history. It differs in a later history only if it was a pending
intent or an await without an outcome. An intent changes at most once, and so does an await
whose step receives, as long as it is open, only insertions that repeat it.

Proof: the row of the step in a later history is the fold of the writes over the row alone.
The two kinds of open row are left alone or closed by each write under the stated
condition, and a closed row is a fixed point of every write. -/
theorem stored_events_write_once (earlier middle later : List EventWrite) (row : EventRecord)
    (stored : row ∈ historyAfter earlier) :
    ∃ next ∈ historyAfter (earlier ++ middle),
      ∃ last ∈ historyAfter (earlier ++ middle ++ later),
        OneRowPerStep (historyAfter (earlier ++ middle)) ∧
          OneRowPerStep (historyAfter (earlier ++ middle ++ later)) ∧
          next.step = row.step ∧ last.step = row.step ∧
          (row.response ≠ "" ∨ row.err ≠ "" → next = row ∧ last = row) ∧
          (next ≠ row → row.pending = true ∨ awaitsCompletion row = true) ∧
          (row.pending = true ∨ RepeatsOpen row (middle.flatMap EventWrite.records) →
            next ≠ row → last = next) := by
  have intent := (historyAfter_sound earlier).2 row stored
  have nextStored := mem_historyAfter_append middle stored
  refine ⟨_, nextStored, _, mem_historyAfter_append later nextStored,
    (historyAfter_sound _).1, (historyAfter_sound _).1, by simp, by simp, ?_, ?_, ?_⟩
  · intro outcome
    have closed := closed_of_outcome intent outcome
    rw [closed.foldl_under, closed.foldl_under]
    exact ⟨rfl, rfl⟩
  · intro changed
    by_contra neither
    simp only [not_or, Bool.not_eq_true] at neither
    exact changed (Closed.foldl_under ⟨neither.2, neither.1⟩ _)
  · intro repeats changed
    rcases @left_or_closed middle earlier row intent repeats with same | closed
    · exact absurd same changed
    · exact closed.foldl_under _

/-- A suspended await is completed by its child's response, and a later session that
records another response at its step is declined. -/
theorem stored_events_write_once_completed :
    proposedRow (awaitChildEvent 0 "run" "done" "") ∈
      historyAfter [.flush (awaitChildEvent 0 "run" "" ""),
        .flush (awaitChildEvent 0 "run" "done" ""),
        .appendEvents [awaitChildEvent 0 "run" "other" ""]] := by
  obtain ⟨next, member, _, _, _, _, _, _, kept, _⟩ :=
    stored_events_write_once
      [.flush (awaitChildEvent 0 "run" "" ""), .flush (awaitChildEvent 0 "run" "done" "")]
      [.appendEvents [awaitChildEvent 0 "run" "other" ""]] []
      (proposedRow (awaitChildEvent 0 "run" "done" "")) (by decide)
  obtain ⟨same, _⟩ := kept (.inl (by decide))
  rwa [← same]

/-- Two later sessions await other runs at the step of a suspended await. Each of them
rewrites the row, which has neither a response nor an error before or after. -/
theorem suspended_await_rewritten_twice :
    ∃ (earlier middle later : List EventWrite) (row next last : EventRecord),
      row ∈ historyAfter earlier ∧ next ∈ historyAfter (earlier ++ middle) ∧
        last ∈ historyAfter (earlier ++ middle ++ later) ∧
        next.step = row.step ∧ last.step = row.step ∧
        (next.response = "" ∧ next.err = "") ∧ next ≠ row ∧ last ≠ next := by
  refine ⟨[.flush (awaitChildEvent 0 "first" "" "")], [.flush (awaitChildEvent 0 "second" "" "")],
    [.flush (awaitChildEvent 0 "third" "" "")], proposedRow (awaitChildEvent 0 "first" "" ""),
    proposedRow (awaitChildEvent 0 "second" "" ""), proposedRow (awaitChildEvent 0 "third" "" ""),
    ?_⟩
  decide

end Histories

end Cleat
