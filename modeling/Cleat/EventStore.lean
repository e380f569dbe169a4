import Cleat.Session

/-!
# The event store

The durable rows of one run, kept in step order as they are loaded. A recorded event
is written under its step and the first row to be written there stays, with one
exception: a row of a suspended await that has no outcome yet is completed in place.
A write-ahead intent is a row that is inserted pending and completed once.

Only what an answered query did to the rows is modelled. Which writes succeed is the
environment's choice.
-/
namespace Cleat

open List EventRecord

variable (rows : History) (record : EventRecord)

/-- A row that a later write to the same step may still complete. -/
def awaitsCompletion (row : EventRecord) : Bool :=
  (row.eventType = .awaitChild || row.eventType = .awaitPromise ||
      row.eventType = .awaitAllChildren) &&
    row.response = "" && row.err = "" && row.promiseResult = "" && row.promiseError = ""

/-- A second write to a step that has a row: it completes a suspended await, keeping
the row's creation time, and is declined otherwise. -/
def resolveConflict (row record : EventRecord) : EventRecord :=
  if awaitsCompletion row then
    { record with timestampMs := row.timestampMs, createdAt := row.createdAt }
  else row

/-- Write a recorded event under its step. -/
def insertEvent : History → EventRecord → History
  | [], record => [record]
  | row :: rest, record =>
    if record.step < row.step then record :: row :: rest
    else if record.step = row.step then resolveConflict row record :: rest
    else row :: insertEvent rest record

/-- A recorded event as a row: it is created at the event's own time. -/
def rowOf (record : EventRecord) : EventRecord :=
  { record with createdAt := some record.timestampMs }

/-- An intent as a row: pending, and created at the database's time. -/
def intentRow (intent : EventRecord) (createdAt : Int) : EventRecord :=
  { intent with pending := true, timestampMs := createdAt, createdAt := some createdAt }

/-- A pending row with the outcome of its call. It keeps its creation time. -/
def completeRow (row record : EventRecord) : EventRecord :=
  { record with pending := false, timestampMs := row.timestampMs, createdAt := row.createdAt }

/-- Complete the pending row at a record's step. -/
def completeIntent : History :=
  rows.map fun row =>
    if row.step = record.step && row.pending then completeRow row record else row

/-- Write the event of a child's start, which yields to any row that its step has. -/
def insertChildEvent (event : EventRecord) (runID : String) : History :=
  if rows.any fun row => row.step = event.step then rows
  else insertEvent rows { rowOf event with runID := runID }

/-- What an answered query did to the rows. -/
def applyObserved : Observed → History
  | ⟨.flushEvent record _, .persisted⟩ => insertEvent rows (rowOf record)
  | ⟨.writeCallIntent intent, .ok createdAt⟩ => insertEvent rows (intentRow intent createdAt)
  | ⟨.completeCallIntent record _, .ok ()⟩ => completeIntent rows record
  | ⟨.resolveCallIntent record, .ok ()⟩ => completeIntent rows record
  | ⟨.startChildWorkflowAtomic _ _ _ _ _ event _, .ok runID⟩ => insertChildEvent rows event runID
  | _ => rows

/-- Inserting an event never removes one. -/
theorem length_insertEvent : rows.length ≤ (insertEvent rows record).length := by
  induction rows with
  | nil => simp
  | cons row rest ih =>
    unfold insertEvent
    split
    · simp
    · split
      · simp
      · simpa using ih

/-- No answered query removes a row. -/
theorem length_applyObserved (observed : Observed) :
    rows.length ≤ (applyObserved rows observed).length := by
  unfold applyObserved
  split
  · exact length_insertEvent _ _
  · exact length_insertEvent _ _
  · simp [completeIntent]
  · simp [completeIntent]
  · unfold insertChildEvent
    split
    · exact Nat.le_refl _
    · exact length_insertEvent _ _
  · exact Nat.le_refl _

/-- The event that an answered query made durable. -/
def persistedEvent : Observed → Option EventRecord
  | ⟨.flushEvent record _, .persisted⟩ => some record
  | _ => none

/-- Inserting an event keeps every step that has a row and adds the event's own. -/
theorem mem_steps_insertEvent (step : Nat) :
    step ∈ (insertEvent rows record).map EventRecord.step ↔
      step = record.step ∨ step ∈ rows.map EventRecord.step := by
  induction rows with
  | nil => simp [insertEvent]
  | cons row rest ih =>
    unfold insertEvent
    split
    · simp
    · split
      · rename_i same
        have kept : (resolveConflict row record).step = row.step := by
          unfold resolveConflict
          split
          · exact same
          · rfl
        simp [kept, same]
      · simp only [map_cons, mem_cons, ih]
        tauto

theorem completeIntent_steps :
    (completeIntent rows record).map step = rows.map step := by
  rw [completeIntent, map_map]
  refine map_congr_left fun row _ => ?_
  dsimp only [Function.comp]
  split
  · rename_i completes
    simp only [Bool.and_eq_true, decide_eq_true_eq] at completes
    exact completes.1.symm
  · rfl

/-- No answered query removes the row of a step. -/
theorem steps_applyObserved (observed : Observed) (step : Nat)
    (present : step ∈ rows.map EventRecord.step) :
    step ∈ (applyObserved rows observed).map EventRecord.step := by
  unfold applyObserved
  split
  · exact (mem_steps_insertEvent ..).mpr (.inr present)
  · exact (mem_steps_insertEvent ..).mpr (.inr present)
  · rwa [completeIntent_steps]
  · rwa [completeIntent_steps]
  · unfold insertChildEvent
    split
    · exact present
    · exact (mem_steps_insertEvent ..).mpr (.inr present)
  · exact present

variable {rows more : History} {record row : EventRecord}

/-- A step whose event was made durable has a row afterwards.

Proof: by induction on what was observed; the event's own write adds the row, and no later
answer removes it. -/
theorem mem_steps_of_persistedEvent {trace : Trace}
    (written : record ∈ trace.filterMap persistedEvent) :
    record.step ∈ (trace.foldl applyObserved rows).map step := by
  have kept : ∀ (trace : Trace) (rows : History),
      record.step ∈ rows.map step →
      record.step ∈ (trace.foldl applyObserved rows).map step := by
    intro trace
    induction trace with
    | nil => exact fun _ present => present
    | cons observed trace ih => exact fun rows present => ih _ (steps_applyObserved _ _ _ present)
  induction trace generalizing rows with
  | nil => simp at written
  | cons observed trace ih =>
    rw [filterMap_cons] at written
    rw [foldl_cons]
    cases own : persistedEvent observed with
    | none =>
      rw [own] at written
      exact ih written
    | some event =>
      rw [own] at written
      rcases mem_cons.mp written with rfl | later
      · apply kept
        unfold persistedEvent at own
        split at own
        · cases own
          exact (mem_steps_insertEvent ..).mpr (.inl rfl)
        · cases own
      · exact ih later

section Rows

variable {rows : History} {row record : EventRecord}

theorem ordered_insertEvent (ordered : rows.Pairwise fun one other => one.step < other.step) :
    (insertEvent rows record).Pairwise fun one other => one.step < other.step := by
  induction rows with
  | nil => simp [insertEvent]
  | cons row rest ih =>
    obtain ⟨first, later⟩ := pairwise_cons.mp ordered
    unfold insertEvent
    split
    · rename_i smaller
      refine pairwise_cons.mpr ⟨fun other member => ?_, ordered⟩
      rcases mem_cons.mp member with rfl | behind
      · exact smaller
      · exact Nat.lt_trans smaller (first other behind)
    · split
      · rename_i same
        have kept : (resolveConflict row record).step = row.step := by
          unfold resolveConflict
          split
          · exact same
          · rfl
        exact pairwise_cons.mpr ⟨fun other member => kept ▸ first other member, later⟩
      · refine pairwise_cons.mpr ⟨fun other member => ?_, ih later⟩
        have step : other.step ∈ (insertEvent rest record).map step :=
          mem_map_of_mem member
        rcases (mem_steps_insertEvent rest record other.step).mp step with same | behind
        · omega
        · obtain ⟨held, inside, same⟩ := mem_map.mp behind
          have := first held inside
          omega

/-- A row that is not waiting for its outcome stays when another is written. -/
theorem mem_insertEvent (member : row ∈ rows) (settled : awaitsCompletion row = false) :
    row ∈ insertEvent rows record := by
  induction rows with
  | nil => cases member
  | cons first rest ih =>
    unfold insertEvent
    split
    · exact mem_cons_of_mem _ member
    · split
      · rcases mem_cons.mp member with rfl | behind
        · simp [resolveConflict, settled]
        · exact mem_cons_of_mem _ behind
      · rcases mem_cons.mp member with rfl | behind
        · exact mem_cons_self
        · exact mem_cons_of_mem _ (ih behind)

theorem mem_insertEvent_self (absent : ∀ row ∈ rows, row.step ≠ record.step) :
    record ∈ insertEvent rows record := by
  induction rows with
  | nil => simp [insertEvent]
  | cons first rest ih =>
    unfold insertEvent
    split
    · exact mem_cons_self
    · split
      · rename_i same
        exact absurd same.symm (absent first (by simp))
      · exact mem_cons_of_mem _ (ih fun row member => absent row (by simp [member]))

/-- Answers keep one row for each step. -/
theorem ordered_applyObserved (observed : Observed)
    (ordered : rows.Pairwise fun one other => one.step < other.step) :
    (applyObserved rows observed).Pairwise fun one other => one.step < other.step := by
  have completed : ∀ record : EventRecord,
      (completeIntent rows record).Pairwise fun one other => one.step < other.step := by
    intro record
    rw [← pairwise_map (f := step)] at ordered ⊢
    rwa [completeIntent_steps]
  unfold applyObserved
  split
  · exact ordered_insertEvent ordered
  · exact ordered_insertEvent ordered
  · exact completed _
  · exact completed _
  · unfold insertChildEvent
    split
    · exact ordered
    · exact ordered_insertEvent ordered
  · exact ordered

/-- A row that waits for nothing stays whatever is answered. -/
theorem mem_applyObserved (observed : Observed) (member : row ∈ rows)
    (done : awaitsCompletion row = false) (settled : row.pending = false) :
    row ∈ applyObserved rows observed := by
  have completed : ∀ record : EventRecord, row ∈ completeIntent rows record := by
    intro record
    refine mem_map.mpr ⟨row, member, ?_⟩
    simp [settled]
  unfold applyObserved
  split
  · exact mem_insertEvent member done
  · exact mem_insertEvent member done
  · exact completed _
  · exact completed _
  · unfold insertChildEvent
    split
    · exact member
    · exact mem_insertEvent member done
  · exact member

end Rows

/-- The rows are numbered by their positions, which is what a replay requires of the
history it is given. -/
def Dense (rows : History) : Prop :=
  ∀ (index : Nat) (row : EventRecord), rows[index]? = some row → row.step = index

/-- A dense store takes the next step's record at its end.

Proof: every row in front of the end has a smaller step, so the insertion passes it.
The induction is over rows numbered from an arbitrary start. -/
theorem insertEvent_end (below : ∀ row ∈ rows, row.step < record.step) :
    insertEvent rows record = rows ++ [record] := by
  induction rows with
  | nil => rfl
  | cons row rest ih =>
    have smaller := below row (by simp)
    have passed : ¬ record.step < row.step := by omega
    have distinct : record.step ≠ row.step := by omega
    rw [insertEvent, if_neg passed, if_neg distinct,
      ih fun other member => below other (by simp [member])]
    rfl

/-- The steps of a dense store lie below its length. -/
theorem Dense.below (dense : Dense rows) :
    ∀ row ∈ rows, row.step < rows.length := by
  intro row member
  obtain ⟨index, inside, rfl⟩ := mem_iff_getElem.mp member
  have numbered := dense index _ (getElem?_eq_getElem inside)
  omega

/-- The first rows of a dense store are dense. -/
theorem Dense.left (dense : Dense (rows ++ more)) : Dense rows := by
  intro index row found
  have inside := (List.getElem?_eq_some_iff.mp found).1
  exact dense index row (by rwa [List.getElem?_append_left inside])

/-- The row behind the first rows of a dense store is numbered by their length. -/
theorem Dense.here (dense : Dense (rows ++ row :: more)) : row.step = rows.length :=
  dense rows.length row (by simp)

theorem Dense.snoc (dense : Dense rows) (next : record.step = rows.length) :
    Dense (rows ++ [record]) := by
  intro index row found
  rcases Nat.lt_or_ge index rows.length with inside | outside
  · rw [getElem?_append_left inside] at found
    exact dense index row found
  · rw [getElem?_append_right outside] at found
    obtain ⟨first, rfl⟩ : index - rows.length = 0 ∧ row = record := by
      cases position : index - rows.length with
      | zero => simpa [position, eq_comm] using found
      | succ position => simp [position] at found
    omega

/-- An event recorded at the next step of a dense store is appended. -/
theorem Dense.insertEvent (dense : Dense rows) (next : record.step = rows.length) :
    insertEvent rows record = rows ++ [record] :=
  insertEvent_end (by rw [next]; exact dense.below)

/-- An event recorded at a step that is taken by a finished row is declined.

Proof: the rows before the step have smaller steps, so the insertion passes them. -/
theorem Dense.insertEvent_taken (dense : Dense (rows ++ row :: more))
    (taken : record.step = rows.length) (finished : awaitsCompletion row = false) :
    Cleat.insertEvent (rows ++ row :: more) record = rows ++ row :: more := by
  have passes : ∀ front : History, (∀ other ∈ front, other.step < record.step) →
      Cleat.insertEvent (front ++ row :: more) record = front ++ row :: more := by
    intro front below
    induction front with
    | nil =>
      have same : record.step = row.step := taken.trans dense.here.symm
      simp [Cleat.insertEvent, same, resolveConflict, finished]
    | cons other front ih =>
      have smaller := below other (by simp)
      have passed : ¬ record.step < other.step := by omega
      have distinct : record.step ≠ other.step := by omega
      rw [cons_append, Cleat.insertEvent, if_neg passed, if_neg distinct,
        ih fun next member => below next (by simp [member])]
  exact passes rows (by rw [taken]; exact dense.left.below)

/-- Completing the intent in the last row leaves the rows before it alone. -/
theorem Dense.completeIntent (dense : Dense rows) (next : record.step = rows.length)
    (same : row.step = record.step) (pending : row.pending = true) :
    completeIntent (rows ++ [row]) record = rows ++ [completeRow row record] := by
  have untouched : Cleat.completeIntent rows record = rows := by
    refine (map_congr_left fun other member => ?_).trans (map_id rows)
    have smaller := dense.below other member
    have distinct : other.step ≠ record.step := by omega
    simp [distinct]
  rw [Cleat.completeIntent, map_append]
  change Cleat.completeIntent rows record ++ _ = _
  rw [untouched]
  simp [same, pending]

end Cleat
