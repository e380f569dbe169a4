import Cleat.CompactedHistory
import Cleat.EventRows

/-!
# The checksum chain of a history

The chain of a history is extended from several places. A session remembers the last checksum
and chains what it records from there; the end of a segment fills in what was not written; a
replay computes the chain anew from the events it reads; a call that was announced and never
completed interrupts the chain until it is resolved; and a compaction takes rows away from the
front. This module follows the stored rows through each of them and says when they still
verify.

A hash is an arbitrary function of a document and the previous checksum, and the results are
about all of them.
-/
namespace Cleat

open Durable Encoding List EventRow

attribute [local simp] computeEventChecksum

variable {Document : Type}

/-- The rows of a history that verifies, given by what they hold and by which of them have a
checksum. -/
def linkRows {Checksum : Type} (platform : Platform Document) (hash : ChainHash Document Checksum) :
    Option Checksum → List (RowContent Document × Bool) → List (EventRow Document Checksum)
  | _, [] => []
  | previous, (content, checked) :: rest =>
    let checksum :=
      if checked then some (computeEventChecksum platform hash (content.load platform) previous)
      else none
    { toRowContent := content, checksum := checksum } :: linkRows platform hash checksum rest

section

variable {Checksum : Type} (platform : Platform Document) (hash : ChainHash Document Checksum)
  (previous : Option Checksum) (cells : List (RowContent Document × Bool))

theorem linkRows_chained :
    Chained hash previous ((linkRows platform hash previous cells).map (link platform)) := by
  induction cells generalizing previous with
  | nil => trivial
  | cons cell rest ih =>
    obtain ⟨content, checked⟩ := cell
    cases checked with
    | true => exact ⟨rfl, ih _⟩
    | false => exact ih none

theorem linkRows_content :
    (linkRows platform hash previous cells).map toRowContent = cells.map Prod.fst := by
  induction cells generalizing previous with
  | nil => rfl
  | cons cell rest ih => simp [linkRows, ih]

theorem linkRows_checked :
    (linkRows platform hash previous cells).map (fun row => row.checksum.isSome) =
      cells.map Prod.snd := by
  induction cells generalizing previous with
  | nil => rfl
  | cons cell rest ih =>
    obtain ⟨content, checked⟩ := cell
    cases checked <;> simp [linkRows, ih]

theorem linkRows_length :
    (linkRows platform hash previous cells).length = cells.length := by
  simpa using congrArg length (linkRows_content platform hash previous cells)

end

/-- The rows that a compaction leaves. -/
def compactRows {Checksum : Type} (rows : List (EventRow Document Checksum)) (keep : Nat) :
    List (EventRow Document Checksum) :=
  rows.filter fun row => keep ≤ row.columns.step

/-- The history that an executor replays from rows and a compaction state. -/
def resumedHistory {Checksum : Type} (platform : Platform Document)
    (rows : List (EventRow Document Checksum)) (state : CompactionState) : List StoredEvent :=
  HistoryStore.replayHistory
    { rows := rows.map fun row => row.load platform, state := some state.stored }

/-- After a compaction the rows that are left verify, and a session that has replayed the
rebuilt history remembers the checksum of the last row. -/
def CompactionVerifies {Checksum : Type} (platform : Platform Document)
    (hash : ChainHash Document Checksum) (rows : List (EventRow Document Checksum))
    (keep : Nat) (state : CompactionState) : Prop :=
  VerifyWorkflowEvents platform hash (compactRows rows keep) ∧
    advance hash none
        ((resumedHistory platform (compactRows rows keep) state).map platform.document) =
      tip none ((compactRows rows keep).map (EventRow.link platform))

section Compaction

variable {platform : Platform Document} {cells : List (RowContent Document × Bool)}
  {start keep : Nat} {state : CompactionState}
  (dense : ∀ (index : Nat) (cell : RowContent Document × Bool),
    cells[index]? = some cell → cell.1.columns.step = start + index)
include dense

variable {Checksum : Type}

/-- The rows that a compaction deletes are the first ones. -/
theorem compactRows_eq_drop (hash : ChainHash Document Checksum) :
    compactRows (linkRows platform hash none cells) keep =
      (linkRows platform hash none cells).drop (keep - start) := by
  have placed : ∀ (index : Nat) (row : EventRow Document Checksum),
      (linkRows platform hash none cells)[index]? = some row → row.columns.step = start + index := by
    intro index row found
    have content := congrArg (fun contents => contents[index]?) (linkRows_content platform hash none cells)
    simp only [getElem?_map, found, Option.map_some] at content
    obtain ⟨cell, inside, same⟩ := Option.map_eq_some_iff.mp content.symm
    rw [← dense index cell inside, same]
  exact filter_step_eq_drop (fun row : EventRow Document Checksum => row.columns.step) keep placed

/-- Nothing is left to verify or to continue. -/
theorem compaction_verifies_all (hash : ChainHash Document Checksum)
    (all : cells.length ≤ keep - start) :
    CompactionVerifies platform hash (linkRows platform hash none cells) keep state := by
  have gone : compactRows (linkRows platform hash none cells) keep = [] := by
    rw [compactRows_eq_drop dense, drop_eq_nil_iff, linkRows_length]
    exact all
  rw [CompactionVerifies, gone]
  exact ⟨.inl (by simp), rfl⟩

/-- A compaction that deletes some rows and keeps some. The chain that is left is as long as
the rows, and a reader of the whole history has counted more. -/
theorem not_compaction_verifies_some (kept : keep - start < cells.length) (deletes : 0 < keep)
    (extracted : extractCompactionState
      ((cells.take keep).map fun cell => cell.1.load platform) = .ok state) :
    ¬CompactionVerifies platform tally (linkRows platform tally none cells) keep state := by
  rintro ⟨verified, same⟩
  rw [compactRows_eq_drop dense] at verified same
  have length : ((linkRows platform tally none cells).drop (keep - start)).length =
      cells.length - (keep - start) := by
    rw [length_drop, linkRows_length]
  have bounded := tip_tally_le verified.chained
  have counted := congrArg (fun last => last.getD 0) same
  obtain ⟨restored, count⟩ := extractCompactionState_count extracted
  have room : 0 < defaultMaxCompactedEvents := by decide
  have resumed : (resumedHistory platform
      ((linkRows platform tally none cells).drop (keep - start)) state).length =
        state.compactedStep + (cells.length - (keep - start)) := by
    have left : ((linkRows platform tally none cells).drop (keep - start)).map
        (fun row => row.load platform) ≠ [] := by
      rw [← length_pos_iff, length_map, length]
      omega
    simp only [resumedHistory, HistoryStore.replayHistory, List.isEmpty_iff, left, if_false,
      buildFullHistoryFromCompaction, CompactionState.stored, List.length_append,
      List.length_mapIdx, List.length_map, restored, length]
  rw [length_map, length_take] at count
  simp only [advance_tally, length_map, resumed, Option.getD_none] at counted
  rw [length_map, length, Option.getD_none] at bounded
  omega

/-- A compaction of no events leaves the rows, and a reader counts those without a checksum too. -/
theorem compaction_verifies_none_iff
    (verified : ∀ {Checksum : Type} (hash : ChainHash Document Checksum),
      VerifyWorkflowEvents platform hash (linkRows platform hash none cells))
    (extracted : extractCompactionState [] = .ok state) :
    (∀ {Checksum : Type} (hash : ChainHash Document Checksum),
        CompactionVerifies platform hash (linkRows platform hash none cells) 0 state) ↔
      ∀ cell ∈ cells, cell.2 = true := by
  have nothing : state.stored.events = [] := by
    obtain ⟨restored, count⟩ := extractCompactionState_count extracted
    have empty : state.events = [] := length_eq_zero_iff.mp (by simpa [count] using restored)
    simp [CompactionState.stored, empty]
  have resumed {Checksum : Type} (hash : ChainHash Document Checksum) :
      resumedHistory platform (linkRows platform hash none cells) state =
        (linkRows platform hash none cells).map fun row => row.load platform := by
    simp only [resumedHistory, HistoryStore.replayHistory, buildFullHistoryFromCompaction, nothing]
    split <;> simp_all
  constructor
  · intro each cell member
    obtain ⟨_, same⟩ := each (tally : Document → Option Nat → Nat)
    rw [compactRows_eq_drop dense, Nat.zero_sub, drop_zero, resumed, map_map] at same
    by_contra unchecked
    have linked : ∃ row ∈ linkRows platform tally none cells, row.checksum = none := by
      have present : false ∈ (linkRows platform tally none cells).map fun row => row.checksum.isSome := by
        rw [linkRows_checked]
        exact mem_map.mpr ⟨cell, member, by simpa using unchecked⟩
      obtain ⟨row, inside, absent⟩ := mem_map.mp present
      exact ⟨row, inside, by simpa using absent⟩
    obtain ⟨row, inside, absent⟩ := linked
    have shorter := tip_tally_lt (linkRows_chained platform tally none cells)
      (mem_map.mpr ⟨row, inside, rfl⟩) absent
    have counted := congrArg (fun last => last.getD 0) same
    simp only [advance_tally, length_map, Option.getD_none] at counted shorter
    omega
  · intro complete Checksum hash
    rw [CompactionVerifies, compactRows_eq_drop dense, Nat.zero_sub, drop_zero, resumed,
      map_map]
    refine ⟨verified hash, ?_⟩
    rw [tip_eq_advance hash (linkRows_chained platform hash none cells), map_map]
    · rfl
    · intro link member
      obtain ⟨row, inside, rfl⟩ := mem_map.mp member
      have checked : row.checksum.isSome ∈ cells.map Prod.snd := by
        rw [← linkRows_checked platform hash none]
        exact mem_map.mpr ⟨row, inside, rfl⟩
      obtain ⟨cell, present, same⟩ := mem_map.mp checked
      rw [complete cell present] at same
      exact Option.isSome_iff_ne_none.mp same.symm

end Compaction

/-- A compaction leaves a history that verifies and that a session can continue exactly if it
leaves no row at all, or is one of no events and every row has a checksum. The rows are numbered
from some step on: an earlier compaction may have deleted those before. -/
theorem compaction_verifies (platform : Platform Document)
    (cells : List (RowContent Document × Bool)) (start keep : Nat) (state : CompactionState)
    (dense : ∀ (index : Nat) (cell : RowContent Document × Bool),
      cells[index]? = some cell → cell.1.columns.step = start + index)
    (verified : ∀ {Checksum : Type} (hash : ChainHash Document Checksum),
      VerifyWorkflowEvents platform hash (linkRows platform hash none cells))
    (extracted : extractCompactionState
      ((cells.take keep).map fun cell => cell.1.load platform) = .ok state) :
    (∀ {Checksum : Type} (hash : ChainHash Document Checksum),
        CompactionVerifies platform hash (linkRows platform hash none cells) keep state) ↔
      cells.length ≤ keep - start ∨ keep = 0 ∧ ∀ cell ∈ cells, cell.2 = true := by
  by_cases all : cells.length ≤ keep - start
  · simp only [all, true_or, iff_true]
    intro Checksum hash
    exact compaction_verifies_all dense hash all
  · rcases Nat.eq_zero_or_pos keep with rfl | deletes
    · simp only [all, false_or, true_and]
      exact compaction_verifies_none_iff dense verified extracted
    · constructor
      · intro each
        exact absurd (each tally)
          (not_compaction_verifies_some dense (by omega) deletes extracted)
      · omega

theorem heartbeat_stored_storable (overflow : Int) (step : Nat) (service operation : String)
    (valid : validUTF8 (bytesOf service) = true) (valid' : validUTF8 (bytesOf operation) = true) :
    Storable overflow (heartbeatEvent step service operation).stored where
  numbers field rule member := by
    have none : payloadNumbers (heartbeatEvent step service operation).stored.eventType = [] := rfl
    simp [none] at member
  texts field _ raw := by
    change field ∈ rawTexts .heartbeat at raw
    have only : rawTexts .heartbeat = [.service, .op] := rfl
    rw [only] at raw
    simp only [mem_cons, not_mem_nil, or_false] at raw
    rcases raw with rfl | rfl
    · exact valid
    · exact valid'

theorem heartbeat_typed (step : Nat) (service operation : String) (field : NumberField) :
    Int64Range ((heartbeatEvent step service operation).stored.number field) := by
  have zero : (heartbeatEvent step service operation).stored.number field = 0 := by
    cases field <;> rfl
  rw [zero]
  decide

/-- The rows of a history of heartbeats, each with a checksum. -/
def heartbeatCells (count : Nat) : List (RowContent Payload × Bool) :=
  (range count).map fun step =>
    (contentOf plainPlatform (heartbeatEvent step "svc" "op").stored, true)

theorem heartbeatCells_dense (count : Nat) (index : Nat) (cell : RowContent Payload × Bool)
    (found : (heartbeatCells count)[index]? = some cell) : cell.1.columns.step = 0 + index := by
  obtain ⟨step, counted, rfl⟩ := Option.map_eq_some_iff.mp (getElem?_map ▸ found)
  obtain ⟨_, rfl⟩ := List.getElem?_eq_some_iff.mp counted
  simp [contentOf, columnsOf, EventRecord.stored, heartbeatEvent]

variable {Checksum : Type} {recorded : RecordedEvent}

theorem heartbeatCells_verified (count : Nat) (hash : Payload → Option Checksum → Checksum) :
    VerifyWorkflowEvents plainPlatform hash
      (linkRows plainPlatform hash none (heartbeatCells count)) := by
  refine .inr ⟨linkRows_chained plainPlatform hash none _, fun row member => ?_⟩
  have content : row.toRowContent ∈ (heartbeatCells count).map Prod.fst := by
    rw [← linkRows_content plainPlatform hash none]
    exact mem_map.mpr ⟨row, member, rfl⟩
  obtain ⟨cell, present, same⟩ := mem_map.mp content
  obtain ⟨step, _, rfl⟩ := mem_map.mp present
  rw [← same]
  exact ((storable_iff plainPlatform (heartbeat_typed step "svc" "op")).mpr
    (heartbeat_stored_storable _ step "svc" "op" (by decide +kernel) (by decide +kernel))).2

theorem heartbeatCells_extracted (count keep : Nat) :
    ∃ state, extractCompactionState
      (((heartbeatCells count).take keep).map fun cell => cell.1.load plainPlatform) = .ok state := by
  refine extractCompactionState_accepts fun event member => ?_
  obtain ⟨cell, present, rfl⟩ := mem_map.mp member
  obtain ⟨step, _, rfl⟩ := mem_map.mp (mem_of_mem_take present)
  change extractArm .heartbeat ≠ none
  decide

/-- The row that is left was chained to a row that is gone. -/
theorem compacted_history_fails_verification :
    ∃ state, extractCompactionState
        (((heartbeatCells 2).take 1).map fun cell => cell.1.load plainPlatform) = .ok state ∧
      VerifyWorkflowEvents plainPlatform tally
        (linkRows plainPlatform tally none (heartbeatCells 2)) ∧
      ¬CompactionVerifies plainPlatform tally
        (linkRows plainPlatform tally none (heartbeatCells 2)) 1 state := by
  obtain ⟨state, extracted⟩ := heartbeatCells_extracted 2 1
  exact ⟨state, extracted, heartbeatCells_verified 2 tally,
    not_compaction_verifies_some (heartbeatCells_dense 2) (by decide) (by decide) extracted⟩

theorem compaction_verifies_emptied :
    ∃ state, extractCompactionState
        (((heartbeatCells 2).take 2).map fun cell => cell.1.load plainPlatform) = .ok state ∧
      CompactionVerifies plainPlatform tally
        (linkRows plainPlatform tally none (heartbeatCells 2)) 2 state := by
  obtain ⟨state, extracted⟩ := heartbeatCells_extracted 2 2
  have verifies := compaction_verifies plainPlatform (heartbeatCells 2) 0 2 state
    (heartbeatCells_dense 2) (heartbeatCells_verified 2) extracted
  exact ⟨state, extracted, verifies.mpr (.inl (by decide)) tally⟩

/-- What became of the write of an event: it was written and reported as such, it was switched
off, it failed, or it was written and reported as failed. -/
inductive FlushOutcome where
  | persisted | skipped | failed | unacknowledged
deriving DecidableEq, Repr

/-- An event that a session records, whether it does so in a defer phase, and what becomes of
its write. A plugin call is flushed a second time, which may reach the database. -/
structure RecordedEvent where
  event : StoredEvent
  deferring : Bool := false
  flush : FlushOutcome
  again : Bool := false

/-- The event as the session keeps it. -/
def RecordedEvent.stamped (recorded : RecordedEvent) : StoredEvent :=
  if recorded.deferring then
    { recorded.event with flag := fun field => field = .inDeferPhase || recorded.event.flag field }
  else recorded.event

/-- The second flush of a plugin call writes the row that the first one did not. It has the
event without its stamp. -/
def RecordedEvent.secondFlush (recorded : RecordedEvent) : Bool :=
  recorded.flush = .failed && recorded.event.eventType = .pluginCall && recorded.again

/-- The session goes on from the checksum of the event. -/
def RecordedEvent.remembers (recorded : RecordedEvent) : Bool :=
  recorded.flush = .persisted || recorded.flush = .skipped

/-- A row that waits for an outcome, which a later write of the same step completes. -/
def awaitsOutcome (event : StoredEvent) : Bool :=
  [EventType.awaitChild, .awaitPromise, .awaitAllChildren].contains event.eventType &&
    [TextField.response, .err, .promiseResult, .promiseError].all fun field =>
      event.text field = []

section Segment

variable {Checksum : Type} (platform : Platform Document) (hash : ChainHash Document Checksum)

/-- The row that an event has when its flushes are done. -/
def RecordedEvent.flushed (recorded : RecordedEvent) (last : Option Checksum) :
    Option (EventRow Document Checksum) :=
  match recorded.flush with
  | .persisted | .unacknowledged => some (storedRow platform hash recorded.stamped last)
  | .skipped => none
  | .failed =>
    if recorded.secondFlush then some (storedRow platform hash recorded.event last) else none

/-- The events of a segment in the order they are recorded, each with the row it has then. -/
def recordEvents : Option Checksum → List RecordedEvent →
    List (StoredEvent × Option (EventRow Document Checksum))
  | _, [] => []
  | last, recorded :: rest =>
    (recorded.stamped, recorded.flushed platform hash last) ::
      recordEvents
        (if recorded.remembers then
          some (computeEventChecksum platform hash recorded.stamped last)
        else last) rest

/-- The row of an event after the append at the end of a segment. A row that is there stays
unless it waits for an outcome. -/
def appendOneEvent (event : StoredEvent) (previous : Option Checksum) :
    Option (EventRow Document Checksum) → EventRow Document Checksum
  | none => storedRow platform hash event previous
  | some row =>
    if awaitsOutcome row.columns then
      { row with
        columns := { row.columns with
          eventType := event.eventType
          text := fun field =>
            if field ∈ [TextField.response, .err, .promiseResult, .promiseError] then
              event.text field
            else row.columns.text field }
        payload := some (platform.document event)
        checksum := some (computeEventChecksum platform hash event previous) }
    else row

/-- The append at the end of a segment. Its chain runs over all events, whether or not they
have a row. -/
def appendEventsInTx : Option Checksum →
    List (StoredEvent × Option (EventRow Document Checksum)) → List (EventRow Document Checksum)
  | _, [] => []
  | previous, (event, existing) :: rest =>
    appendOneEvent platform hash event previous existing ::
      appendEventsInTx (some (computeEventChecksum platform hash event previous)) rest

/-- The rows of a segment that starts from a stored checksum. -/
def segmentRows (last : Option Checksum) (recorded : List RecordedEvent) :
    List (EventRow Document Checksum) :=
  appendEventsInTx platform hash last (recordEvents platform hash last recorded)

end Segment

/-- The event whose content the row has in the end. -/
def RecordedEvent.storedEvent (recorded : RecordedEvent) : StoredEvent :=
  if recorded.secondFlush then recorded.event else recorded.stamped

/-- The row that a flush wrote stays as it is. -/
def RecordedEvent.keepsRow (recorded : RecordedEvent) : Bool :=
  (recorded.flush = .persisted || recorded.flush = .unacknowledged) &&
      !awaitsOutcome recorded.stamped ||
    recorded.secondFlush

/-- The row has lost the mark of the defer phase, which the session's event has. -/
def RecordedEvent.losesStamp (recorded : RecordedEvent) : Bool :=
  recorded.secondFlush && recorded.deferring && !recorded.event.flag .inDeferPhase

/-- The writes of a segment keep the chain in order. As long as every write is acknowledged
the session knows the last checksum. After the first one that is not it has lost it, and then
no write may leave a row that the append does not complete. A row without its stamp is the
last one. -/
def Orderly : Bool → List RecordedEvent → Prop
  | _, [] => True
  | true, recorded :: rest =>
    rest ≠ [] → recorded.losesStamp = false ∧ Orderly recorded.remembers rest
  | false, recorded :: rest => recorded.keepsRow = false ∧ Orderly false rest

theorem awaitsOutcome_columnsOf (event : StoredEvent) :
    awaitsOutcome (columnsOf event) = awaitsOutcome event := by
  simp [awaitsOutcome, columnsOf, columnTexts]

theorem RecordedEvent.storedEvent_of_not_keepsRow (gone : recorded.keepsRow = false) :
    recorded.storedEvent = recorded.stamped := by
  simp only [keepsRow, Bool.or_eq_false_iff] at gone
  simp [storedEvent, gone.2]

/-- What the two chains make of an event. -/
def RecordedEvent.write (platform : Platform Document) (recorded : RecordedEvent) :
    Write Document where
  document := platform.document recorded.stamped
  kept := if recorded.keepsRow then some (platform.document recorded.storedEvent) else none
  advanced := recorded.remembers
  read := platform.document ((contentOf platform recorded.storedEvent).load platform)

attribute [local simp] RecordedEvent.write

section Segment

variable {Checksum : Type} (platform : Platform Document) (hash : ChainHash Document Checksum)

attribute [local simp] RecordedEvent.keepsRow RecordedEvent.flushed RecordedEvent.storedEvent

attribute [local simp] appendOneEvent

/-- A row that is kept has the checksum of the session's chain, any other that of the append. -/
theorem appendOneEvent_flushed (recorded : RecordedEvent) (last previous : Option Checksum) :
    appendOneEvent platform hash recorded.stamped previous (recorded.flushed platform hash last) =
      { toRowContent := contentOf platform recorded.storedEvent
        checksum := some
          (if recorded.keepsRow then hash (platform.document recorded.storedEvent) last
          else hash (platform.document recorded.stamped) previous) } := by
  by_cases wrote : recorded.flush = .persisted ∨ recorded.flush = .unacknowledged
  · -- A row that waits for an outcome is written again with the same event.
    have second : recorded.secondFlush = false := by
      rcases wrote with outcome | outcome <;> simp [RecordedEvent.secondFlush, outcome]
    have first : recorded.flushed platform hash last =
        some (storedRow platform hash recorded.stamped last) := by
      rcases wrote with outcome | outcome <;> simp [outcome]
    have kept : recorded.keepsRow = !awaitsOutcome recorded.stamped := by
      rcases wrote with outcome | outcome <;> simp [second, outcome]
    rw [first, kept]
    simp only [appendOneEvent, RecordedEvent.storedEvent, second, storedRow, contentOf,
      awaitsOutcome_columnsOf, computeEventChecksum]
    cases awaitsOutcome recorded.stamped with
    | false => simp
    | true =>
      simp only [if_true, Bool.not_true, Bool.false_eq_true, if_false, mk.injEq,
        RowContent.mk.injEq, and_true]
      refine StoredEvent.ext rfl rfl rfl ?_ rfl rfl
      funext field
      by_cases outcome : field ∈ [TextField.response, .err, .promiseResult, .promiseError]
      · have column : field ∈ columnTexts := by
          revert outcome
          cases field <;> decide
        simp [columnsOf, outcome, column]
      · simp [columnsOf, outcome]
  cases outcome : recorded.flush with
  | persisted | unacknowledged => simp [outcome] at wrote
  | skipped => simp [RecordedEvent.secondFlush, outcome, storedRow]
  | failed =>
    cases second : recorded.secondFlush with
    | false => simp [second, outcome, storedRow]
    | true =>
      have plugin : recorded.event.eventType = .pluginCall := by
        simp only [RecordedEvent.secondFlush, Bool.and_eq_true, decide_eq_true_eq] at second
        exact second.1.2
      have finished : awaitsOutcome recorded.event = false := by
        simp [awaitsOutcome, plugin]
      simp [second, outcome, storedRow, contentOf, awaitsOutcome_columnsOf, finished]

/-- The rows of a segment are those of a writer and a pass that fills in what is missing. -/
theorem segmentRows_link (recorded : List RecordedEvent) (last previous : Option Checksum) :
    (appendEventsInTx platform hash previous (recordEvents platform hash last recorded)).map
        (link platform) =
      settle hash last previous (recorded.map (RecordedEvent.write platform)) := by
  induction recorded generalizing last previous with
  | nil => rfl
  | cons first rest ih =>
    simp only [recordEvents, appendEventsInTx, map_cons, settle, ih,
      appendOneEvent_flushed]
    congr 1
    simp only [link, RecordedEvent.write]
    congr 2
    split <;> rfl

/-- A row holds the event that was written last. -/
theorem segmentRows_content (recorded : List RecordedEvent) (last previous : Option Checksum) :
    (appendEventsInTx platform hash previous (recordEvents platform hash last recorded)).map
        toRowContent =
      recorded.map fun event => contentOf platform event.storedEvent := by
  induction recorded generalizing last previous with
  | nil => rfl
  | cons first rest ih =>
    simp only [recordEvents, appendEventsInTx, map_cons, ih, appendOneEvent_flushed]

end Segment

/-- The document of the row and the one the session has in mind differ by the stamp only. -/
theorem RecordedEvent.document_storedEvent_iff (platform : Platform Document)
    (recorded : RecordedEvent) :
    platform.document recorded.storedEvent = platform.document recorded.stamped ↔
      recorded.losesStamp = false := by
  cases second : recorded.secondFlush with
  | false => simp [storedEvent, losesStamp, second]
  | true =>
    cases deferring : recorded.deferring with
    | false => simp [storedEvent, stamped, losesStamp, second, deferring]
    | true =>
      cases marked : recorded.event.flag .inDeferPhase with
      | true =>
        have same : recorded.stamped = recorded.event := by
          rw [stamped, if_pos deferring]
          refine StoredEvent.ext rfl rfl rfl rfl rfl ?_
          funext field
          by_cases mark : field = .inDeferPhase
          · simp [mark, marked]
          · simp [mark]
        simp [storedEvent, losesStamp, second, marked, same]
      | false =>
        simp only [storedEvent, second, if_true, losesStamp, deferring, marked,
          Bool.not_false, Bool.and_true, Bool.true_eq_false, iff_false]
        intro same
        have entry : ∀ eventType,
            (PayloadKey.inDeferPhase, PayloadSource.flag .inDeferPhase) ∈
              payloadTable eventType := by
          intro eventType
          simp [payloadTable]
        have here := (platform.marshal_eq_iff _ _).mp same .inDeferPhase
        rw [payload_entry (entry _), payload_entry (entry _)] at here
        simp [PayloadSource.value, marked, stamped, deferring] at here

theorem RecordedEvent.kept_document (platform : Platform Document) (recorded : RecordedEvent) :
    (recorded.write platform).kept.getD (platform.document recorded.stamped) =
      platform.document recorded.storedEvent := by
  cases keeps : recorded.keepsRow with
  | true => simp [write, keeps]
  | false => simp [write, keeps, storedEvent_of_not_keepsRow keeps]

/-- The two chains of a segment agree exactly if its writes are in order and every row reads
back the document it was stored with. -/
theorem steady_iff (platform : Platform Document) (recorded : List RecordedEvent) (level : Bool) :
    Steady level (recorded.map (RecordedEvent.write platform)) ↔
      Orderly level recorded ∧ ∀ event ∈ recorded,
        platform.document ((contentOf platform event.storedEvent).load platform) =
          platform.document event.storedEvent := by
  induction recorded generalizing level with
  | nil => simp [Steady, Orderly]
  | cons first rest ih =>
    rw [forall_mem_cons]
    cases level with
    | true =>
      have reads : (first.write platform).read =
          platform.document ((contentOf platform first.storedEvent).load platform) := rfl
      have inMind : (first.write platform).document = platform.document first.stamped := rfl
      have goesOn : (first.write platform).advanced = first.remembers := rfl
      simp only [map_cons, Steady, Orderly, first.kept_document, reads, inMind, goesOn,
        first.document_storedEvent_iff, ne_eq, map_eq_nil_iff, ih]
      by_cases done : rest = []
      · simp [done]
      · tauto
    | false =>
      have kept : (first.write platform).kept = none ↔ first.keepsRow = false := by
        cases keeps : first.keepsRow <;> simp [keeps]
      simp only [map_cons, Steady, Orderly, kept, ih]
      constructor
      · rintro ⟨gone, read, later, reads⟩
        refine ⟨⟨gone, later⟩, ?_, reads⟩
        simpa [first.storedEvent_of_not_keepsRow gone] using read
      · rintro ⟨⟨gone, later⟩, read, reads⟩
        refine ⟨gone, ?_, later, reads⟩
        simpa [first.storedEvent_of_not_keepsRow gone] using read

/-- The stamp is a flag, and flags are stored as they are. -/
theorem storable_storedEvent {overflow : Int} :
    Storable overflow recorded.storedEvent ↔ Storable overflow recorded.event := by
  have same : recorded.storedEvent.eventType = recorded.event.eventType ∧
      recorded.storedEvent.text = recorded.event.text ∧
      recorded.storedEvent.number = recorded.event.number := by
    simp only [RecordedEvent.storedEvent, RecordedEvent.stamped]
    split
    · exact ⟨rfl, rfl, rfl⟩
    · split <;> exact ⟨rfl, rfl, rfl⟩
  obtain ⟨eventType, text, number⟩ := same
  constructor
  · rintro ⟨numbers, texts⟩
    rw [eventType, number] at numbers
    rw [eventType, text] at texts
    exact ⟨numbers, texts⟩
  · rintro ⟨numbers, texts⟩
    rw [← eventType, ← number] at numbers
    rw [← eventType, ← text] at texts
    exact ⟨numbers, texts⟩

theorem segmentRows_checked (platform : Platform Document) (hash : ChainHash Document Checksum)
    (last : Option Checksum) {recorded : List RecordedEvent} (some : recorded ≠ []) :
    ∃ row ∈ segmentRows platform hash last recorded, row.checksum ≠ none := by
  obtain ⟨first, rest, rfl⟩ := exists_cons_of_ne_nil some
  refine ⟨_, mem_cons_self, ?_⟩
  rw [appendOneEvent_flushed]
  simp

theorem linkRows_shadow {platform : Platform Document} {hash : ChainHash Document Checksum}
    {previous : Option Checksum} {cells : List (RowContent Document × Bool)}
    (intact : ∀ cell ∈ cells, ShadowMatches platform cell.1) {row : EventRow Document Checksum}
    (member : row ∈ linkRows platform hash previous cells) :
    ShadowMatches platform row.toRowContent := by
  have content : row.toRowContent ∈ cells.map Prod.fst := by
    rw [← linkRows_content platform hash previous]
    exact mem_map.mpr ⟨row, member, rfl⟩
  obtain ⟨cell, present, same⟩ := mem_map.mp content
  exact same ▸ intact cell present

/-- The rows of a segment that continues a history verify, whatever the hash, exactly if its
writes are in order and its events are storable. The segment starts at the checksum of the last
row that has one. A replay of the history arrives there only where all rows have one; what becomes
of histories with rows that were never completed is the subject of a module of its own. -/
theorem segment_verifies (platform : Platform Document) (cells : List (RowContent Document × Bool))
    (intact : ∀ cell ∈ cells, ShadowMatches platform cell.1) (recorded : List RecordedEvent)
    (typed : ∀ event ∈ recorded, ∀ field, Int64Range (event.event.number field)) :
    (∀ {Checksum : Type} (hash : ChainHash Document Checksum),
        VerifyWorkflowEvents platform hash
          (linkRows platform hash none cells ++
            segmentRows platform hash
              (tip none ((linkRows platform hash none cells).map (link platform)))
              recorded)) ↔
      Orderly true recorded ∧ ∀ event ∈ recorded, Storable platform.overflow event.event := by
  have rowsTyped : ∀ event ∈ recorded, ∀ field, Int64Range (event.storedEvent.number field) := by
    intro event member field
    have same : event.storedEvent.number = event.event.number := by
      simp only [RecordedEvent.storedEvent, RecordedEvent.stamped]
      split
      · rfl
      · split <;> rfl
    rw [same]
    exact typed event member field
  have whole {Checksum : Type} (hash : ChainHash Document Checksum)
      (last : Option Checksum) :
      (∀ row ∈ segmentRows platform hash last recorded, ShadowMatches platform row.toRowContent) ↔
        ∀ event ∈ recorded, ShadowMatches platform (contentOf platform event.storedEvent) := by
    have contents := segmentRows_content platform hash recorded last last
    have rows := forall_mem_map (f := toRowContent)
      (l := segmentRows platform hash last recorded) (P := ShadowMatches platform)
    rw [← rows, segmentRows, contents, forall_mem_map]
  constructor
  · intro verifies
    by_cases empty : recorded = []
    · simp [empty, Orderly]
    · -- Everything is written down by the hash that spells, so one hash decides.
      rcases verifies (spell : Document → Option (List (Option Document)) → _) with
        unchecked | ⟨chained, shadow⟩
      · obtain ⟨row, member, checked⟩ := segmentRows_checked platform spell
          (tip none ((linkRows platform spell none cells).map (link platform))) empty
        exact absurd (unchecked row (mem_append_right _ member)) checked
      · rw [map_append, chained_append, segmentRows, segmentRows_link] at chained
        obtain ⟨orderly, reads⟩ := (steady_iff platform recorded true).mp
          (steady_of_chained chained.2)
        have matched := (whole spell _).mp fun row member =>
          shadow row (mem_append_right _ member)
        refine ⟨orderly, fun event member => storable_storedEvent.mp ?_⟩
        exact (storable_iff platform (rowsTyped event member)).mp
          ⟨reads event member, matched event member⟩
  · rintro ⟨orderly, storable⟩ Checksum hash
    have ready : ∀ event ∈ recorded,
        platform.document ((contentOf platform event.storedEvent).load platform) =
            platform.document event.storedEvent ∧
          ShadowMatches platform (contentOf platform event.storedEvent) := by
      intro event member
      exact (storable_iff platform (rowsTyped event member)).mpr
        (storable_storedEvent.mpr (storable event member))
    refine .inr ⟨?_, ?_⟩
    · rw [map_append, chained_append]
      refine ⟨linkRows_chained platform hash none cells, ?_⟩
      rw [segmentRows, segmentRows_link]
      exact chained_of_steady _ ((steady_iff platform recorded true).mpr
        ⟨orderly, fun event member => (ready event member).1⟩)
    · exact forall_mem_append.mpr ⟨fun _ => linkRows_shadow intact,
        (whole hash _).mpr fun event member => (ready event member).2⟩

/-- A heartbeat that a session records. -/
def recordedHeartbeat (step : Nat) (flush : FlushOutcome) : RecordedEvent where
  event := (heartbeatEvent step "svc" "op").stored
  flush := flush

/-- A write fails and the next one succeeds. The second row is chained as if the first were
not there, and then the first one is filled in. -/
theorem write_after_failure_breaks_chain :
    ¬VerifyWorkflowEvents plainPlatform tally
      (segmentRows plainPlatform tally none
        [recordedHeartbeat 0 .failed, recordedHeartbeat 1 .persisted]) := by
  intro verified
  have chained := verified.chained
  revert chained
  decide +kernel

theorem segment_verifies_failing_last :
    VerifyWorkflowEvents plainPlatform tally
      (linkRows plainPlatform tally none [] ++
        segmentRows plainPlatform tally none
          [recordedHeartbeat 0 .persisted, recordedHeartbeat 1 .skipped,
            recordedHeartbeat 2 .failed, recordedHeartbeat 3 .failed]) := by
  refine (segment_verifies plainPlatform [] (by simp) _ ?_).mpr ⟨?_, ?_⟩ tally
  · intro event member
    fin_cases member <;> exact heartbeat_typed _ "svc" "op"
  · exact fun _ => ⟨rfl, fun _ => ⟨rfl, fun _ => ⟨rfl, rfl, trivial⟩⟩⟩
  · intro event member
    fin_cases member <;>
      exact heartbeat_stored_storable _ _ "svc" "op" (by decide +kernel) (by decide +kernel)

end Cleat
