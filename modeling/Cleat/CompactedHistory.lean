import Cleat.Compaction
import Cleat.Encoding.Utf8

/-!
# Histories that are compacted while they grow

The event rows of a workflow and its compaction state are stored apart. Rows are appended,
and a compaction deletes the rows below a step and replaces the state. This module runs
the two in any order and compares the history that an executor would then rebuild with all
events that were ever appended.

The state is stored as JSON, which replaces the bytes of a text that are not UTF-8.
Whether a compaction is committed is up to the database: it can fail, and it is given up
if the workflow is reclaimed meanwhile. A compaction that is not committed changes nothing.
-/
namespace Cleat

open Durable Encoding List

/-- An event as the stored state gives it back. -/
def CompactedEvent.stored (event : CompactedEvent) : CompactedEvent :=
  { event with text := fun field => toValidUTF8 (event.text field) }

def CompactionState.stored (state : CompactionState) : CompactionState :=
  { state with events := state.events.map CompactedEvent.stored }

/-- What is stored of a workflow's history. -/
structure HistoryStore where
  rows : List StoredEvent := []
  state : Option CompactionState := none

/-- Deletes the rows below a step and replaces the state. -/
def HistoryStore.compactHistory (store : HistoryStore) (state : CompactionState) (keep : Nat) :
    HistoryStore where
  rows := store.rows.filter fun row => keep ≤ row.step
  state := some state.stored

/-- A compaction. Nothing happens if there are not enough rows, if an event is refused or if
the compaction is not committed. -/
def HistoryStore.compactWorkflowHistory (store : HistoryStore) (effective : Nat)
    (committed : Bool) : HistoryStore :=
  if store.rows.length ≤ effective then store
  else
    match extractCompactionState (store.rows.take (keepStep effective store.rows)) with
    | .error _ => store
    | .ok state =>
      if committed then store.compactHistory state (keepStep effective store.rows) else store

/-- The history an executor replays. A state is used only if there are rows. -/
def HistoryStore.replayHistory (store : HistoryStore) : List StoredEvent :=
  match store.state with
  | some state =>
    if store.rows.isEmpty then store.rows else buildFullHistoryFromCompaction store.rows state
  | none => store.rows

/-- What happens to a workflow's stored history. -/
inductive StoreOp where
  | append (event : StoredEvent)
  | compact (effective : Nat) (committed : Bool)

/-- A stored history together with everything that was appended to it. -/
structure StoreRun where
  store : HistoryStore := {}
  log : List StoredEvent := []

/-- An appended event gets the next step. -/
def StoreRun.next (run : StoreRun) : StoreOp → StoreRun
  | .append event =>
    { store := { run.store with rows := run.store.rows ++ [{ event with step := run.log.length }] }
      log := run.log ++ [{ event with step := run.log.length }] }
  | .compact effective committed =>
    { run with store := run.store.compactWorkflowHistory effective committed }

/-- The run of some operations on a new workflow. -/
def StoreRun.after (ops : List StoreOp) : StoreRun := ops.foldl StoreRun.next {}

/-- The step, the type, the request and the response of two events agree. -/
structure SameCall (event original : StoredEvent) : Prop where
  step : event.step = original.step
  eventType : event.eventType = original.eventType
  request : event.text .request = original.text .request
  response : event.text .response = original.text .response

/-- The executor rebuilds all events that were appended, in their order. -/
def StoreRun.Rebuilds (run : StoreRun) : Prop :=
  List.Forall₂ SameCall run.store.replayHistory run.log

/-- A text of an event comes back from a stored state: it is carried by the arm of the
event's type and well formed, or there is none. -/
def keepsText (event : StoredEvent) (field : TextField) : Bool :=
  if field ∈ filled (restoreArm event.eventType).texts then validUTF8 (event.text field)
  else (event.text field).isEmpty

variable {event : StoredEvent} {effective : Nat}

/-- The text of an event that comes back from a stored state. -/
theorem restored_stored_text {arm : ExtractArm} (extracts : extractArm event.eventType = some arm)
    (index : Nat) (field : TextField) :
    (restoreEvent index (compactBy arm event).stored).text field = event.text field ↔
      keepsText event field = true := by
  have stored : (restoreEvent index (compactBy arm event).stored).text field =
      toValidUTF8 ((restoreEvent index (compactBy arm event)).text field) :=
    fill_map toValidUTF8 [] _ _ field
  rw [stored, restored_text extracts, keepsText]
  split
  · exact toValidUTF8_eq_self_iff
  · rw [List.isEmpty_iff]
    exact eq_comm

/-- A compaction of rows loses nothing: it is the first one, it keeps a row, it drops no
event, and the requests and responses come back. -/
structure Lossless (store : HistoryStore) (effective : Nat) : Prop where
  first : store.state = none
  keeps : 2 ≤ effective
  bounded : keepStep effective store.rows ≤ defaultMaxCompactedEvents
  requests : ∀ event ∈ store.rows.take (keepStep effective store.rows),
    keepsText event .request = true
  responses : ∀ event ∈ store.rows.take (keepStep effective store.rows),
    keepsText event .response = true

/-- An operation loses nothing. A compaction that changes nothing is included. -/
def StoreOp.Safe (store : HistoryStore) : StoreOp → Prop
  | .append _ => True
  | .compact effective committed =>
    committed = true → effective < store.rows.length →
      (∀ event ∈ store.rows.take (keepStep effective store.rows),
        extractArm event.eventType ≠ none) → Lossless store effective

/-- Every operation of a run loses nothing where it happens. -/
def SafeRun (run : StoreRun) : List StoreOp → Prop
  | [] => True
  | op :: rest => op.Safe run.store ∧ SafeRun (run.next op) rest

/-- What holds throughout such a run: the events are dense, and either nothing was compacted
and the rows are the whole log, or the state stands for the events in front of the rows. -/
structure Covers (run : StoreRun) : Prop where
  dense : StepDense run.log
  plain : run.store.state = none → run.store.rows = run.log
  compacted : ∀ state, run.store.state = some state →
    run.store.rows ≠ [] ∧ ∃ front, run.log = front ++ run.store.rows ∧
      List.Forall₂ SameCall (state.events.mapIdx restoreEvent) front

/-- Of rows that are numbered from some step on, those below another step are the first ones. -/
theorem filter_step_eq_drop {α : Type} (step : α → Nat) {rows : List α} {start : Nat} (keep : Nat)
    (placed : ∀ (index : Nat) (row : α), rows[index]? = some row → step row = start + index) :
    rows.filter (fun row => keep ≤ step row) = rows.drop (keep - start) := by
  induction rows generalizing start with
  | nil => simp
  | cons row rest hypothesis =>
    have here : step row = start := placed 0 row rfl
    have later := @hypothesis (start + 1) fun index event found => by
      have there := placed (index + 1) event found
      omega
    by_cases below : keep ≤ start
    · rw [filter_cons_of_pos (by simpa [here] using below), later,
        Nat.sub_eq_zero_of_le below, Nat.sub_eq_zero_of_le (by omega)]
      rfl
    · obtain ⟨more, counted⟩ := Nat.exists_eq_add_of_lt (Nat.lt_of_not_le below)
      rw [filter_cons_of_neg (by simpa [here] using below), later, counted]
      rw [show start + more + 1 - start = more + 1 by omega, drop_succ_cons]
      congr 1
      omega

/-- The events of a stored state come back with their requests and responses. -/
theorem restored_sameCall {events : List StoredEvent} {compacted : List CompactedEvent}
    (accepted : compactEvents events = .ok compacted) (dense : StepDense events)
    (requests : ∀ event ∈ events, keepsText event .request = true)
    (responses : ∀ event ∈ events, keepsText event .response = true) :
    List.Forall₂ SameCall ((compacted.map CompactedEvent.stored).mapIdx restoreEvent) events := by
  have pairs := compactEvents_eq_ok_iff.mp accepted
  refine forall₂_iff_get.mpr ⟨by simp [pairs.length_eq], fun index placed inside => ?_⟩
  have held : index < compacted.length := by simpa using placed
  obtain ⟨arm, extracts, kept⟩ := compactEvent_eq_ok_iff.mp (pairs.get inside held)
  have found : events[index]? = some (events.get ⟨index, inside⟩) :=
    getElem?_eq_getElem inside
  have restored : ((compacted.map CompactedEvent.stored).mapIdx restoreEvent).get ⟨index, placed⟩ =
      restoreEvent index (compactBy arm (events.get ⟨index, inside⟩)).stored := by
    simp only [get_eq_getElem, getElem_mapIdx, getElem_map] at kept ⊢
    rw [kept]
  have member := get_mem events ⟨index, inside⟩
  rw [restored]
  exact {
    step := (dense index _ found).symm
    eventType := by simp [restoreEvent, CompactedEvent.stored, compactBy]
    request := (restored_stored_text extracts index .request).mpr (requests _ member)
    response := (restored_stored_text extracts index .response).mpr (responses _ member) }

theorem SameCall.refl (event : StoredEvent) : SameCall event event := ⟨rfl, rfl, rfl, rfl⟩

theorem Covers.rebuilds {run : StoreRun} (covers : Covers run) : run.Rebuilds := by
  have same (events : List StoredEvent) : List.Forall₂ SameCall events events :=
    forall₂_same.mpr fun event _ => SameCall.refl event
  rw [StoreRun.Rebuilds, HistoryStore.replayHistory]
  cases found : run.store.state with
  | none =>
    simp only [covers.plain found]
    exact same run.log
  | some state =>
    obtain ⟨left, front, whole, restored⟩ := covers.compacted state found
    simp only [List.isEmpty_iff, left, if_false, whole, buildFullHistoryFromCompaction]
    exact List.rel_append restored (same run.store.rows)

theorem covers_new : Covers {} where
  dense := by simp [StepDense]
  plain _ := rfl
  compacted state found := by simp at found

theorem StepDense.snoc {log : List StoredEvent} (dense : StepDense log)
    (next : event.step = log.length) : StepDense (log ++ [event]) := by
  intro index other found
  rw [getElem?_append] at found
  split at found
  · exact dense index other found
  · rename_i outside
    obtain ⟨within, rfl⟩ := List.getElem?_eq_some_iff.mp found
    have last : index = log.length := by simp at within; omega
    simp [next, last]

theorem Covers.append {run : StoreRun} (covers : Covers run) (event : StoredEvent) :
    Covers (run.next (.append event)) where
  dense := covers.dense.snoc rfl
  plain found := by simp only [StoreRun.next, covers.plain found]
  compacted state found := by
    obtain ⟨_, front, whole, restored⟩ := covers.compacted state found
    refine ⟨by simp [StoreRun.next], front, ?_, restored⟩
    simp only [StoreRun.next]
    rw [whole, append_assoc]

/-- The first compaction of a workflow splits the log into events that the state stands for
and rows. -/
theorem Covers.compactHistory {run : StoreRun} (covers : Covers run) {state : CompactionState}
    (longer : effective < run.store.rows.length) (extracted : extractCompactionState
      (run.store.rows.take (keepStep effective run.store.rows)) = .ok state)
    (lossless : Lossless run.store effective) :
    Covers { run with
      store := run.store.compactHistory state (keepStep effective run.store.rows) } := by
  have rows := covers.plain lossless.first
  obtain ⟨_, keeps, bounded, requests, responses⟩ := lossless
  rw [rows] at longer extracted bounded requests responses
  rw [rows]
  have short : (run.log.take (keepStep effective run.log)).length ≤ defaultMaxCompactedEvents := by
    rw [length_take]
    omega
  obtain ⟨accepted, _⟩ := (extractCompactionState_bounded short).mp extracted
  have dense : StepDense (run.log.take (keepStep effective run.log)) := by
    intro index event found
    rw [getElem?_take] at found
    split at found
    · exact covers.dense index event found
    · simp at found
  have fromZero : ∀ (index : Nat) (event : StoredEvent),
      run.log[index]? = some event → event.step = 0 + index := by
    intro index event found
    rw [covers.dense index event found, Nat.zero_add]
  have kept : run.store.rows.filter (fun row => keepStep effective run.log ≤ row.step) =
      run.log.drop (keepStep effective run.log) := by
    rw [rows, filter_step_eq_drop StoredEvent.step _ fromZero, Nat.sub_zero]
  refine ⟨covers.dense, by simp [HistoryStore.compactHistory], ?_⟩
  rintro _ ⟨⟩
  refine ⟨?_, run.log.take (keepStep effective run.log), ?_, ?_⟩
  · rw [HistoryStore.compactHistory, kept, ← length_pos_iff, length_drop, keepStep]
    omega
  · simp only [HistoryStore.compactHistory, kept, take_append_drop]
  · exact restored_sameCall accepted dense requests responses

theorem Covers.compact {run : StoreRun} (covers : Covers run) {committed : Bool}
    (safe : (StoreOp.compact effective committed).Safe run.store) :
    Covers (run.next (.compact effective committed)) := by
  rw [StoreRun.next, HistoryStore.compactWorkflowHistory]
  split
  · exact covers
  · rename_i longer
    cases extracted : extractCompactionState
        (run.store.rows.take (keepStep effective run.store.rows)) with
    | error refusal => exact covers
    | ok state =>
      cases committed with
      | false => exact covers
      | true =>
        have armed := extractCompactionState_accepted extracted
        exact covers.compactHistory (by omega) extracted (safe rfl (by omega) armed)

theorem Covers.next {run : StoreRun} (covers : Covers run) {op : StoreOp}
    (safe : op.Safe run.store) : Covers (run.next op) := by
  cases op with
  | append event => exact covers.append event
  | compact effective committed => exact covers.compact safe

theorem Covers.run {run : StoreRun} (covers : Covers run) {ops : List StoreOp}
    (safe : SafeRun run ops) : Covers (ops.foldl StoreRun.next run) := by
  induction ops generalizing run with
  | nil => exact covers
  | cons op rest hypothesis => exact hypothesis (covers.next safe.1) safe.2

/-- In every run whose compactions lose nothing the executor rebuilds all events that were
appended. -/
theorem compactions_rebuild (ops : List StoreOp) (safe : SafeRun {} ops) :
    (StoreRun.after ops).Rebuilds :=
  (covers_new.run safe).rebuilds

/-- A call that a workflow records, with its request. -/
def appendCall (request : String) : StoreOp := .append (callEvent 0 "svc" "op" request "" "").stored

/-- A second compaction replaces the state of the first one by that of the rows that had
been kept. The first events are gone. The history has grown enough in between for the workflow to
be a candidate again. -/
theorem second_compaction_forgets :
    ¬(StoreRun.after ([appendCall "a", appendCall "b", appendCall "c", .compact 2 true] ++
      ["d", "e", "f", "g"].map appendCall ++ [.compact 2 true])).Rebuilds := by
  intro rebuilds
  obtain ⟨_, same⟩ := forall₂_iff_get.mp rebuilds
  have request := (same 0 (by decide +kernel) (by decide +kernel)).request
  revert request
  decide +kernel

theorem compactions_rebuild_once :
    (StoreRun.after [appendCall "a", appendCall "b", appendCall "c", .compact 2 true,
      appendCall "d", .compact 3 true]).Rebuilds := by
  refine compactions_rebuild _ ⟨trivial, trivial, trivial, ?_, trivial, ?_, trivial⟩
  · intro _ _ _
    exact ⟨rfl, by decide, by decide, by decide +kernel, by decide +kernel⟩
  · intro _ longer
    exact absurd longer (by decide)

end Cleat
