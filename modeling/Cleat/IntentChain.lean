import Cleat.ChecksumChain

/-!
# Announced calls in the checksum chain

A call that is announced before it is made has a row without a payload and without a checksum
until it is completed. If the worker dies in between, the row is found pending when the
workflow is replayed. It may then be resolved, which gives it a payload and a checksum and
chains the rows behind it anew, up to the next pending row; or it stays as it is.

The session that replays the history computes its own chain from the events it has loaded,
the pending ones included. This module asks whether events that it records afterwards fit.
-/
namespace Cleat

open Durable Encoding List EventRow PayloadSource

attribute [local simp] EventRow.isPendingIntent linkRows

variable {Document : Type}

/-- What becomes of a pending call when it is replayed: its outcome is found, by sending the
request once more under the same key or by asking a resolver, the service has never seen it,
or nobody can say. -/
inductive IntentOutcome where
  | resolved (response : Bytes)
  | notSent
  | ambiguous
deriving DecidableEq, Repr

/-- The columns of an announced call, with the time at which its row was created. -/
def intentColumns (step : Nat) (timestampMs : Int) (service operation request : Bytes) :
    StoredEvent where
  step := step
  eventType := .call
  timestampMs := timestampMs
  text field :=
    match field with
    | .service => service
    | .op => operation
    | .request => request
    | _ => []

/-- The row of an announced call. -/
def IsIntent (content : RowContent Document) : Prop :=
  ∃ step timestampMs service operation request,
    content = { columns := intentColumns step timestampMs service operation request,
                payload := none, intent := true }

/-- A pending event with an outcome. -/
def completeEvent (event : StoredEvent) (response err errCode : Bytes) : StoredEvent :=
  { event with
    text := fun field =>
      match field with
      | .response => response
      | .err => err
      | .errCode => errCode
      | _ => event.text field
    flag := fun field => if field = .errNonRetryable then false else event.flag field }

/-- The event that a resolution records, if there is one. -/
def IntentOutcome.complete (event : StoredEvent) : IntentOutcome → Option StoredEvent
  | .resolved response => some (completeEvent event response [] [])
  | .notSent =>
    some (completeEvent event [] (bytesOf ambiguityNotSentMessage) (bytesOf "transient"))
  | .ambiguous => none

attribute [local simp] IntentOutcome.complete

/-- A stored row given by what it holds and by whether it has a checksum, and what becomes of
it if it is pending. -/
structure ReplayedRow (Document : Type) where
  content : RowContent Document
  checked : Bool
  outcome : IntentOutcome

/-- The row is that of a call that was announced and never completed. -/
def ReplayedRow.pending (row : ReplayedRow Document) : Bool :=
  row.content.intent && !row.checked

section

variable {Checksum : Type} (platform : Platform Document) (hash : ChainHash Document Checksum)

/-- A pending row with its outcome. The columns that are not part of the outcome stay. -/
def resolveCallIntent (row : EventRow Document Checksum) (completed : StoredEvent)
    (previous : Option Checksum) : EventRow Document Checksum where
  columns := { row.columns with
    text := fun field =>
      match field with
      | .response => completed.text .response
      | .err => completed.text .err
      | _ => row.columns.text field }
  payload := some (platform.document completed)
  intent := false
  checksum := some (computeEventChecksum platform hash completed previous)

/-- The rows behind a row that was resolved, chained anew up to the next pending one. -/
def repairChainAfterResolve : Option Checksum →
    List (EventRow Document Checksum × IntentOutcome) →
      List (EventRow Document Checksum × IntentOutcome)
  | _, [] => []
  | chain, (row, outcome) :: rest =>
    if row.isPendingIntent then (row, outcome) :: rest
    else
      let checksum := computeEventChecksum platform hash (row.load platform) chain
      ({ row with checksum := some checksum }, outcome) ::
        repairChainAfterResolve (some checksum) rest

theorem length_repairChainAfterResolve (chain : Option Checksum)
    (rows : List (EventRow Document Checksum × IntentOutcome)) :
    (repairChainAfterResolve platform hash chain rows).length = rows.length := by
  induction rows generalizing chain with
  | nil => rfl
  | cons row rest ih =>
    rw [repairChainAfterResolve]
    split
    · rfl
    · simp [ih]

/-- The rows of a history after a replay that has met each of them. -/
def replayIntents (previous : Option Checksum) :
    List (EventRow Document Checksum × IntentOutcome) → List (EventRow Document Checksum)
  | [] => []
  | (row, outcome) :: rest =>
    if row.isPendingIntent then
      match outcome.complete (row.load platform) with
      | some completed =>
        let resolved := resolveCallIntent platform hash row completed previous
        resolved ::
          replayIntents resolved.checksum
            (repairChainAfterResolve platform hash resolved.checksum rest)
      | none => row :: replayIntents row.checksum rest
    else row :: replayIntents row.checksum rest
termination_by rows => rows.length
decreasing_by
  all_goals simp [length_repairChainAfterResolve]

/-- The rows of a history that verifies, with what becomes of those that are pending. -/
def intentRows : Option Checksum → List (ReplayedRow Document) →
    List (EventRow Document Checksum × IntentOutcome)
  | _, [] => []
  | previous, row :: rest =>
    let checksum :=
      if row.checked then
        some (computeEventChecksum platform hash (row.content.load platform) previous)
      else none
    ({ toRowContent := row.content, checksum := checksum }, row.outcome) ::
      intentRows checksum rest

/-- The rows of events that a session records, all of them written. -/
def persistEvents : Option Checksum → List StoredEvent → List (EventRow Document Checksum)
  | _, [] => []
  | last, event :: rest =>
    storedRow platform hash event last ::
      persistEvents (some (computeEventChecksum platform hash event last)) rest

/-- The checksum that a session remembers when it has replayed some rows. -/
def replayedChecksum (rows : List (EventRow Document Checksum)) : Option Checksum :=
  advance hash none (rows.map fun row => platform.document (row.load platform))

end

/-- The rows that a replay leaves, and which of them have a checksum. A resolved row gives one
to every row behind it, up to the next pending one. -/
def settledCells (platform : Platform Document) :
    Bool → List (ReplayedRow Document) → List (RowContent Document × Bool)
  | _, [] => []
  | repaired, row :: rest =>
    if row.pending then
      match row.outcome.complete row.content.columns with
      | some completed => (contentOf platform completed, true) :: settledCells platform true rest
      | none => (row.content, false) :: settledCells platform false rest
    else (row.content, row.checked || repaired) :: settledCells platform repaired rest

attribute [local simp] settledCells

theorem settledCells_length (platform : Platform Document) (repaired : Bool)
    (rows : List (ReplayedRow Document)) :
    (settledCells platform repaired rows).length = rows.length := by
  induction rows generalizing repaired with
  | nil => rfl
  | cons row rest ih =>
    rw [settledCells]
    split
    · split <;> simp [ih]
    · simp [ih]

/-- The rows behind a resolved row. -/
def repairCells : List (ReplayedRow Document) → List (ReplayedRow Document)
  | [] => []
  | row :: rest =>
    if row.pending then row :: rest else { row with checked := true } :: repairCells rest

attribute [local simp] repairCells

section

variable {Checksum : Type} (platform : Platform Document) (hash : ChainHash Document Checksum)

attribute [local simp] repairChainAfterResolve

/-- Chaining rows anew is the same as chaining them from another checksum in the first place. -/
theorem repair_intentRows (old new : Option Checksum) (rows : List (ReplayedRow Document)) :
    repairChainAfterResolve platform hash new (intentRows platform hash old rows) =
      intentRows platform hash new (repairCells rows) := by
  induction rows generalizing old new with
  | nil => rfl
  | cons row rest ih =>
    obtain ⟨content, checked, outcome⟩ := row
    cases checked with
    | true =>
      simp [intentRows, ReplayedRow.pending, ih]
    | false =>
      cases intent : content.intent with
      | true =>
        simp [intentRows, ReplayedRow.pending, intent]
      | false =>
        simp [intentRows, ReplayedRow.pending, intent, ih]

variable {content : RowContent Document}

section

variable (intent : IsIntent content)

include intent

theorem resolve_intent (response err errCode : Bytes) (checksum : Option Checksum)
    (previous : Option Checksum) :
    resolveCallIntent platform hash { toRowContent := content, checksum := checksum }
        (completeEvent content.columns response err errCode) previous =
      storedRow platform hash (completeEvent content.columns response err errCode) previous := by
  obtain ⟨_, _, _, _, _, rfl⟩ := intent
  simp only [resolveCallIntent, storedRow, contentOf, mk.injEq, RowContent.mk.injEq,
    and_true]
  refine StoredEvent.ext rfl rfl rfl ?_ ?_ rfl
  · funext field
    cases field <;> rfl
  · funext field
    simp [completeEvent, intentColumns, columnsOf]

/-- A completed call writes no number. -/
theorem completed_numbers (response err errCode : Bytes) (field : NumberField) :
    (completeEvent content.columns response err errCode).number field = 0 := by
  obtain ⟨_, _, _, _, _, rfl⟩ := intent
  rfl

theorem completed_typed (response err errCode : Bytes) (field : NumberField) :
    Int64Range ((completeEvent content.columns response err errCode).number field) := by
  rw [completed_numbers intent]
  decide

theorem intent_eventType :
    content.columns.eventType = .call := by
  obtain ⟨_, _, _, _, _, rfl⟩ := intent
  rfl

theorem intent_load :
    content.load platform = content.columns := by
  obtain ⟨_, _, _, _, _, rfl⟩ := intent
  rfl

/-- A resolved call is stored so that it verifies exactly if the names of its service and its
operation are UTF-8. -/
theorem completed_storable_iff {overflow : Int} (response err errCode : Bytes) :
    Storable overflow (completeEvent content.columns response err errCode) ↔
      validUTF8 (content.columns.text .service) = true ∧
        validUTF8 (content.columns.text .op) = true := by
  have eventType : (completeEvent content.columns response err errCode).eventType = .call :=
    intent_eventType intent
  constructor
  · rintro ⟨_, texts⟩
    rw [eventType] at texts
    exact ⟨texts .service (by decide) (by decide), texts .op (by decide) (by decide)⟩
  · rintro ⟨service, operation⟩
    refine ⟨fun field rule member writes => ?_, fun field shadow raw => ?_⟩
    · rw [completed_numbers intent]
      exact survives_zero overflow
    · rw [eventType] at raw
      have named : field = .service ∨ field = .op := by
        revert shadow raw
        cases field <;> decide
      rcases named with rfl | rfl
      · exact service
      · exact operation

theorem completed_reads (response err errCode : Bytes) :
    platform.document
        ((contentOf platform (completeEvent content.columns response err errCode)).load platform) =
      platform.document (completeEvent content.columns response err errCode) := by
  rw [load_contentOf, document_loaded_iff platform (columnsOf_partialCopy _)
    (completed_typed intent response err errCode)]
  intro field rule member writes
  rw [completed_numbers intent]
  exact survives_zero _

end

/-- A replay leaves a chain.

Proof: by induction on the rows, for rows as they are stored and for rows that an earlier
resolution has already chained anew. -/
theorem replay_intentRows (rows : List (ReplayedRow Document))
    (intents : ∀ row ∈ rows, row.pending = true → IsIntent row.content) :
    (∀ previous, replayIntents platform hash previous (intentRows platform hash previous rows) =
        linkRows platform hash previous (settledCells platform false rows)) ∧
      ∀ previous, replayIntents platform hash previous
          (intentRows platform hash previous (repairCells rows)) =
        linkRows platform hash previous (settledCells platform true rows) := by
  induction rows with
  | nil => exact ⟨fun _ => by rw [intentRows, replayIntents]; rfl,
      fun _ => by rw [repairCells, intentRows, replayIntents]; rfl⟩
  | cons row rest ih =>
    obtain ⟨stored, repaired⟩ := ih fun row member => intents row (mem_cons_of_mem _ member)
    obtain ⟨content, checked, outcome⟩ := row
    cases pending : ReplayedRow.pending ⟨content, checked, outcome⟩ with
    | false =>
      have settled : content.intent = false ∨ checked = true := by
        simpa [ReplayedRow.pending, imp_iff_not_or] using pending
      constructor
      · intro previous
        rw [intentRows, replayIntents]
        rcases settled with ordinary | rfl
        · simp [ordinary, pending, stored]
        · simp [pending, stored]
      · intro previous
        simp [pending, intentRows, replayIntents, repaired]
    | true =>
      have intent := intents _ mem_cons_self pending
      obtain ⟨marked, rfl⟩ : content.intent = true ∧ checked = false := by
        simpa [ReplayedRow.pending] using pending
      have resolved (previous : Option Checksum) (response err errCode : Bytes) :
          resolveCallIntent platform hash { toRowContent := content, checksum := none }
              (completeEvent content.columns response err errCode) previous =
            { toRowContent :=
                contentOf platform (completeEvent content.columns response err errCode)
              checksum := some (computeEventChecksum platform hash
                ((contentOf platform (completeEvent content.columns response err errCode)).load
                  platform) previous) } := by
        rw [resolve_intent platform hash intent, storedRow, computeEventChecksum,
          computeEventChecksum, completed_reads platform intent]
      have here (previous : Option Checksum) (flag : Bool) :
          replayIntents platform hash previous
              (intentRows platform hash previous (⟨content, false, outcome⟩ :: rest)) =
            linkRows platform hash previous
              (settledCells platform flag (⟨content, false, outcome⟩ :: rest)) := by
        rw [intentRows, replayIntents]
        cases outcome with
        | ambiguous =>
          simp [marked, pending, stored]
        | resolved | notSent =>
          simp only [isPendingIntent, marked, pending, Option.isNone_none,
            Bool.and_self, Bool.false_eq_true, if_false, if_true, IntentOutcome.complete,
            intent_load platform intent, resolved, repair_intentRows, settledCells,
            linkRows, repaired]
      refine ⟨fun previous => here previous false, fun previous => ?_⟩
      rw [repairCells, if_pos pending]
      exact here previous true

theorem intentRows_content (rows : List (ReplayedRow Document)) (previous : Option Checksum) :
    (intentRows platform hash previous rows).map (fun pair => pair.1.toRowContent) =
      rows.map ReplayedRow.content := by
  induction rows generalizing previous with
  | nil => rfl
  | cons row rest ih => simp [intentRows, ih]

theorem persistEvents_content (events : List StoredEvent) (last : Option Checksum) :
    (persistEvents platform hash last events).map toRowContent =
      events.map (contentOf platform) := by
  induction events generalizing last with
  | nil => rfl
  | cons event rest ih => simp [persistEvents, storedRow, ih]

theorem persistEvents_chained {events : List StoredEvent}
    (reads : ∀ event ∈ events, platform.document ((contentOf platform event).load platform) =
      platform.document event) (last : Option Checksum) :
    Chained hash last ((persistEvents platform hash last events).map (link platform)) := by
  induction events generalizing last with
  | nil => trivial
  | cons event rest ih =>
    refine ⟨?_, ih (fun other member => reads other (mem_cons_of_mem _ member)) _⟩
    exact congrArg (hash · last) (reads event mem_cons_self)

end

variable {events : List StoredEvent} {last : Option (List (Option Document))}
  {content : RowContent Document} (platform : Platform Document)
  {rows : List (ReplayedRow Document)} {Checksum : Type}

theorem persistEvents_reads (chained : Chained spell last
      ((persistEvents platform spell last events).map (link platform))) :
    ∀ event ∈ events, platform.document ((contentOf platform event).load platform) =
      platform.document event := by
  induction events generalizing last with
  | nil => simp
  | cons event rest ih =>
    obtain ⟨first, later⟩ := chained
    rw [forall_mem_cons]
    exact ⟨(spell_injective _ _ _ _ first).1, ih later⟩

theorem completeEvent_empty (intent : IsIntent content) :
    completeEvent content.columns [] [] [] = content.columns := by
  obtain ⟨_, _, _, _, _, rfl⟩ := intent
  refine StoredEvent.ext rfl rfl rfl ?_ rfl ?_
  · funext field
    cases field <;> rfl
  · funext field
    simp [completeEvent, intentColumns]

/-- A call hashes like its announcement only if it has neither a response nor an error. -/
theorem completed_document_iff (intent : IsIntent content)
    (response err errCode : Bytes) (codes : err = [] → errCode = []) :
    platform.document (completeEvent content.columns response err errCode) =
        platform.document content.columns ↔
      response = [] ∧ err = [] := by
  have eventType := intent_eventType intent
  have vacant : content.columns.text .response = [] ∧ content.columns.text .err = [] := by
    obtain ⟨_, _, _, _, _, rfl⟩ := intent
    exact ⟨rfl, rfl⟩
  constructor
  · intro same
    have values := (platform.marshal_eq_iff _ _).mp same
    have responses : (PayloadKey.responseB64, base64 .response false) ∈
        payloadTable content.columns.eventType := by
      rw [eventType]
      decide
    have errors : (PayloadKey.error, text .err false) ∈
        payloadTable content.columns.eventType := by
      rw [eventType]
      decide
    have first := values .responseB64
    have second := values .error
    rw [payload_entry responses,
      @payload_entry (completeEvent content.columns response err errCode) _ _ responses] at first
    rw [payload_entry errors,
      @payload_entry (completeEvent content.columns response err errCode) _ _ errors] at second
    constructor
    · by_contra present
      simp [value, completeEvent, vacant.1, present] at first
    · by_contra present
      simp [value, completeEvent, vacant.2, present] at second
  · rintro ⟨rfl, rfl⟩
    rw [codes rfl, completeEvent_empty intent]

/-- A replay leaves the rows as they were hashed, and all of them with a checksum. -/
def Unchanged (repaired : Bool) (rows : List (ReplayedRow Document)) : Prop :=
  (∀ cell ∈ settledCells platform repaired rows, cell.2 = true) ∧
    (settledCells platform repaired rows).map (fun cell => platform.document (cell.1.load platform)) =
      rows.map fun row => platform.document (row.content.load platform)

/-- A replay leaves the rows as they were hashed, and all of them with a checksum, exactly if
every pending call turns out to have returned nothing and no row in front of the first of them
lacks a checksum. -/
theorem settled_iff (rows : List (ReplayedRow Document))
    (intents : ∀ row ∈ rows, row.pending = true → IsIntent row.content) (repaired : Bool) :
    Unchanged platform repaired rows ↔
      (∀ row ∈ rows, row.pending = true → row.outcome = .resolved []) ∧
        (repaired = true ∨
          ∀ row ∈ rows.takeWhile fun row => !row.pending, row.checked = true) := by
  unfold Unchanged
  induction rows generalizing repaired with
  | nil => simp
  | cons row rest ih =>
    have later := ih fun row member => intents row (mem_cons_of_mem _ member)
    cases pending : row.pending with
    | false =>
      simp only [settledCells, pending, Bool.false_eq_true, if_false, forall_mem_cons,
        map_cons, cons.injEq, true_and, takeWhile_cons, Bool.not_false,
        if_true, false_implies]
      rw [and_assoc, later]
      cases repaired <;> simp [and_left_comm]
    | true =>
      have intent := intents row mem_cons_self pending
      cases outcome : row.outcome with
      | ambiguous =>
        simp [pending, outcome]
      | resolved response =>
        simp only [settledCells, pending, outcome, if_true, IntentOutcome.complete,
          forall_mem_cons, map_cons, cons.injEq, true_and,
          completed_reads platform intent, intent_load platform intent,
          completed_document_iff platform intent response [] [] fun _ => rfl]
        rw [and_left_comm, later]
        simp [pending]
      | notSent =>
        have message : bytesOf ambiguityNotSentMessage ≠ [] := by decide +kernel
        simp only [settledCells, pending, outcome, if_true, IntentOutcome.complete,
          forall_mem_cons, map_cons, cons.injEq, true_and,
          completed_reads platform intent, intent_load platform intent,
          completed_document_iff platform intent [] _ (bytesOf "transient")
            fun empty => absurd empty message]
        simp [message]

section Session

variable (hash : ChainHash Document Checksum) (rows : List (ReplayedRow Document))

/-- The rows that a replay leaves of a history that verifies. -/
abbrev settledRows : List (EventRow Document Checksum) :=
  linkRows platform hash none (settledCells platform false rows)

/-- The session of a replay chains the events as they were loaded. -/
theorem replayedChecksum_intentRows :
    replayedChecksum platform hash ((intentRows platform hash none rows).map Prod.fst) =
      advance hash none (rows.map fun row => platform.document (row.content.load platform)) := by
  have contents := congrArg
    (map fun content => platform.document (RowContent.load platform content))
    (intentRows_content platform hash rows none)
  rw [replayedChecksum]
  congr 1
  simpa [map_map, Function.comp_def] using contents

theorem settled_documents :
    ((settledRows platform hash rows).map
        (link platform)).map Prod.fst =
      (settledCells platform false rows).map
        fun cell => platform.document (cell.1.load platform) := by
  have contents := congrArg
    (map fun content => platform.document (RowContent.load platform content))
    (linkRows_content platform hash none (settledCells platform false rows))
  simpa [map_map, Function.comp_def, link] using contents

theorem settled_checked :
    (∀ link ∈ (settledRows platform hash rows).map
        (EventRow.link platform), link.2 ≠ none) ↔
      ∀ cell ∈ settledCells platform false rows, cell.2 = true := by
  have marks := linkRows_checked platform hash none (settledCells platform false rows)
  have each : (∀ link ∈ (settledRows platform hash rows).map
      (EventRow.link platform), link.2 ≠ none) ↔
      ∀ mark ∈ (settledRows platform hash rows).map
        (fun row => row.checksum.isSome), mark = true := by
    simp [EventRow.link, Option.isSome_iff_ne_none]
  rw [each, marks]
  simp

/-- Where a replay leaves every row as it was hashed, its session remembers the last stored
checksum. -/
theorem tip_eq_replayedChecksum (unchanged : Unchanged platform false rows) :
    tip none ((settledRows platform hash rows).map
        (EventRow.link platform)) =
      replayedChecksum platform hash ((intentRows platform hash none rows).map Prod.fst) := by
  rw [replayedChecksum_intentRows, tip_eq_advance hash (linkRows_chained platform hash none _)
    ((settled_checked platform hash rows).mpr unchanged.1), settled_documents, unchanged.2]

end Session

/-- The session remembers the last stored checksum of the hash that spells only there. -/
theorem settled_of_tip_eq (rows : List (ReplayedRow Document))
    (same : tip none ((settledRows platform spell rows).map
        (EventRow.link platform)) =
      replayedChecksum platform spell ((intentRows platform spell none rows).map Prod.fst)) :
    Unchanged platform false rows := by
  rw [replayedChecksum_intentRows] at same
  obtain ⟨complete, equal⟩ := complete_of_tip_eq_advance (linkRows_chained platform spell none _)
    (by simp [linkRows_length, settledCells_length]) same
  exact ⟨(settled_checked platform spell rows).mp complete,
    (settled_documents platform spell rows).symm.trans equal⟩

/-- The row is pending and the replay finds out what became of the call. -/
def ReplayedRow.resolves (row : ReplayedRow Document) : Prop :=
  row.pending = true ∧ row.outcome ≠ .ambiguous

attribute [local simp] ReplayedRow.resolves

theorem pending_shadow (intent : IsIntent content) :
    ShadowMatches platform content := by
  obtain ⟨_, _, _, _, _, rfl⟩ := intent
  exact ⟨fun _ _ => rfl, fun _ _ => rfl⟩

theorem completed_shadow_iff (intent : IsIntent content) (response err errCode : Bytes) :
    ShadowMatches platform (contentOf platform (completeEvent content.columns response err errCode)) ↔
      validUTF8 (content.columns.text .service) = true ∧
        validUTF8 (content.columns.text .op) = true := by
  rw [← @completed_storable_iff _ _ intent platform.overflow response err errCode,
    ← storable_iff platform (completed_typed intent response err errCode)]
  simp [completed_reads platform intent]

/-- The columns of the rows that a replay leaves agree with their payloads exactly if those of
the other rows did and the names of every resolved call are UTF-8. -/
theorem settled_shadow_iff (rows : List (ReplayedRow Document))
    (intents : ∀ row ∈ rows, row.pending = true → IsIntent row.content) (repaired : Bool) :
    (∀ cell ∈ settledCells platform repaired rows, ShadowMatches platform cell.1) ↔
      (∀ row ∈ rows, row.pending = false → ShadowMatches platform row.content) ∧
        ∀ row ∈ rows, row.resolves →
          validUTF8 (row.content.columns.text .service) = true ∧
            validUTF8 (row.content.columns.text .op) = true := by
  induction rows generalizing repaired with
  | nil => simp
  | cons row rest ih =>
    have later := ih fun row member => intents row (mem_cons_of_mem _ member)
    cases pending : row.pending with
    | false =>
      have unresolved : ¬row.resolves := by simp [pending]
      simp only [settledCells, pending, unresolved, Bool.false_eq_true, if_false,
        forall_mem_cons, later, forall_const, false_implies, true_and, and_assoc]
    | true =>
      have intent := intents row mem_cons_self pending
      cases outcome : row.outcome with
      | ambiguous =>
        have unresolved : ¬row.resolves := by simp [outcome]
        simp only [settledCells, pending, outcome, unresolved, IntentOutcome.complete,
          if_true, forall_mem_cons, later, pending_shadow platform intent,
          reduceCtorEq, false_implies, true_and]
      | resolved | notSent =>
        have resolved : row.resolves := by simp [pending, outcome]
        simp only [settledCells, pending, outcome, resolved, IntentOutcome.complete,
          if_true, forall_mem_cons, later, completed_shadow_iff platform intent,
          reduceCtorEq, false_implies, true_and, forall_const, and_left_comm]

/-- A replay that resolves nothing leaves the rows as they are. -/
theorem settled_unresolved (unresolved : ∀ row ∈ rows, ¬row.resolves) :
    settledCells platform false rows = rows.map fun row => (row.content, row.checked) := by
  induction rows with
  | nil => rfl
  | cons row rest ih =>
    have later := ih fun row member => unresolved row (mem_cons_of_mem _ member)
    cases pending : row.pending with
    | false => simp [pending, later]
    | true =>
      have outcome : row.outcome = .ambiguous := by
        by_contra known
        exact unresolved row mem_cons_self ⟨pending, known⟩
      have unchecked : row.checked = false := by
        simp only [ReplayedRow.pending, Bool.and_eq_true, Bool.not_eq_true'] at pending
        exact pending.2
      simp [pending, outcome, unchecked, later]

theorem settled_some_checked (resolves : ∃ row ∈ rows, row.resolves) (repaired : Bool) :
    ∃ cell ∈ settledCells platform repaired rows, cell.2 = true := by
  induction rows generalizing repaired with
  | nil => simp at resolves
  | cons row rest ih =>
    rw [exists_mem_cons_iff] at resolves
    rw [settledCells]
    split
    · rename_i pending
      split
      · exact ⟨_, mem_cons_self, rfl⟩
      · rename_i none
        rcases resolves with ⟨_, known⟩ | later
        · revert none
          cases outcome : row.outcome <;> simp_all
        · obtain ⟨cell, member, checked⟩ := ih later false
          exact ⟨cell, mem_cons_of_mem _ member, checked⟩
    · rename_i settled
      rcases resolves with ⟨pending, _⟩ | later
      · exact absurd pending settled
      · obtain ⟨cell, member, checked⟩ := ih later repaired
        exact ⟨cell, mem_cons_of_mem _ member, checked⟩

theorem intentRows_rows (hash : ChainHash Document Checksum)
    (rows : List (ReplayedRow Document)) (previous : Option Checksum) :
    (intentRows platform hash previous rows).map Prod.fst =
      linkRows platform hash previous (rows.map fun row => (row.content, row.checked)) := by
  induction rows generalizing previous with
  | nil => rfl
  | cons row rest ih => simp [intentRows, ih]

theorem settled_rows_shadow_iff (hash : ChainHash Document Checksum)
    (cells : List (RowContent Document × Bool))
    (events : List StoredEvent) (last : Option Checksum) :
    (∀ row ∈ linkRows platform hash none cells ++ persistEvents platform hash last events,
        ShadowMatches platform row.toRowContent) ↔
      (∀ cell ∈ cells, ShadowMatches platform cell.1) ∧
        ∀ event ∈ events, ShadowMatches platform (contentOf platform event) := by
  have linked := forall_mem_map (f := toRowContent)
    (l := linkRows platform hash none cells) (P := ShadowMatches platform)
  have persisted := forall_mem_map (f := toRowContent)
    (l := persistEvents platform hash last events) (P := ShadowMatches platform)
  rw [linkRows_content, forall_mem_map] at linked
  rw [persistEvents_content, forall_mem_map] at persisted
  rw [forall_mem_append, ← linked, ← persisted]

/-- After a resolution or a new event the history has a checksum. -/
theorem settled_rows_checked (hash : ChainHash Document Checksum) {recorded : List StoredEvent}
    (last : Option Checksum) (active : recorded ≠ [] ∨ ∃ row ∈ rows, row.resolves) :
    ¬∀ row ∈ settledRows platform hash rows ++
        persistEvents platform hash last recorded, row.checksum = none := by
  intro unchecked
  rw [forall_mem_append] at unchecked
  rcases active with some | resolves
  · obtain ⟨event, rest, rfl⟩ := exists_cons_of_ne_nil some
    exact absurd (unchecked.2 _ mem_cons_self) (by simp [storedRow])
  · obtain ⟨cell, member, checked⟩ := @settled_some_checked _ platform _ resolves false
    have marks := linkRows_checked platform hash none (settledCells platform false rows)
    have marked : true ∈ (settledRows platform hash rows).map
        (fun row => row.checksum.isSome) := by
      rw [marks]
      exact mem_map.mpr ⟨cell, member, checked⟩
    obtain ⟨row, inside, isSome⟩ := mem_map.mp marked
    rw [unchecked.1 row inside] at isSome
    cases isSome

/-- The stored rows after a replay has met each pending row and its session has recorded
events. -/
def rowsAfterReplay (hash : ChainHash Document Checksum) (rows : List (ReplayedRow Document))
    (recorded : List StoredEvent) : List (EventRow Document Checksum) :=
  replayIntents platform hash none (intentRows platform hash none rows) ++
    persistEvents platform hash
      (replayedChecksum platform hash ((intentRows platform hash none rows).map Prod.fst)) recorded

/-- The rows verify after a replay, whatever the hash, exactly if

* where events are recorded, every pending call turns out to have returned nothing and no row in
  front of the first of them lacks a checksum,
* the names of the service and the operation of a resolved call are UTF-8,
* the recorded events are storable, and
* where the history had no checksum before and has one now, its columns agree with its payloads.

Proof: the replay leaves a chain. What is recorded continues the chain of the session, and the
hash that spells tells the two chains apart as soon as one row was hashed differently. -/
theorem intents_verify (rows : List (ReplayedRow Document)) (recorded : List StoredEvent)
    (intents : ∀ row ∈ rows, row.pending = true → IsIntent row.content)
    (verified : ∀ {Checksum : Type} (hash : ChainHash Document Checksum),
      VerifyWorkflowEvents platform hash ((intentRows platform hash none rows).map Prod.fst))
    (typed : ∀ event ∈ recorded, ∀ field, Int64Range (event.number field)) :
    (∀ {Checksum : Type} (hash : ChainHash Document Checksum),
        VerifyWorkflowEvents platform hash (rowsAfterReplay platform hash rows recorded)) ↔
      (recorded ≠ [] →
          (∀ row ∈ rows, row.pending = true → row.outcome = .resolved []) ∧
            ∀ row ∈ rows.takeWhile fun row => !row.pending, row.checked = true) ∧
        (∀ row ∈ rows, row.resolves →
          validUTF8 (row.content.columns.text .service) = true ∧
            validUTF8 (row.content.columns.text .op) = true) ∧
        (∀ event ∈ recorded, Storable platform.overflow event) ∧
        ((recorded ≠ [] ∨ ∃ row ∈ rows, row.resolves) →
          ∀ row ∈ rows, row.pending = false → ShadowMatches platform row.content) := by
  have left {Checksum : Type} (hash : ChainHash Document Checksum) :
      rowsAfterReplay platform hash rows recorded =
        linkRows platform hash none (settledCells platform false rows) ++
          persistEvents platform hash
            (replayedChecksum platform hash ((intentRows platform hash none rows).map Prod.fst))
            recorded := by
    rw [rowsAfterReplay, (replay_intentRows platform hash rows intents).1]
  have settled := settled_iff platform rows intents false
  have shadow := settled_shadow_iff platform rows intents false
  by_cases active : recorded ≠ [] ∨ ∃ row ∈ rows, row.resolves
  · constructor
    · intro verifies
      have here := verifies (spell : Document → Option (List (Option Document)) → _)
      rw [left] at here
      rcases here with unchecked | ⟨chained, shadows⟩
      · exact absurd unchecked (settled_rows_checked platform spell _ active)
      · rw [map_append, chained_append] at chained
        obtain ⟨cells, events⟩ := (settled_rows_shadow_iff ..).mp shadows
        obtain ⟨intact, names⟩ := shadow.mp cells
        refine ⟨fun some => ?_, names, fun event member => ?_, fun _ => intact⟩
        · obtain ⟨event, rest, rfl⟩ := exists_cons_of_ne_nil some
          -- The first event that is recorded tells whether the session remembers the right checksum.
          have same := (spell_injective _ _ _ _ chained.2.1).2
          simpa using settled.mp (settled_of_tip_eq platform rows same)
        · by_cases empty : recorded = []
          · simp [empty] at member
          · obtain ⟨first, rest, rfl⟩ := exists_cons_of_ne_nil empty
            have same := (spell_injective _ _ _ _ chained.2.1).2
            have later := chained.2
            rw [same] at later
            exact (storable_iff platform (typed event member)).mp
              ⟨persistEvents_reads platform later event member, events event member⟩
    · rintro ⟨chain, names, storable, intact⟩ Checksum hash
      have ready := fun event member =>
        (storable_iff platform (typed event member)).mpr (storable event member)
      rw [left]
      refine .inr ⟨?_, (settled_rows_shadow_iff ..).mpr
        ⟨shadow.mpr ⟨intact active, names⟩, fun event member => (ready event member).2⟩⟩
      rw [map_append, chained_append]
      refine ⟨linkRows_chained platform hash none _, ?_⟩
      by_cases empty : recorded = []
      · subst empty
        trivial
      · have unchanged := settled.mpr ⟨(chain empty).1, .inr (chain empty).2⟩
        rw [tip_eq_replayedChecksum platform hash rows unchanged]
        exact persistEvents_chained platform hash (fun event member => (ready event member).1) _
  · -- Nothing is resolved and nothing is recorded.
    obtain ⟨empty, unresolved⟩ := not_or.mp active
    rw [not_not] at empty
    subst empty
    have quiet : ∀ row ∈ rows, ¬row.resolves := by simpa using unresolved
    refine iff_of_true (fun hash => ?_) ⟨by simp, fun row member resolves => ?_, by simp, ?_⟩
    · rw [left, settled_unresolved platform quiet, ← intentRows_rows, persistEvents, append_nil]
      exact verified hash
    · exact absurd resolves (quiet row member)
    · exact fun some => absurd some active

/-- A call that was announced at the first step. -/
def announcedCall (outcome : IntentOutcome) : ReplayedRow Payload where
  content :=
    { columns := intentColumns 0 1000 (bytesOf "svc") (bytesOf "op") (bytesOf "req")
      payload := none
      intent := true }
  checked := false
  outcome := outcome

theorem announcedCall_verified (outcome : IntentOutcome)
    (hash : Payload → Option Checksum → Checksum) :
    VerifyWorkflowEvents plainPlatform hash
      ((intentRows plainPlatform hash none [announcedCall outcome]).map Prod.fst) := by
  refine .inl fun row member => ?_
  rw [mem_singleton.mp member]
  rfl

/-- Nobody can say what became of a call, the workflow goes on, and its next event is chained
to a row that has no checksum. -/
theorem event_after_ambiguous_call_fails :
    VerifyWorkflowEvents plainPlatform tally
        ((intentRows plainPlatform tally none [announcedCall .ambiguous]).map Prod.fst) ∧
      ¬VerifyWorkflowEvents plainPlatform tally
        (rowsAfterReplay plainPlatform tally [announcedCall .ambiguous]
          [(heartbeatEvent 1 "svc" "op").stored]) := by
  refine ⟨announcedCall_verified .ambiguous tally, fun verified => ?_⟩
  have chained := verified.chained
  rw [rowsAfterReplay, (replay_intentRows plainPlatform tally _ ?_).1] at chained
  · revert chained
    decide +kernel
  · intro row member _
    rw [mem_singleton.mp member]
    exact ⟨_, _, _, _, _, rfl⟩

theorem intents_verify_empty_response :
    VerifyWorkflowEvents plainPlatform tally
      (rowsAfterReplay plainPlatform tally [announcedCall (.resolved [])]
        [(heartbeatEvent 1 "svc" "op").stored]) := by
  refine (intents_verify plainPlatform [announcedCall (.resolved [])] _ ?_
    (fun hash => announcedCall_verified _ hash) ?_).mpr ⟨fun _ => ⟨?_, ?_⟩, ?_, ?_, ?_⟩ tally
  · intro row member _
    rw [mem_singleton.mp member]
    exact ⟨_, _, _, _, _, rfl⟩
  · intro event member
    rw [mem_singleton.mp member]
    exact heartbeat_typed 1 "svc" "op"
  · intro row member _
    rw [mem_singleton.mp member]
    rfl
  · simp [announcedCall, ReplayedRow.pending]
  · intro row member _
    rw [mem_singleton.mp member]
    decide +kernel
  · intro event member
    rw [mem_singleton.mp member]
    exact heartbeat_stored_storable _ _ "svc" "op" (by decide +kernel) (by decide +kernel)
  · intro _ row member settled
    rw [mem_singleton.mp member] at settled
    cases settled

/-! ## One resolution -/

section Resolve

variable (hash : ChainHash Document Checksum) (earlier : List (EventRow Document Checksum))
  {row : EventRow Document Checksum} (later : List (EventRow Document Checksum × IntentOutcome))

/-- The checksum of the row in front of a row. -/
def previousStoredChecksum : Option Checksum := earlier.getLast?.bind EventRow.checksum

/-- The stored rows after one of them is completed. -/
def rowsAfterResolve (row : EventRow Document Checksum) (completed : StoredEvent) :
    List (EventRow Document Checksum) :=
  let resolved := resolveCallIntent platform hash row completed (previousStoredChecksum earlier)
  earlier ++ resolved ::
    (repairChainAfterResolve platform hash resolved.checksum later).map Prod.fst

theorem previousStoredChecksum_eq_tip :
    previousStoredChecksum earlier = tip none (earlier.map (link platform)) := by
  induction earlier using reverseRecOn with
  | nil => rfl
  | append_singleton front last _ =>
    rw [map_append, tip_append, previousStoredChecksum, getLast?_concat]
    rfl

/-- Chaining rows anew changes nothing but checksums, and leaves a chain. -/
theorem repair_chained (chain previous : Option Checksum)
    (chained : Chained hash previous (later.map fun pair => pair.1.link platform)) :
    let repaired := repairChainAfterResolve platform hash chain later
    repaired.map (fun pair => pair.1.toRowContent) = later.map (fun pair => pair.1.toRowContent) ∧
      Chained hash chain (repaired.map fun pair => pair.1.link platform) := by
  induction later generalizing chain previous with
  | nil => exact ⟨rfl, trivial⟩
  | cons pair rest ih =>
    obtain ⟨⟨content, checksum⟩, outcome⟩ := pair
    have behind : Chained hash checksum (rest.map fun pair => pair.1.link platform) := by
      cases checksum with
      | none => exact chained
      | some checksum => exact chained.2
    rw [repairChainAfterResolve]
    split
    · rename_i pending
      obtain rfl : checksum = none := by simpa using (Bool.and_eq_true_iff.mp pending).2
      exact ⟨rfl, behind⟩
    · obtain ⟨contents, again⟩ := ih _ _ behind
      exact ⟨congrArg (content :: ·) contents, rfl, again⟩

/-- A history that verifies, and in which a pending call is resolved, keeps what its other rows
hold. It verifies again exactly if the names of the call are UTF-8 and, where it had no checksum
before, the columns of its other rows agree with their payloads. -/
theorem resolved_verifies_iff
    (verified : VerifyWorkflowEvents platform hash (earlier ++ row :: later.map Prod.fst))
    (intent : IsIntent row.toRowContent) (pending : row.checksum = none)
    (response err errCode : Bytes) :
    let rows := rowsAfterResolve platform hash earlier later row
      (completeEvent row.columns response err errCode)
    let others := earlier ++ later.map Prod.fst
    (∃ content, rows.map toRowContent = earlier.map toRowContent ++
        content :: later.map fun pair => pair.1.toRowContent) ∧
      (VerifyWorkflowEvents platform hash rows ↔
        (validUTF8 (row.columns.text .service) = true ∧
          validUTF8 (row.columns.text .op) = true) ∧
        ((∀ other ∈ others, other.checksum = none) →
          ∀ other ∈ others, ShadowMatches platform other.toRowContent)) := by
  intro rows others
  have chained := verified.chained
  rw [map_append, chained_append, map_cons, link, pending, map_map] at chained
  obtain ⟨front, behind⟩ := chained
  obtain ⟨content, checksum⟩ := row
  set completed := completeEvent content.columns response err errCode
  obtain ⟨contents, repaired⟩ := repair_chained platform hash later
    (some (computeEventChecksum platform hash completed (previousStoredChecksum earlier))) none behind
  have left : rows = earlier ++ storedRow platform hash completed (previousStoredChecksum earlier) ::
      (repairChainAfterResolve platform hash (some (computeEventChecksum platform hash completed
        (previousStoredChecksum earlier))) later).map Prod.fst := by
    simp only [rows, rowsAfterResolve]
    rw [resolve_intent platform hash intent]
    rfl
  have held : rows.map toRowContent = earlier.map toRowContent ++
      contentOf platform completed :: later.map fun pair => pair.1.toRowContent := by
    rw [left, map_append, map_cons, map_map]
    exact congrArg (_ ++ contentOf platform completed :: ·) contents
  have shadows : (∀ row ∈ rows, ShadowMatches platform row.toRowContent) ↔
      ShadowMatches platform (contentOf platform completed) ∧
        ∀ other ∈ others, ShadowMatches platform other.toRowContent := by
    rw [← forall_mem_map (f := toRowContent) (P := ShadowMatches platform), held]
    simp only [others, forall_mem_append, forall_mem_cons, forall_mem_map]
    exact and_left_comm
  refine ⟨⟨_, held⟩, ?_⟩
  rw [← completed_shadow_iff platform intent response err errCode]
  constructor
  · rintro (unchecked | ⟨_, matched⟩)
    · cases unchecked (storedRow platform hash completed (previousStoredChecksum earlier))
        (by rw [left]; simp)
    · exact ⟨(shadows.mp matched).1, fun _ => (shadows.mp matched).2⟩
  · rintro ⟨own, legacy⟩
    refine .inr ⟨?_, shadows.mpr ⟨own, ?_⟩⟩
    · rw [left, map_append, chained_append, map_cons, map_map,
        ← previousStoredChecksum_eq_tip]
      exact ⟨front, congrArg (hash · _) (completed_reads platform intent response err errCode),
        repaired⟩
    · rcases verified with unchecked | ⟨_, matched⟩
      · exact legacy fun other member => unchecked other (by
          simp only [others, mem_append, mem_cons] at member ⊢; tauto)
      · exact fun other member => matched other (by
          simp only [others, mem_append, mem_cons] at member ⊢; tauto)

end Resolve

/-- The row of a call that was announced at the first step. -/
def announcedRow : EventRow Payload Nat where
  toRowContent := (announcedCall .ambiguous).content
  checksum := none

/-- The column of a row without a checksum was altered, and nobody looks at it as long as the
history has no checksum at all. -/
theorem altered_column_found_after_resolve :
    ∃ altered : EventRow Payload Nat,
      VerifyWorkflowEvents plainPlatform tally [altered, announcedRow] ∧
      ¬VerifyWorkflowEvents plainPlatform tally
        (rowsAfterResolve plainPlatform tally [altered] [] announcedRow
          (completeEvent announcedRow.columns (bytesOf "done") [] [])) := by
  refine ⟨⟨⟨namedEvent .call, some (plainPlatform.document announcedRow.columns), false⟩, none⟩,
    .inl (by simp [announcedRow]), ?_⟩
  rintro (unchecked | ⟨_, shadows⟩)
  · cases unchecked _ (mem_cons_of_mem _ mem_cons_self)
  · exact absurd ((shadows _ mem_cons_self).texts .op (by decide)) (by decide +kernel)

theorem resolved_verifies_iff_announced :
    VerifyWorkflowEvents plainPlatform tally
      (rowsAfterResolve plainPlatform tally [] [] announcedRow
        (completeEvent announcedRow.columns (bytesOf "done") [] [])) :=
  (resolved_verifies_iff plainPlatform tally [] [] (.inl (by simp [announcedRow]))
    ⟨_, _, _, _, _, rfl⟩ rfl _ _ _).2.mpr ⟨by decide +kernel, by simp⟩

end Cleat
