import Cleat.Durable.Chain
import Cleat.GuestRuns
import Cleat.Payload

/-!
# Event rows and their verification

A row of the history holds some fields of an event in columns, all that the payload carries in
a document, and a checksum. A history is loaded by reading the columns and then whatever the
payload has to say, and it is verified by computing the checksums of the loaded events once
more, each from its document and the checksum of the row before. A row without a checksum
interrupts the chain. Where checksums are stored, the columns that are not encrypted are
compared with the payload as well.

Encryption is left out: a loaded event is decrypted, and the checksum is that of the
plaintext.
-/
namespace Cleat

open Durable Encoding List PayloadValue

attribute [local simp] PayloadValue.written

variable {Document Checksum : Type}

/-- The texts that have a column of their own. -/
def columnTexts : List TextField :=
  [.service, .op, .request, .response, .err, .signalNames, .signalName, .signalPayload,
    .deferDescription, .deferID, .childName, .childInput, .runID, .newInput, .pluginName,
    .pluginFunc, .pluginInput, .pluginOutput, .pluginError, .promiseName, .promiseID,
    .promiseResult, .promiseError]

def columnNumbers : List NumberField := [.durationMs, .timeoutMs]

/-- The columns of an event. -/
def columnsOf (event : StoredEvent) : StoredEvent where
  step := event.step
  eventType := event.eventType
  timestampMs := event.timestampMs
  text field := if field ∈ columnTexts then event.text field else []
  number field := if field ∈ columnNumbers then event.number field else 0

theorem columnsOf_partialCopy (event : StoredEvent) : PartialCopy (columnsOf event) event where
  eventType := rfl
  text field := by
    by_cases column : field ∈ columnTexts
    · exact .inr (if_pos column)
    · exact .inl (if_neg column)
  number field := by
    by_cases column : field ∈ columnNumbers
    · exact .inr (if_pos column)
    · exact .inl (if_neg column)
  flag _ := .inl rfl

/-- What a row holds apart from its checksum. A row that announces a call has no payload
until the call is completed. -/
structure RowContent (Document : Type) where
  columns : StoredEvent
  payload : Option Document
  intent : Bool := false

/-- A row of the history. -/
structure EventRow (Document Checksum : Type) extends RowContent Document where
  checksum : Option Checksum

/-- A call that was announced and never completed. -/
def EventRow.isPendingIntent (row : EventRow Document Checksum) : Bool :=
  row.intent && row.checksum.isNone

/-- The event that is loaded from a row. -/
def RowContent.load (platform : Platform Document) (content : RowContent Document) : StoredEvent :=
  match content.payload with
  | none => content.columns
  | some document => populateFromPayload platform content.columns document

/-- What is stored of an event. -/
def contentOf (platform : Platform Document) (event : StoredEvent) : RowContent Document where
  columns := columnsOf event
  payload := some (platform.document event)

/-- The row that is written for an event, chained to a previous checksum. -/
def storedRow (platform : Platform Document) (hash : ChainHash Document Checksum)
    (event : StoredEvent) (previous : Option Checksum) : EventRow Document Checksum where
  toRowContent := contentOf platform event
  checksum := some (computeEventChecksum platform hash event previous)

/-- The columns that are compared with the payload. -/
def shadowTexts : List TextField :=
  [.service, .op, .signalNames, .signalName, .deferDescription, .deferID, .childName, .runID,
    .pluginName, .pluginFunc, .promiseName, .promiseID]

def shadowNumbers : List NumberField := [.durationMs, .timeoutMs]

/-- The columns of a row agree with its payload. -/
structure ShadowMatches (platform : Platform Document) (content : RowContent Document) : Prop where
  texts : ∀ field ∈ shadowTexts, content.columns.text field = (content.load platform).text field
  numbers : ∀ field ∈ shadowNumbers,
    content.columns.number field = (content.load platform).number field

/-- The loaded document of a row and its checksum. -/
def EventRow.link (platform : Platform Document) (row : EventRow Document Checksum) :
    Document × Option Checksum :=
  (platform.document (row.load platform), row.checksum)

attribute [local simp] EventRow.link

/-- The verification of a history succeeds. A history without any checksum is not looked at. -/
def VerifyWorkflowEvents (platform : Platform Document) (hash : ChainHash Document Checksum)
    (rows : List (EventRow Document Checksum)) : Prop :=
  (∀ row ∈ rows, row.checksum = none) ∨
    Chained hash none (rows.map (EventRow.link platform)) ∧
      ∀ row ∈ rows, ShadowMatches platform row.toRowContent

variable {hash : ChainHash Document Checksum} {platform : Platform Document}
  {rows : List (EventRow Document Checksum)} {copy event : StoredEvent} {field : NumberField}
  {overflow : Int}

theorem chained_of_unchecked (unchecked : ∀ row ∈ rows, row.checksum = none)
    (previous : Option Checksum) : Chained hash previous (rows.map (EventRow.link platform)) := by
  induction rows generalizing previous with
  | nil => trivial
  | cons row rest ih =>
    have none := unchecked row mem_cons_self
    simp only [map_cons, EventRow.link, none, Chained]
    exact ih (fun other member => unchecked other (mem_cons_of_mem _ member)) _

theorem VerifyWorkflowEvents.chained (verified : VerifyWorkflowEvents platform hash rows) :
    Chained hash none (rows.map (EventRow.link platform)) := by
  rcases verified with unchecked | ⟨chained, _⟩
  · exact chained_of_unchecked unchecked none
  · exact chained

/-- An event that verifies once it is stored: the numbers it writes survive as doubles, and
the texts that are compared are UTF-8. -/
structure Storable (overflow : Int) (event : StoredEvent) : Prop where
  numbers : ∀ field rule, (field, rule) ∈ payloadNumbers event.eventType →
    rule.writes (event.number field) = true → Survives overflow (event.number field)
  texts : ∀ field ∈ shadowTexts, field ∈ rawTexts event.eventType →
    validUTF8 (event.text field) = true

theorem load_contentOf (platform : Platform Document) (event : StoredEvent) :
    (contentOf platform event).load platform =
      populate platform.overflow (columnsOf event) (readPayload event) := by
  exact populateFromPayload_document platform _ event

/-- A text with a column keeps it when it is loaded exactly if it is in base64 or UTF-8. -/
theorem shadow_text_iff {field : TextField} (column : field ∈ columnTexts) :
    (columnsOf event).text field =
        (populate overflow (columnsOf event) (readPayload event)).text field ↔
      (field ∈ rawTexts event.eventType → validUTF8 (event.text field) = true) := by
  have copy := columnsOf_partialCopy event
  have stored : (columnsOf event).text field = event.text field := if_pos column
  by_cases raw : field ∈ rawTexts event.eventType
  · obtain ⟨key, always, entry⟩ := exists_of_rawTexts raw
    rw [loaded_raw copy entry, stored, eq_comm, toValidUTF8_eq_self_iff]
    simp [raw]
  · by_cases encoded : field ∈ encodedTexts event.eventType
    · obtain ⟨key, always, entry⟩ := exists_of_encodedTexts encoded
      rw [loaded_encoded copy entry]
      simp [stored, raw]
    · rw [loaded_absent copy raw encoded]
      simp [raw]

theorem shadow_number_of_survives (typed : ∀ field, Int64Range (event.number field))
    (column : field ∈ columnNumbers)
    (survives : ∀ rule, (field, rule) ∈ payloadNumbers event.eventType →
      rule.writes (event.number field) = true → Survives overflow (event.number field)) :
    (columnsOf event).number field =
      (populate overflow (columnsOf event) (readPayload event)).number field := by
  have copy := columnsOf_partialCopy event
  have stored : (columnsOf event).number field = event.number field := if_pos column
  by_cases carried : field ∈ (payloadNumbers event.eventType).map Prod.fst
  · obtain ⟨⟨_, rule⟩, member, rfl⟩ := mem_map.mp carried
    obtain ⟨key, entry⟩ := mem_payloadNumbers.mp member
    rw [loaded_number copy entry, stored]
    split
    · rename_i writes
      exact ((toInt64_float64_eq_iff (typed _)).mpr (survives rule member writes)).symm
    · rfl
  · rw [unloaded_number copy carried]

/-- A row verifies on its own, with the document it was stored with and with its columns,
exactly if its event is storable. -/
theorem storable_iff (platform : Platform Document)
    (typed : ∀ field, Int64Range (event.number field)) :
    (platform.document ((contentOf platform event).load platform) = platform.document event ∧
        ShadowMatches platform (contentOf platform event)) ↔
      Storable platform.overflow event := by
  have columns (field : TextField) (shadow : field ∈ shadowTexts) : field ∈ columnTexts := by
    revert field
    decide
  rw [load_contentOf, document_loaded_iff platform (columnsOf_partialCopy event) typed]
  constructor
  · rintro ⟨numbers, shadow⟩
    refine ⟨numbers, fun field member => ?_⟩
    have same := shadow.texts field member
    rw [load_contentOf] at same
    exact (shadow_text_iff (columns field member)).mp same
  · rintro ⟨numbers, texts⟩
    refine ⟨numbers, ⟨fun field member => ?_, fun field member => ?_⟩⟩
    · rw [load_contentOf]
      exact (shadow_text_iff (columns field member)).mpr (texts field member)
    · rw [load_contentOf]
      exact shadow_number_of_survives typed member fun rule => numbers field rule

/-- Two events agree on everything that the payload of their type carries: on texts up to the
bytes that JSON replaces, on numbers that are written, and on flags. -/
structure SamePayload (event other : StoredEvent) : Prop where
  texts : ∀ field ∈ rawTexts event.eventType,
    toValidUTF8 (event.text field) = toValidUTF8 (other.text field)
  encoded : ∀ field ∈ encodedTexts event.eventType, event.text field = other.text field
  numbers : ∀ field rule, (field, rule) ∈ payloadNumbers event.eventType →
    event.number field = other.number field ∨
      rule.writes (event.number field) = false ∧ rule.writes (other.number field) = false
  flags : ∀ field ∈ payloadFlags event.eventType, event.flag field = other.flag field

theorem optional_eq {α β : Type} {f : α → β} {p q : Prop} [Decidable p] [Decidable q] {one other : α}
    (same : (if p then some one else none).map f = (if q then some other else none).map f) :
    p ∧ q ∧ f one = f other ∨ ¬p ∧ ¬q := by
  split_ifs at same <;> simp_all

/-- A document determines what the payload carries, given the type. -/
theorem samePayload_of_document {other : StoredEvent} (sameType : event.eventType = other.eventType)
    (same : platform.document event = platform.document other) : SamePayload event other := by
  have values : ∀ key source, (key, source) ∈ payloadTable event.eventType →
      (source.value event).map written =
        (source.value other).map written := by
    intro key source entry
    have here := (platform.marshal_eq_iff _ _).mp same key
    rw [payload_entry entry, payload_entry (sameType ▸ entry)] at here
    exact here
  constructor
  · intro field raw
    obtain ⟨key, always, entry⟩ := exists_of_rawTexts raw
    rcases optional_eq (values key _ entry) with ⟨_, _, same⟩ | ⟨empty, empty'⟩
    · simpa using same
    · simp_all
  · intro field member
    obtain ⟨key, always, entry⟩ := exists_of_encodedTexts member
    rcases optional_eq (values key _ entry) with ⟨_, _, same⟩ | ⟨empty, empty'⟩
    · simp only [written, encodeBase64_written, text.injEq] at same
      simpa [decodeBase64_encodeBase64] using congrArg decodeBase64 same
    · simp_all
  · intro field rule member
    obtain ⟨key, entry⟩ := mem_payloadNumbers.mp member
    rcases optional_eq (values key _ entry) with ⟨_, _, same⟩ | unwritten
    · exact .inl (by simpa using same)
    · exact .inr (by simpa using unwritten)
  · intro field member
    obtain ⟨key, entry⟩ := exists_of_payloadFlags member
    rcases optional_eq (values key _ entry) with ⟨_, _, same⟩ | unset <;> simp_all

/-- Two events agree on what no payload carries: on their type, step and time, on the texts and
flags that the arm of their type leaves out, on texts with bytes that JSON replaces, and on the
numbers that are not written. -/
structure SameUncovered (event other : StoredEvent) : Prop where
  step : event.step = other.step
  eventType : event.eventType = other.eventType
  timestampMs : event.timestampMs = other.timestampMs
  texts : ∀ field ∉ encodedTexts event.eventType, (field ∈ rawTexts event.eventType →
    (validUTF8 (event.text field) && validUTF8 (other.text field)) = false) →
      event.text field = other.text field
  numbers : ∀ field, (∀ rule, (field, rule) ∈ payloadNumbers event.eventType →
    rule.writes (event.number field) = false) → event.number field = other.number field
  flags : ∀ field ∉ payloadFlags event.eventType, event.flag field = other.flag field

/-- Events with the same document are the same exactly if they agree on what it does not carry. -/
theorem eq_iff_sameUncovered {other : StoredEvent}
    (document : platform.document event = platform.document other) :
    event = other ↔ SameUncovered event other := by
  constructor
  · rintro rfl
    exact ⟨rfl, rfl, rfl, fun _ _ _ => rfl, fun _ _ => rfl, fun _ _ => rfl⟩
  · intro uncovered
    have covered := samePayload_of_document uncovered.eventType document
    refine StoredEvent.ext uncovered.step uncovered.eventType uncovered.timestampMs ?_ ?_ ?_
    · funext field
      by_cases encoded : field ∈ encodedTexts event.eventType
      · exact covered.encoded field encoded
      · by_cases whole : field ∈ rawTexts event.eventType ∧
            (validUTF8 (event.text field) && validUTF8 (other.text field)) = true
        · obtain ⟨raw, valid⟩ := whole
          obtain ⟨own, others⟩ := Bool.and_eq_true_iff.mp valid
          rw [← toValidUTF8_eq_self_iff.mpr own, ← toValidUTF8_eq_self_iff.mpr others]
          exact covered.texts field raw
        · exact uncovered.texts field encoded fun raw =>
            Bool.eq_false_iff.mpr fun valid => whole ⟨raw, valid⟩
    · funext field
      by_cases omitted : ∀ rule, (field, rule) ∈ payloadNumbers event.eventType →
          rule.writes (event.number field) = false
      · exact uncovered.numbers field omitted
      · push Not at omitted
        obtain ⟨rule, member, written⟩ := omitted
        rcases covered.numbers field rule member with same | ⟨unwritten, _⟩
        · exact same
        · exact absurd unwritten written
    · funext field
      by_cases carried : field ∈ payloadFlags event.eventType
      · exact covered.flags field carried
      · exact uncovered.flags field carried

/-- The row of a storable event verifies. -/
theorem verify_single (platform : Platform Document) (hash : ChainHash Document Checksum)
    (typed : ∀ field, Int64Range (event.number field)) (storable : Storable platform.overflow event) :
    VerifyWorkflowEvents platform hash [storedRow platform hash event none] := by
  obtain ⟨document, shadow⟩ := (storable_iff platform typed).mpr storable
  refine .inr ⟨⟨?_, trivial⟩, ?_⟩
  · exact congrArg (hash · none) document
  · intro row member
    rw [mem_singleton.mp member]
    exact shadow

/-- An event that only names a service and an operation. -/
def namedEvent (eventType : EventType) : StoredEvent where
  step := 0
  eventType := eventType
  text field := if field = .service ∨ field = .op then bytesOf "svc" else []

theorem namedEvent_typed (eventType : EventType) (field : NumberField) :
    Int64Range ((namedEvent eventType).number field) := by
  change Int64Range 0
  decide

theorem namedEvent_storable (overflow : Int) {eventType : EventType}
    (kind : eventType = .heartbeat ∨ eventType = .durableSend) :
    Storable overflow (namedEvent eventType) := by
  rcases kind with rfl | rfl
  · exact ⟨fun _ _ member => (nomatch member), by decide +kernel⟩
  · exact ⟨fun _ _ member => (nomatch member), by decide +kernel⟩

/-- Two histories of one row verify and have the same checksum. -/
def Alike (row other : EventRow Payload (List (Option Payload))) : Prop :=
  VerifyWorkflowEvents plainPlatform spell [row] ∧
    VerifyWorkflowEvents plainPlatform spell [other] ∧
    row.checksum ≠ none ∧ row.checksum = other.checksum

/-- The rows of two events with the same document cannot be told apart by their checksums. -/
theorem stored_alike {event other : StoredEvent}
    (typed : ∀ field, Int64Range (event.number field)) (storable : Storable (-2 ^ 63) event)
    (typed' : ∀ field, Int64Range (other.number field)) (storable' : Storable (-2 ^ 63) other)
    (document : plainPlatform.document event = plainPlatform.document other) :
    Alike (storedRow plainPlatform spell event none) (storedRow plainPlatform spell other none) := by
  refine ⟨verify_single _ _ typed storable, verify_single _ _ typed' storable', by simp [storedRow], ?_⟩
  simp only [storedRow, computeEventChecksum, document]

/-- A wait for any child that has returned. -/
def anyChildEvent (response : String) : StoredEvent where
  step := 0
  eventType := .awaitAnyChild
  text field := if field = .response then bytesOf response else []

theorem anyChild_storable (response : String) : Storable (-2 ^ 63) (anyChildEvent response) where
  numbers _ _ member := nomatch member
  texts _ _ raw := nomatch raw

end Cleat
