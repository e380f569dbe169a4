import Cleat.Durable.Machine
import Mathlib.Data.List.Nodup

/-!
# The dispatch of events to subscriptions

A published event is stored and starts one workflow for each enabled subscription of its type
whose filter accepts it. A background sweep picks up the stored events whose dispatch is not
marked as processed and goes over the subscriptions again, until it marks the event as completed
or as a dead letter.

Starting a workflow is idempotent for its key, which names the event and the subscription; a start
may fail, also after the run was made. What Go's JSON package and the filter language do with texts
are parameters. Times are in seconds.
-/
namespace Cleat.Triggers

open Durable List

section Tables

abbrev EventID := Nat

abbrev SubscriptionID := Nat

structure Subscription where
  id : SubscriptionID
  tenantID : Nat
  eventType : String
  defName : String
  entryPoint : String
  inputTemplate : String
  filterExpr : String
  enabled : Bool
  maxRetries : Int
deriving DecidableEq

inductive EventStatus where
  | pending | completed | deadLetter
deriving DecidableEq

/-- A row of `ingested_events`, as far as the dispatch reads and writes it. -/
structure IngestedEvent where
  id : EventID
  tenantID : Nat
  eventType : String
  eventData : String
  receivedAt : Nat
  dispatchProcessed : Bool := false
  status : EventStatus := .pending
  errorMsg : Option String := none
  retryCount : Int := 0
deriving DecidableEq

/-- The key of a start, `eventtrigger:<event>:<subscription>`. -/
structure StartKey where
  event : EventID
  subscription : SubscriptionID
deriving DecidableEq

structure StartRequest where
  defName : String
  input : String
  idempotencyKey : StartKey
  tenantID : Nat
  entryPoint : String
deriving DecidableEq

/-- The tables, and the runs that were started. -/
structure TriggerStore where
  subscriptions : List Subscription
  events : List IngestedEvent := []
  runs : List StartRequest := []

/-- How a start ends. A start that is lost has made the run and returns an error. -/
inductive StartAnswer where
  | started | refused | lost
deriving DecidableEq

/-- What one pass over the subscriptions meets: how many rows are read before the query fails, if
it does, whether the query that counts the subscriptions fails, and how the starts end. -/
structure Pass where
  readError : Option (Nat × String) := none
  countFails : Bool := false
  answers : SubscriptionID → StartAnswer

/-- What is done with JSON texts. `unmarshalError` says why a text cannot be unmarshalled into a
map. -/
structure Codec (Fields : Type) where
  valid : String → Bool
  unmarshalError : String → Option String
  decodeJSONObject : String → Option Fields
  empty : Fields
  overlay : Fields → Fields → Fields
  marshal : Fields → String
  evaluateFilter : String → Fields → Except String Bool

end Tables

section Dispatching

variable {Fields : Type} (codec : Codec Fields)

/-- The filter of a subscription accepts the event. Data that is no object and a filter that
cannot be evaluated are only logged. -/
def Subscription.accepts (sub : Subscription) (eventData : String) : Bool :=
  if sub.filterExpr = "" ∨ sub.filterExpr = "true" then true
  else
    match codec.decodeJSONObject eventData with
    | none => false
    | some fields =>
      match codec.evaluateFilter sub.filterExpr fields with
      | .error _ => false
      | .ok accepted => accepted

/-- The input of a run: the event's data over the template. A template that is no object is
ignored. -/
def mergeInputAndTemplate (template eventData : String) : Option String :=
  (codec.decodeJSONObject eventData).map fun overlay =>
    codec.marshal (codec.overlay ((codec.decodeJSONObject template).getD codec.empty) overlay)

/-- A start with a key that has a run returns that run. -/
def startRun (runs : List StartRequest) (request : StartRequest) : List StartRequest :=
  if runs.any (·.idempotencyKey = request.idempotencyKey) then runs else runs ++ [request]

/-- The request for one subscription, if its filter accepts the event and the input can be
built. -/
def Subscription.request (sub : Subscription) (event : IngestedEvent) : Option StartRequest :=
  if sub.accepts codec event.eventData then
    (mergeInputAndTemplate codec sub.inputTemplate event.eventData).map fun input =>
      { defName := sub.defName, input, idempotencyKey := ⟨event.id, sub.id⟩
        tenantID := event.tenantID, entryPoint := sub.entryPoint }
  else none

/-- One subscription: the runs, and the number of workflows started in this pass. -/
def dispatch (pass : Pass) (event : IngestedEvent) (before : List StartRequest × Nat)
    (sub : Subscription) : List StartRequest × Nat :=
  match sub.request codec event with
  | none => before
  | some request =>
    match pass.answers sub.id with
    | .started => (startRun before.1 request, before.2 + 1)
    | .lost => (startRun before.1 request, before.2)
    | .refused => before

/-- The enabled subscriptions of a tenant for a type. -/
def TriggerStore.subscribed (store : TriggerStore) (tenantID : Nat) (eventType : String) :
    List Subscription :=
  store.subscriptions.filter fun sub =>
    sub.tenantID = tenantID && sub.eventType = eventType && sub.enabled

/-- The rows of subscriptions that a pass reads. -/
def Pass.read (pass : Pass) (subs : List Subscription) : List Subscription :=
  match pass.readError with
  | none => subs
  | some (count, _) => subs.take count

/-- A pass over the subscriptions of an event: the runs, the number of workflows started, and the
error of the query. -/
def triggerMatchingWorkflows (pass : Pass) (event : IngestedEvent) (store : TriggerStore) :
    List StartRequest × Nat × Option String :=
  let result := (pass.read (store.subscribed event.tenantID event.eventType)).foldl
    (dispatch codec pass event) (store.runs, 0)
  (result.1, result.2, pass.readError.map (·.2))

/-- An update of the row with an id. -/
def TriggerStore.updateEvent (store : TriggerStore) (id : EventID)
    (change : IngestedEvent → IngestedEvent) : TriggerStore :=
  { store with events := store.events.map fun row => if row.id = id then change row else row }

/-- Storing an event and its first pass. An event whose id is stored is a duplicate. -/
def publishEvent (pass : Pass) (now : Nat) (id : EventID) (tenantID : Nat)
    (eventType eventData : String) (store : TriggerStore) : Except String Nat × TriggerStore :=
  let data := if eventData = "" then "\x7b\x7d" else eventData
  if !codec.valid data then
    (.error "event-triggers: publish: event data is not valid JSON", store)
  else if store.events.any (·.id = id) then (.ok 0, store)
  else
    let event : IngestedEvent := { id, tenantID, eventType, eventData := data, receivedAt := now }
    let stored := { store with events := store.events ++ [event] }
    let result := triggerMatchingWorkflows codec pass event stored
    let ran := { stored with runs := result.1 }
    match result.2.2 with
    | none => (.ok result.2.1, ran)
    | some reason =>
      (.ok result.2.1,
        ran.updateEvent id fun row =>
          { row with errorMsg := some ("failed to query subscriptions: " ++ reason) })

/-- The retries that the subscriptions of an event's type allow, enabled or not. -/
def TriggerStore.maxRetries (store : TriggerStore) (event : IngestedEvent) : Int :=
  let limits := (store.subscriptions.filter fun sub =>
    sub.tenantID = event.tenantID && sub.eventType = event.eventType).map (·.maxRetries)
  let most := limits.max?.getD 3
  if most < 1 then 1 else most

/-- A failed retry: another one will follow, or the event is a dead letter. -/
def markRetryFailed (store : TriggerStore) (event : IngestedEvent) (message : String) :
    TriggerStore :=
  let retries := event.retryCount + 1
  store.updateEvent event.id fun row =>
    if retries ≥ store.maxRetries event then
      { row with
        retryCount := retries, errorMsg := some message, status := .deadLetter
        dispatchProcessed := true }
    else { row with retryCount := retries, errorMsg := some message, status := .pending }

/-- The number of enabled subscriptions, as a sweep sees it: the error of the query is dropped, and
the number is then zero. -/
def Pass.subCount (pass : Pass) (subs : List Subscription) : Nat :=
  if pass.countFails then 0 else subs.length

/-- One unprocessed event in a sweep. -/
def retryEvent (passes : EventID → Pass) (store : TriggerStore) (event : IngestedEvent) :
    TriggerStore :=
  match codec.unmarshalError event.eventData with
  | some reason =>
    store.updateEvent event.id fun row =>
      { row with
        dispatchProcessed := true, status := .deadLetter
        errorMsg := some ("invalid event data: " ++ reason) }
  | none =>
    let result := triggerMatchingWorkflows codec (passes event.id) event store
    let ran := { store with runs := result.1 }
    match result.2.2 with
    | some reason => markRetryFailed ran event ("subscription query failed: " ++ reason)
    | none =>
      if result.2.1 > 0 then
        ran.updateEvent event.id fun row =>
          { row with dispatchProcessed := true, status := .completed, errorMsg := none }
      else if (passes event.id).subCount (store.subscribed event.tenantID event.eventType) = 0
      then
        ran.updateEvent event.id fun row =>
          { row with
            dispatchProcessed := true, status := .completed
            errorMsg := some "no matching subscriptions" }
      else markRetryFailed ran event "no workflows started (filters or dispatch failures)"

/-- The events that a sweep picks up: the first hundred unprocessed ones that are at least ten
seconds old. -/
def TriggerStore.unprocessed (store : TriggerStore) (now : Nat) : List IngestedEvent :=
  (store.events.filter fun event =>
    !event.dispatchProcessed && event.receivedAt + 10 < now).take 100

/-- One sweep. -/
def processBatch (passes : EventID → Pass) (now : Nat) (store : TriggerStore) : TriggerStore :=
  (store.unprocessed now).foldl (retryEvent codec passes) store

end Dispatching

section Runs

variable {runs : List StartRequest} {request : StartRequest} {key : StartKey}

/-- The number of runs that were started with a key. -/
def runsOf (runs : List StartRequest) (key : StartKey) : Nat :=
  runs.countP (·.idempotencyKey = key)

/-- No key has two runs. -/
def Once (runs : List StartRequest) : Prop := ∀ key, runsOf runs key ≤ 1

theorem runsOf_startRun :
    runsOf (startRun runs request) key =
      if request.idempotencyKey = key ∧ runsOf runs key = 0 then 1 else runsOf runs key := by
  unfold startRun
  by_cases known : runs.any (·.idempotencyKey = request.idempotencyKey) = true
  · rw [if_pos known, if_neg]
    rintro ⟨rfl, none⟩
    obtain ⟨run, member, same⟩ := any_eq_true.mp known
    exact countP_eq_zero.mp none run member same
  · rw [if_neg known]
    by_cases same : request.idempotencyKey = key
    · subst same
      have none : runsOf runs request.idempotencyKey = 0 := by
        apply countP_eq_zero.mpr
        intro run member held
        exact known (any_eq_true.mpr ⟨run, member, held⟩)
      simp only [runsOf] at none ⊢
      simp [countP_append, none]
    · simp [runsOf, countP_append, same]

theorem Once.startRun (once : Once runs) : Once (startRun runs request) := by
  intro key
  rw [runsOf_startRun]
  split
  · exact Nat.le_refl 1
  · exact once key

variable {Fields : Type} {codec : Codec Fields} {pass : Pass} {event : IngestedEvent}
  {subs : List Subscription} {count : Nat}

/-- The pass makes a run for the subscription if there is none. -/
def Subscription.reached (codec : Codec Fields) (pass : Pass) (event : IngestedEvent)
    (sub : Subscription) : Bool :=
  (sub.request codec event).isSome && pass.answers sub.id ≠ .refused

/-- The pass counts the subscription as started. -/
def Subscription.counted (codec : Codec Fields) (pass : Pass) (event : IngestedEvent)
    (sub : Subscription) : Bool :=
  (sub.request codec event).isSome && pass.answers sub.id = .started

/-- What one subscription does to the runs and to the count. -/
theorem dispatch_eq (codec : Codec Fields) (pass : Pass) (event : IngestedEvent)
    (runs : List StartRequest) (count : Nat) (sub : Subscription) :
    (∃ request, sub.request codec event = some request ∧
        request.idempotencyKey = ⟨event.id, sub.id⟩ ∧ sub.reached codec pass event = true ∧
        dispatch codec pass event (runs, count) sub =
          (startRun runs request, count + (sub.counted codec pass event).toNat)) ∨
      sub.reached codec pass event = false ∧ sub.counted codec pass event = false ∧
        dispatch codec pass event (runs, count) sub = (runs, count) := by
  unfold dispatch Subscription.reached Subscription.counted
  cases made : sub.request codec event with
  | none => exact .inr ⟨rfl, rfl, rfl⟩
  | some request =>
    have keyed : request.idempotencyKey = ⟨event.id, sub.id⟩ := by
      unfold Subscription.request at made
      split at made
      · obtain ⟨input, _, rfl⟩ := Option.map_eq_some_iff.mp made
        rfl
      · cases made
    cases answered : pass.answers sub.id with
    | started => exact .inl ⟨request, rfl, keyed, rfl, rfl⟩
    | lost => exact .inl ⟨request, rfl, keyed, rfl, rfl⟩
    | refused => exact .inr ⟨rfl, rfl, rfl⟩

/-- A pass starts what it reaches, once for each key, and leaves the other keys alone. -/
theorem foldl_dispatch (once : Once runs) :
    Once (subs.foldl (dispatch codec pass event) (runs, count)).1 ∧
      (∀ key, 0 < runsOf (subs.foldl (dispatch codec pass event) (runs, count)).1 key ↔
        0 < runsOf runs key ∨
          ∃ sub ∈ subs, sub.reached codec pass event = true ∧ key = ⟨event.id, sub.id⟩) ∧
      (0 < (subs.foldl (dispatch codec pass event) (runs, count)).2 ↔
        0 < count ∨ ∃ sub ∈ subs, sub.counted codec pass event = true) := by
  induction subs generalizing runs count with
  | nil => simpa using once
  | cons sub rest ih =>
    rw [foldl_cons]
    obtain ⟨request, _, keyed, reached, same⟩ | ⟨unreached, uncounted, same⟩ :=
      dispatch_eq codec pass event runs count sub
    · rw [same]
      obtain ⟨still, keys, counts⟩ := @ih (startRun runs request)
        (count + (sub.counted codec pass event).toNat) once.startRun
      refine ⟨still, fun key => ?_, ?_⟩
      · rw [keys, runsOf_startRun, keyed]
        split <;> grind
      · rw [counts]
        cases counted : sub.counted codec pass event <;> simp [counted]
    · rw [same]
      obtain ⟨still, keys, counts⟩ := @ih runs count once
      refine ⟨still, fun key => ?_, ?_⟩
      · rw [keys]
        simp [unreached]
      · rw [counts]
        simp [uncounted]

variable {store : TriggerStore}

/-- What a pass over the subscriptions does. -/
theorem triggerMatchingWorkflows_spec (once : Once store.runs) :
    Once (triggerMatchingWorkflows codec pass event store).1 ∧
      (∀ key, 0 < runsOf (triggerMatchingWorkflows codec pass event store).1 key ↔
        0 < runsOf store.runs key ∨
          ∃ sub ∈ pass.read (store.subscribed event.tenantID event.eventType),
            sub.reached codec pass event = true ∧ key = ⟨event.id, sub.id⟩) ∧
      (0 < (triggerMatchingWorkflows codec pass event store).2.1 ↔
        ∃ sub ∈ pass.read (store.subscribed event.tenantID event.eventType),
          sub.counted codec pass event = true) := by
  obtain ⟨still, keys, counts⟩ := @foldl_dispatch store.runs _ codec pass event
    (pass.read (store.subscribed event.tenantID event.eventType)) 0 once
  exact ⟨still, keys, counts.trans (by simp)⟩

theorem runsOf_triggerMatchingWorkflows_of_ne (once : Once store.runs) (other : key.event ≠ event.id) :
    runsOf (triggerMatchingWorkflows codec pass event store).1 key = runsOf store.runs key := by
  obtain ⟨still, keys, _⟩ := @triggerMatchingWorkflows_spec _ codec pass event store once
  have iff : 0 < runsOf (triggerMatchingWorkflows codec pass event store).1 key ↔
      0 < runsOf store.runs key := by
    rw [keys]
    apply or_iff_left
    rintro ⟨sub, _, _, rfl⟩
    exact other rfl
  have before := once key
  have after := still key
  omega

end Runs

section Completeness

variable {Fields : Type} (codec : Codec Fields)

/-- The keys of the tables, and that starts are idempotent. -/
structure TriggerStore.Sound (store : TriggerStore) : Prop where
  events : (store.events.map (·.id)).Nodup
  subscriptions : (store.subscriptions.map (·.id)).Nodup
  once : Once store.runs

/-- If the event's dispatch is marked as completed, a run was started exactly once for every
subscription whose filter accepts the event. -/
def TriggerStore.Serves (store : TriggerStore) (event : IngestedEvent) : Prop :=
  event.dispatchProcessed = true → event.status = .completed →
    ∀ sub ∈ store.subscribed event.tenantID event.eventType,
      sub.accepts codec event.eventData = true → runsOf store.runs ⟨event.id, sub.id⟩ = 1

/-- A pass starts no workflow and can count the subscriptions, or it leaves no subscription without
a run: each one whose filter accepts the event has a run already, or its input can be built and its
start is not refused. -/
def Pass.balanced (pass : Pass) (store : TriggerStore) (event : IngestedEvent) : Bool :=
  let subs := store.subscribed event.tenantID event.eventType
  (codec.unmarshalError event.eventData).isSome || pass.readError.isSome ||
    (!pass.countFails && subs.all fun sub => !sub.counted codec pass event) ||
    subs.all fun sub => !sub.accepts codec event.eventData ||
      0 < runsOf store.runs ⟨event.id, sub.id⟩ || sub.reached codec pass event

/-- The event is marked as completed by a pass. -/
def Pass.completes (pass : Pass) (store : TriggerStore) (event : IngestedEvent) : Bool :=
  let subs := store.subscribed event.tenantID event.eventType
  (codec.unmarshalError event.eventData).isNone && pass.readError.isNone &&
    (subs.any (fun sub => sub.counted codec pass event) || pass.countFails || subs.isEmpty)

attribute [local simp] Pass.completes

/-- The runs after an event of a sweep. -/
def Pass.runsAfter (pass : Pass) (store : TriggerStore) (event : IngestedEvent) :
    List StartRequest :=
  if (codec.unmarshalError event.eventData).isSome then store.runs
  else (triggerMatchingWorkflows codec pass event store).1

/-- A change of a row that leaves its event alone. -/
def Keeps (change : IngestedEvent → IngestedEvent) : Prop :=
  ∀ row, (change row).id = row.id ∧ (change row).tenantID = row.tenantID ∧
    (change row).eventType = row.eventType ∧ (change row).eventData = row.eventData

variable {codec} {pass : Pass} {passes : EventID → Pass} {store : TriggerStore}
  {event : IngestedEvent}

theorem markRetryFailed_eq (store : TriggerStore) (event : IngestedEvent) (message : String) :
    ∃ change, Keeps change ∧ (∀ row, (change row).status ≠ .completed) ∧
      markRetryFailed store event message = store.updateEvent event.id change := by
  refine ⟨_, ?_, ?_, rfl⟩
  · intro row
    split <;> exact ⟨rfl, rfl, rfl, rfl⟩
  · intro row
    split <;> nofun

/-- A pass without errors completes the event if it has started something or has found nothing to
start. -/
theorem completes_iff (once : Once store.runs) (text : codec.unmarshalError event.eventData = none)
    (read : (triggerMatchingWorkflows codec pass event store).2.2 = none) :
    pass.completes codec store event = true ↔
      0 < (triggerMatchingWorkflows codec pass event store).2.1 ∨
        pass.subCount (store.subscribed event.tenantID event.eventType) = 0 := by
  have read : pass.readError = none := by simpa [triggerMatchingWorkflows] using read
  rw [(triggerMatchingWorkflows_spec once).2.2]
  cases counting : pass.countFails <;>
    simp [Pass.subCount, Pass.read, text, read, counting]

/-- What a sweep makes of one event. -/
theorem retryEvent_eq (codec : Codec Fields) (passes : EventID → Pass) (event : IngestedEvent)
    (once : Once store.runs) :
    ∃ change, Keeps change ∧
      (∀ row, ((change row).dispatchProcessed = true ∧ (change row).status = .completed) ↔
        (passes event.id).completes codec store event = true) ∧
      retryEvent codec passes store event =
        ({ store with runs := (passes event.id).runsAfter codec store event } :
          TriggerStore).updateEvent event.id change := by
  have ran (text : codec.unmarshalError event.eventData = none) :
      (passes event.id).runsAfter codec store event =
        (triggerMatchingWorkflows codec (passes event.id) event store).1 := by
    simp [Pass.runsAfter, text]
  fun_cases retryEvent codec passes store event with
  | case1 reason text =>
    refine ⟨_, ?_, ?_, congrArg (TriggerStore.updateEvent · _ _) ?_⟩
    · exact fun row => ⟨rfl, rfl, rfl, rfl⟩
    · simp [text]
    · simp [Pass.runsAfter, text]
  | case2 text result stored reason failed =>
    rw [ran text]
    obtain ⟨change, keeps, incomplete, same⟩ := markRetryFailed_eq stored event
      ("subscription query failed: " ++ reason)
    refine ⟨change, keeps, fun row => ?_, same⟩
    have unread : (passes event.id).readError ≠ none := by
      rintro read
      simp [result, triggerMatchingWorkflows, read] at failed
    simp [incomplete row, unread]
  | case3 text result stored read started =>
    rw [ran text]
    refine ⟨_, ?_, fun row => ?_, rfl⟩
    · exact fun row => ⟨rfl, rfl, rfl, rfl⟩
    · simpa using (completes_iff once text read).mpr (.inl started)
  | case4 text result stored read unstarted empty =>
    rw [ran text]
    refine ⟨_, ?_, fun row => ?_, rfl⟩
    · exact fun row => ⟨rfl, rfl, rfl, rfl⟩
    · simpa using (completes_iff once text read).mpr (.inr empty)
  | case5 text result stored read unstarted occupied =>
    rw [ran text]
    obtain ⟨change, keeps, incomplete, same⟩ := markRetryFailed_eq stored event
      "no workflows started (filters or dispatch failures)"
    refine ⟨change, keeps, fun row => ?_, same⟩
    rw [completes_iff once text read]
    exact iff_of_false (fun both => incomplete row both.2) (not_or_intro unstarted occupied)

/-- The runs after an event of a sweep: no key has two, and only keys of the event are new. -/
theorem runsAfter_spec (once : Once store.runs) :
    Once (pass.runsAfter codec store event) ∧
      ∀ key, 0 < runsOf (pass.runsAfter codec store event) key ↔
        0 < runsOf store.runs key ∨
          codec.unmarshalError event.eventData = none ∧
            ∃ sub ∈ pass.read (store.subscribed event.tenantID event.eventType),
              sub.reached codec pass event = true ∧ key = ⟨event.id, sub.id⟩ := by
  unfold Pass.runsAfter
  cases text : codec.unmarshalError event.eventData with
  | some reason => simpa using once
  | none =>
    obtain ⟨still, keys, _⟩ := @triggerMatchingWorkflows_spec _ codec pass event store once
    simpa using ⟨still, keys⟩

theorem runsOf_runsAfter_of_ne (once : Once store.runs) {key : StartKey}
    (other : key.event ≠ event.id) :
    runsOf (pass.runsAfter codec store event) key = runsOf store.runs key := by
  unfold Pass.runsAfter
  split
  · rfl
  · exact runsOf_triggerMatchingWorkflows_of_ne once other

/-- After a sweep has handled an event, the event has all its runs or is not marked as completed
exactly if the pass was balanced. -/
theorem serves_iff_balanced (sound : store.Sound) (after : TriggerStore) {row : IngestedEvent}
    (subscriptions : after.subscriptions = store.subscriptions)
    (runs : after.runs = pass.runsAfter codec store event)
    (id : row.id = event.id) (tenantID : row.tenantID = event.tenantID)
    (eventType : row.eventType = event.eventType) (eventData : row.eventData = event.eventData)
    (completed : (row.dispatchProcessed = true ∧ row.status = .completed) ↔
      pass.completes codec store event = true) :
    after.Serves codec row ↔ pass.balanced codec store event = true := by
  obtain ⟨still, keys⟩ := @runsAfter_spec _ codec pass store event sound.once
  have exact : ∀ key, runsOf (pass.runsAfter codec store event) key = 1 ↔
      0 < runsOf (pass.runsAfter codec store event) key := by
    intro key
    have most := still key
    omega
  have subscribed : after.subscribed event.tenantID event.eventType =
      store.subscribed event.tenantID event.eventType := by
    simp [TriggerStore.subscribed, subscriptions]
  have distinct : ∀ sub ∈ store.subscribed event.tenantID event.eventType,
      ∀ sub' ∈ store.subscribed event.tenantID event.eventType, sub.id = sub'.id → sub = sub' := by
    intro sub member sub' member'
    exact inj_on_of_nodup_map sound.subscriptions (mem_of_mem_filter member)
      (mem_of_mem_filter member')
  unfold TriggerStore.Serves
  rw [← and_imp, completed, id, tenantID, eventType, eventData, runs, subscribed]
  cases text : codec.unmarshalError event.eventData with
  | some reason => simp [Pass.balanced, text]
  | none =>
    cases failed : pass.readError with
    | some read => simp [Pass.balanced, failed]
    | none =>
      -- The whole table is read, so a run is missing exactly where no start reached it.
      have served : ∀ sub ∈ store.subscribed event.tenantID event.eventType,
          (runsOf (pass.runsAfter codec store event) ⟨event.id, sub.id⟩ = 1 ↔
            0 < runsOf store.runs ⟨event.id, sub.id⟩ ∨ sub.reached codec pass event = true) := by
        intro sub member
        rw [exact, keys]
        simp only [text, true_and, Pass.read, failed, StartKey.mk.injEq]
        refine or_congr_right ⟨?_, fun reached => ⟨sub, member, reached, rfl⟩⟩
        rintro ⟨sub', member', reached, same⟩
        rwa [distinct sub member sub' member' same]
      by_cases quiet : (!pass.countFails && (store.subscribed event.tenantID
          event.eventType).all fun sub => !sub.counted codec pass event) = true
      · have balanced : pass.balanced codec store event = true := by
          simp only [Pass.balanced, quiet, Bool.or_true, Bool.true_or]
        simp only [balanced, iff_true]
        intro completes sub member
        simp only [Bool.and_eq_true, Bool.not_eq_true', all_eq_true] at quiet
        have empty : store.subscribed event.tenantID event.eventType = [] := by
          have uncounted : ¬ ∃ sub ∈ store.subscribed event.tenantID event.eventType,
              sub.counted codec pass event = true := by
            simpa using quiet.2
          simpa [text, failed, uncounted, quiet.1] using completes
        rw [empty] at member
        cases member
      · have completes : pass.completes codec store event = true := by
          cases counting : pass.countFails with
          | true => simp [text, failed, counting]
          | false =>
            simp only [counting, Bool.not_false, Bool.true_and, all_eq_true,
              Bool.not_eq_true', not_forall, Bool.not_eq_false, exists_prop] at quiet
            simpa [text, failed, counting] using .inl quiet
        simp only [completes, true_imp_iff, Pass.balanced, text, failed, quiet]
        simp only [Option.isSome_none, Bool.false_or, Bool.or_eq_true, all_eq_true,
          Bool.not_eq_true', decide_eq_true_eq]
        refine forall₂_congr fun sub member => ?_
        rw [served sub member]
        cases sub.accepts codec event.eventData <;> simp

/-- What is said about another event depends only on the runs of that event. -/
theorem serves_congr (pass : Pass) {before after : TriggerStore} {row : IngestedEvent}
    (subscriptions : after.subscriptions = before.subscriptions)
    (runs : ∀ sub, runsOf after.runs ⟨row.id, sub⟩ = runsOf before.runs ⟨row.id, sub⟩) :
    (after.Serves codec row ↔ before.Serves codec row) ∧
      pass.balanced codec after row = pass.balanced codec before row := by
  simp only [TriggerStore.Serves, Pass.balanced, TriggerStore.subscribed, subscriptions, runs,
    and_self]

variable (codec)

/-- Every event that is marked as completed has its runs. -/
def TriggerStore.Complete (store : TriggerStore) : Prop :=
  ∀ event ∈ store.events, store.Serves codec event

variable {codec}

theorem map_id_updateEvent {change : IngestedEvent → IngestedEvent} (keeps : Keeps change)
    (id : EventID) : (store.updateEvent id change).events.map (·.id) = store.events.map (·.id) := by
  simp only [TriggerStore.updateEvent, map_map]
  apply map_congr_left
  intro row _
  simp only [Function.comp_apply]
  split
  · exact (keeps row).1
  · rfl

theorem Sound.retryEvent (sound : store.Sound) : (retryEvent codec passes store event).Sound := by
  obtain ⟨change, keeps, _, same⟩ := retryEvent_eq codec passes event sound.once
  rw [same]
  constructor
  · rw [map_id_updateEvent keeps]
    exact sound.events
  · exact sound.subscriptions
  · exact (runsAfter_spec sound.once).1

/-- One event of a sweep, in a store that also holds the other ones. -/
theorem retryEvent_frame (sound : store.Sound) (member : event ∈ store.events) :
    (retryEvent codec passes store event).subscriptions = store.subscriptions ∧
      (∀ key : StartKey, key.event ≠ event.id →
        runsOf (retryEvent codec passes store event).runs key = runsOf store.runs key) ∧
      (∀ row, row.id ≠ event.id →
        (row ∈ (retryEvent codec passes store event).events ↔ row ∈ store.events)) ∧
      ((∀ row ∈ (retryEvent codec passes store event).events, row.id = event.id →
          (retryEvent codec passes store event).Serves codec row) ↔
        (passes event.id).balanced codec store event = true) := by
  obtain ⟨change, keeps, completed, same⟩ :=
    retryEvent_eq codec passes event sound.once
  rw [same]
  have only : ∀ row ∈ store.events, row.id = event.id → row = event := by
    intro row member'
    exact inj_on_of_nodup_map sound.events member' member
  refine ⟨rfl, fun key => runsOf_runsAfter_of_ne sound.once, ?_, ?_⟩
  · intro row other
    simp only [TriggerStore.updateEvent, mem_map]
    constructor
    · rintro ⟨row', member', rfl⟩
      by_cases here : row'.id = event.id
      · rw [if_pos here, (keeps row').1] at other
        exact absurd here other
      · rwa [if_neg here]
    · intro member'
      exact ⟨row, member', if_neg other⟩
  · have changed : change event ∈ (({ store with
        runs := (passes event.id).runsAfter codec store event } : TriggerStore).updateEvent
          event.id change).events :=
      mem_map.mpr ⟨event, member, if_pos rfl⟩
    obtain ⟨id, tenantID, eventType, eventData⟩ := keeps event
    rw [← serves_iff_balanced sound (({ store with
        runs := (passes event.id).runsAfter codec store event } : TriggerStore).updateEvent
          event.id change) rfl rfl id tenantID eventType eventData (completed event)]
    constructor
    · intro all
      exact all _ changed id
    · intro served row updated here
      obtain ⟨row', member', rfl⟩ := mem_map.mp updated
      by_cases there : row'.id = event.id
      · rw [if_pos there, only row' member' there]
        exact served
      · rw [if_neg there] at here
        exact absurd here there

/-- The events of a batch, one after the other. Proof: by induction on the batch. The event at its
head is served exactly if its pass is balanced; the others do not see the change. -/
theorem complete_foldl {rows : List IngestedEvent} (sound : store.Sound)
    (members : ∀ row ∈ rows, row ∈ store.events) (distinct : (rows.map (·.id)).Nodup) :
    (rows.foldl (retryEvent codec passes) store).Sound ∧
      ((rows.foldl (retryEvent codec passes) store).Complete codec ↔
        (∀ row ∈ store.events, row.id ∉ rows.map (·.id) → store.Serves codec row) ∧
          ∀ row ∈ rows, (passes row.id).balanced codec store row = true) := by
  induction rows generalizing store with
  | nil => simpa [TriggerStore.Complete] using sound
  | cons event rest ih =>
    rw [map_cons, nodup_cons] at distinct
    obtain ⟨subscriptions, runs, others, own⟩ := @retryEvent_frame _ codec passes store event sound
      (members event mem_cons_self)
    have apart : ∀ row ∈ rest, row.id ≠ event.id := by
      intro row member same
      exact distinct.1 (mem_map.mpr ⟨row, member, same⟩)
    obtain ⟨still, complete⟩ := ih (@Sound.retryEvent _ codec passes store event sound)
      (fun row member => (others row (apart row member)).mpr
        (members row (mem_cons_of_mem _ member))) distinct.2
    refine ⟨still, complete.trans ?_⟩
    have same : ∀ row : IngestedEvent, row.id ≠ event.id → ∀ pass : Pass,
        ((retryEvent codec passes store event).Serves codec row ↔ store.Serves codec row) ∧
          pass.balanced codec (retryEvent codec passes store event) row =
            pass.balanced codec store row :=
      fun row other pass => serves_congr pass subscriptions fun sub => runs ⟨row.id, sub⟩ other
    rw [forall_mem_cons, ← own]
    constructor
    · rintro ⟨served, balanced⟩
      refine ⟨?_, ?_, ?_⟩
      · intro row member apart'
        simp only [map_cons, mem_cons, not_or] at apart'
        exact ((same row apart'.1 (passes row.id)).1).mp
          (served row ((others row apart'.1).mpr member) apart'.2)
      · intro row member here
        exact served row member (by rw [here]; exact distinct.1)
      · intro row member
        rw [← (same row (apart row member) _).2]
        exact balanced row member
    · rintro ⟨served, here, balanced⟩
      constructor
      · intro row member apart'
        by_cases first : row.id = event.id
        · exact here row member first
        · apply ((same row first (passes row.id)).1).mpr
          apply served row ((others row first).mp member)
          simp only [map_cons, mem_cons, not_or]
          exact ⟨first, apart'⟩
      · intro row member
        rw [(same row (apart row member) _).2]
        exact balanced row member

/-- A sweep of a complete store leaves a complete store exactly if its passes are balanced. -/
theorem complete_processBatch {now : Nat} (sound : store.Sound) (complete : store.Complete codec) :
    (processBatch codec passes now store).Sound ∧
      ((processBatch codec passes now store).Complete codec ↔
        ∀ row ∈ store.unprocessed now, (passes row.id).balanced codec store row = true) := by
  have sub : (store.unprocessed now).Sublist store.events :=
    (take_sublist _ _).trans filter_sublist
  obtain ⟨still, iff⟩ := @complete_foldl _ codec passes store (store.unprocessed now) sound
    (fun row member => sub.subset member) (sound.events.sublist (sub.map _))
  exact ⟨still, iff.trans (and_iff_right fun row member _ => complete row member)⟩

/-- A publication changes nothing, or it adds an unprocessed event and makes a pass for it. -/
theorem publishEvent_cases (now : Nat) (id : EventID) (tenantID : Nat)
    (eventType eventData : String) :
    (publishEvent codec pass now id tenantID eventType eventData store).2 = store ∨
      ∃ event row : IngestedEvent, ∃ stored : TriggerStore,
        row.id = event.id ∧ row.dispatchProcessed = false ∧
        (∀ old ∈ store.events, old.id ≠ event.id) ∧ stored.runs = store.runs ∧
        (publishEvent codec pass now id tenantID eventType eventData store).2 =
          { store with
            events := store.events ++ [row]
            runs := (triggerMatchingWorkflows codec pass event stored).1 } := by
  unfold publishEvent
  generalize (if eventData = "" then "\x7b\x7d" else eventData) = data
  dsimp only
  by_cases invalid : (!codec.valid data) = true
  · rw [if_pos invalid]
    exact .inl rfl
  by_cases known : store.events.any (·.id = id) = true
  · rw [if_neg invalid, if_pos known]
    exact .inl rfl
  rw [if_neg invalid, if_neg known]
  have fresh : ∀ old ∈ store.events, old.id ≠ id := by simpa using known
  right
  let event : IngestedEvent := { id, tenantID, eventType, eventData := data, receivedAt := now }
  refine ⟨event, ?_⟩
  cases (triggerMatchingWorkflows codec pass event
    { store with events := store.events ++ [event] }).2.2 with
  | none => exact ⟨event, _, rfl, rfl, fresh, rfl, rfl⟩
  | some reason =>
    refine ⟨{ event with errorMsg := some ("failed to query subscriptions: " ++ reason) },
      { store with events := store.events ++ [event] }, rfl, rfl, fresh, rfl, ?_⟩
    have others : store.events.map (fun row => if row.id = id then
        { row with errorMsg := some ("failed to query subscriptions: " ++ reason) } else row) =
          store.events :=
      (map_congr_left fun row member => if_neg (fresh row member)).trans (map_id' _)
    simp only [TriggerStore.updateEvent, map_append, others, map_singleton, if_true]
    rfl

/-- Storing an event marks nothing as completed. -/
theorem complete_publishEvent {now : Nat} {id : EventID} {tenantID : Nat}
    {eventType eventData : String} (sound : store.Sound) (complete : store.Complete codec) :
    (publishEvent codec pass now id tenantID eventType eventData store).2.Sound ∧
      (publishEvent codec pass now id tenantID eventType eventData store).2.Complete codec := by
  obtain same | ⟨event, row, stored, here, unprocessed, fresh, runs, same⟩ :=
    @publishEvent_cases _ codec pass store now id tenantID eventType eventData
  · rw [same]
    exact ⟨sound, complete⟩
  · rw [same]
    have once : Once stored.runs := by
      rw [runs]
      exact sound.once
    constructor
    · refine ⟨?_, sound.subscriptions, (triggerMatchingWorkflows_spec once).1⟩
      rw [map_append, map_singleton, here, ← concat_eq_append]
      apply sound.events.concat
      intro member
      obtain ⟨old, member', held⟩ := mem_map.mp member
      exact fresh old member' held
    · intro old member
      rcases mem_append.mp member with old' | new
      · have kept : ∀ sub, runsOf (triggerMatchingWorkflows codec pass event stored).1
            ⟨old.id, sub⟩ = runsOf store.runs ⟨old.id, sub⟩ := by
          intro sub
          rw [← runs]
          exact runsOf_triggerMatchingWorkflows_of_ne once (fresh old old')
        exact (@serves_congr _ codec pass store _ old (by rfl) kept).1.mpr (complete old old')
      · rw [mem_singleton.mp new]
        intro processed
        rw [unprocessed] at processed
        cases processed

end Completeness

section Sequences

variable {Fields : Type} (codec : Codec Fields)

/-- Events are published, and sweeps are made. -/
inductive TriggerAction where
  | publish (pass : Pass) (now : Nat) (id : EventID) (tenantID : Nat) (eventType eventData : String)
  | sweep (passes : EventID → Pass) (now : Nat)

def TriggerStore.step (store : TriggerStore) : TriggerAction → TriggerStore
  | .publish pass now id tenantID eventType eventData =>
    (publishEvent codec pass now id tenantID eventType eventData store).2
  | .sweep passes now => processBatch codec passes now store

/-- The passes of a sweep are balanced. -/
def TriggerStore.meets (store : TriggerStore) : TriggerAction → Bool
  | .publish .. => true
  | .sweep passes now =>
    (store.unprocessed now).all fun row => (passes row.id).balanced codec store row

variable {codec}

theorem complete_step {store : TriggerStore} {action : TriggerAction} (sound : store.Sound)
    (complete : store.Complete codec) :
    (store.step codec action).Sound ∧
      ((store.step codec action).Complete codec ↔ store.meets codec action = true) := by
  cases action with
  | publish pass now id tenantID eventType eventData =>
    obtain ⟨still, complete'⟩ := complete_publishEvent sound complete
    exact ⟨still, iff_of_true complete' rfl⟩
  | sweep passes now =>
    obtain ⟨still, iff⟩ := @complete_processBatch _ codec passes store now sound complete
    exact ⟨still, by rw [TriggerStore.meets, all_eq_true]; exact iff⟩

/-- Fan-out is complete as long as no sweep starts a workflow for an event and leaves another
subscription of it without its run, and it is complete after one more step exactly if that step
does not do this either. Proof: by induction over the steps, of which each is one publication or
one sweep. -/
theorem fan_out_complete {subscriptions : List Subscription}
    (distinct : (subscriptions.map (·.id)).Nodup) {actions : List TriggerAction}
    (balanced : Allows (TriggerStore.step codec)
      (fun store action => store.meets codec action = true) { subscriptions } actions) :
    (stateAfter (TriggerStore.step codec) { subscriptions } actions).Complete codec ∧
      ∀ action, (stateAfter (TriggerStore.step codec) { subscriptions }
          (actions ++ [action])).Complete codec ↔
        (stateAfter (TriggerStore.step codec) { subscriptions } actions).meets codec action =
          true := by
  obtain ⟨sound, complete⟩ := balanced.invariant
    (fun store => store.Sound ∧ store.Complete codec)
    (fun store action allowed held =>
      ⟨(complete_step held.1 held.2).1, (complete_step held.1 held.2).2.mpr allowed⟩)
    ⟨⟨nodup_nil, distinct, fun key => Nat.zero_le 1⟩, nofun⟩
  refine ⟨complete, fun action => ?_⟩
  rw [stateAfter_append]
  exact (complete_step sound complete).2

/-- A codec that takes every text for an object. -/
def plainCodec : Codec String where
  valid _ := true
  unmarshalError _ := none
  decodeJSONObject text := some text
  empty := ""
  overlay _ data := data
  marshal text := text
  evaluateFilter _ _ := .ok true

def subscriptionOne : Subscription :=
  ⟨1, 1, "order", "ship", "", "", "", true, 3⟩

def subscriptionTwo : Subscription :=
  ⟨2, 1, "order", "bill", "", "", "", true, 3⟩

/-- All starts of the pass succeed. -/
def allStarted : Pass where
  answers _ := .started

/-- The start for the second subscription is refused. -/
def secondRefused : Pass where
  answers sub := if sub = 2 then .refused else .started

/-- Both starts are refused when the event is published; the sweep makes both runs. -/
theorem fan_out_complete_both :
    (stateAfter (TriggerStore.step plainCodec)
      { subscriptions := [subscriptionOne, subscriptionTwo] }
      [.publish { answers := fun _ => .refused } 0 7 1 "order" "data",
        .sweep (fun _ => allStarted) 20]).Complete plainCodec :=
  (fan_out_complete (by decide) (by decide +kernel)).1

/-- The start for one of two subscriptions is refused in the sweep, which marks the event as
completed because it started a workflow for the other one. -/
theorem completed_without_run :
    ∃ store, store = stateAfter (TriggerStore.step plainCodec)
        { subscriptions := [subscriptionOne, subscriptionTwo] }
        [.publish secondRefused 0 7 1 "order" "data", .sweep (fun _ => secondRefused) 20] ∧
      ∃ event ∈ store.events, event.dispatchProcessed = true ∧ event.status = .completed ∧
        ∃ sub ∈ store.subscribed event.tenantID event.eventType,
          sub.accepts plainCodec event.eventData = true ∧
            runsOf store.runs ⟨event.id, sub.id⟩ = 0 :=
  ⟨_, rfl, by decide +kernel⟩

end Sequences

end Cleat.Triggers
