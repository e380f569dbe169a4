import Cleat.Store.StartKeys

/-!
# A store of several shards

A sharded store sends each call to one of its shards by a hash of a key, which is mostly a run's
id. The id of a child is its root's id with a suffix, and the suffix is stripped before hashing.
Some ids are drawn by the router, which then routes by them. Others are drawn inside a shard's
transaction, after the call was routed by the id of a parent or a predecessor.

SHA-256 is an arbitrary function, and the drawn ids are arbitrary. The tables of one shard are those
of a PostgreSQL store.
-/
namespace Cleat.Store

open Durable List StartTables Function

/-- The number of shards, and the first eight bytes of the SHA-256 of a key. -/
structure ShardedStore where
  hash : String → Nat
  shards : Nat
  positive : 0 < shards

/-- The text before the first `.c`. -/
def beforeSuffix : List Char → List Char
  | '.' :: 'c' :: _ => []
  | letter :: rest => letter :: beforeSuffix rest
  | [] => []

def stripChildSuffix (key : String) : String := String.ofList (beforeSuffix key.toList)

def ShardedStore.getShard (store : ShardedStore) (key : String) : Nat :=
  store.hash (stripChildSuffix key) % store.shards

/-- The id that the router gives to a child. -/
def childID (parentID : String) (step : Nat) (suffix : String) : String :=
  stripChildSuffix parentID ++ (".c" ++ toString step ++ "." ++ suffix)

theorem beforeSuffix_append (text rest : List Char) :
    beforeSuffix (beforeSuffix text ++ '.' :: 'c' :: rest) = beforeSuffix text := by
  fun_induction beforeSuffix text with
  | case1 => rfl
  | case2 letter tail apart ih =>
    rw [cons_append, beforeSuffix, ih]
    -- The suffix begins with a dot, so the letter before it begins none.
    intro rest' here same
    obtain rfl := here
    cases tail with
    | nil => simp [beforeSuffix] at same
    | cons next tail =>
      unfold beforeSuffix at same
      split at same
      · simp at same
      · simp_all
      · simp at same
  | case3 => rfl

/-- A child is routed like its parent. -/
theorem getShard_childID (store : ShardedStore) (parentID : String) (step : Nat) (suffix : String) :
    store.getShard (childID parentID step suffix) = store.getShard parentID := by
  have stripped : stripChildSuffix (childID parentID step suffix) = stripChildSuffix parentID := by
    simp only [stripChildSuffix, childID, String.toList_append, String.toList_ofList]
    exact congrArg String.ofList (beforeSuffix_append ..)
  rw [ShardedStore.getShard, stripped]
  rfl

section Placement

/-- A run as a shard holds it. -/
structure PlacedRun where
  shard : Nat
  id : String
  parent : Option String := none
deriving DecidableEq

/-- The operations that create runs, with the ids they draw. A transaction may fail. The run that
is continued has to be held by the caller. -/
inductive Creation where
  | startNewRun (runID drawn : String) (committed : Bool)
  | startChildWorkflow (parentID drawn : String) (committed : Bool)
  | startChildWorkflowAtomic (parentID : String) (step : Nat) (suffix : String) (committed : Bool)
  | continueAsNew (currentRunID drawn : String) (held : Bool)

namespace ShardedStore

variable (store : ShardedStore)

/-- The row that an operation makes. A run that is continued hands its parent on. -/
def row (rows : List PlacedRun) : Creation → Option PlacedRun
  | .startNewRun runID drawn committed =>
    let id := if runID = "" then drawn else runID
    if committed then some ⟨store.getShard id, id, none⟩ else none
  | .startChildWorkflow parentID drawn committed =>
    if committed then some ⟨store.getShard parentID, drawn, some parentID⟩ else none
  | .startChildWorkflowAtomic parentID step suffix committed =>
    let id := childID parentID step suffix
    if committed then some ⟨store.getShard id, id, some parentID⟩ else none
  | .continueAsNew currentRunID drawn held =>
    match rows.find? fun row => row.shard = store.getShard currentRunID ∧ row.id = currentRunID with
    | some current =>
      if held then some ⟨store.getShard currentRunID, drawn, current.parent⟩ else none
    | none => none

/-- An operation adds its row, unless its shard has a row with this id. -/
def create (rows : List PlacedRun) (creation : Creation) : List PlacedRun :=
  match store.row rows creation with
  | some row =>
    if rows.any fun held => held.shard = row.shard ∧ held.id = row.id then rows else rows ++ [row]
  | none => rows

/-- Every run is on the shard of its id, and every child is with its parent. -/
def Placed (rows : List PlacedRun) : Prop :=
  (∀ row ∈ rows, row.shard = store.getShard row.id) ∧
    ∀ row ∈ rows, ∀ parent ∈ rows, row.parent = some parent.id → row.shard = parent.shard

/-- An id that is drawn inside a shard is routed to this shard. -/
def Routed : Creation → Prop
  | .startChildWorkflow parentID drawn _ => store.getShard drawn = store.getShard parentID
  | .continueAsNew currentRunID drawn _ => store.getShard drawn = store.getShard currentRunID
  | _ => True

variable {store} {rows : List PlacedRun} {creation : Creation} {row : PlacedRun}

/-- An operation makes no row, or it adds the one it has made. -/
theorem create_cases : store.create rows creation = rows ∨
    ∃ row, store.row rows creation = some row ∧ store.create rows creation = rows ++ [row] := by
  unfold create
  cases store.row rows creation with
  | none => exact .inl rfl
  | some row =>
    dsimp only
    split
    · exact .inl rfl
    · exact .inr ⟨row, rfl, rfl⟩

/-- The new row is on the shard of its id exactly if a drawn id is routed there. -/
theorem row_routed (made : store.row rows creation = some row) :
    row.shard = store.getShard row.id ↔ store.Routed creation := by
  cases creation <;> simp only [ShardedStore.row, Routed] at made ⊢
  case continueAsNew currentRunID drawn held =>
    split at made
    · obtain ⟨_, rfl⟩ : held = true ∧ _ := by simpa using made
      exact eq_comm
    · cases made
  all_goals
    obtain ⟨_, rfl⟩ : _ = true ∧ _ := by simpa using made
    first | exact eq_comm | simp

/-- Every child is on the shard of its parent's id, as long as every run is on the shard of its
own. -/
theorem row_parent (made : store.row rows creation = some row)
    (family : ∀ row ∈ rows, ∀ parent, row.parent = some parent → row.shard = store.getShard parent)
    (parent : String) (child : row.parent = some parent) : row.shard = store.getShard parent := by
  cases creation <;> simp only [ShardedStore.row] at made
  case continueAsNew currentRunID drawn held =>
    split at made
    · rename_i current found
      obtain ⟨_, rfl⟩ : held = true ∧ _ := by simpa using made
      have here := find?_some found
      simp only [decide_eq_true_eq] at here
      rw [← here.1]
      exact family current (mem_of_find?_eq_some found) parent child
    · cases made
  all_goals obtain ⟨_, rfl⟩ : _ = true ∧ _ := by simpa using made
  case startNewRun => cases child
  case startChildWorkflow =>
    cases child
    rfl
  case startChildWorkflowAtomic =>
    cases child
    exact getShard_childID ..

/-- After any operations every run is on the shard of its id, and every child with its parent,
exactly if each id that was drawn inside a shard for a run is routed to this shard.

Proof: by induction over the operations. The rows stay, and a new one is on the shard of its id
exactly if the operation is routed; a child is on the shard of its parent's id. -/
theorem runs_live_where_routed (store : ShardedStore) (creations : List Creation) :
    store.Placed (stateAfter store.create [] creations) ↔
      Allows store.create (fun rows creation =>
        store.Routed creation ∨ store.create rows creation = rows) [] creations := by
  have placed : ∀ rows, (∀ row ∈ stateAfter store.create rows creations,
      row.shard = store.getShard row.id) ↔ (∀ row ∈ rows, row.shard = store.getShard row.id) ∧
        Allows store.create (fun rows creation =>
          store.Routed creation ∨ store.create rows creation = rows) rows creations := by
    induction creations with
    | nil => simp [Allows]
    | cons creation rest ih =>
      intro rows
      rw [stateAfter_cons, ih, Allows]
      rcases @create_cases store rows creation with same | ⟨row, made, added⟩
      · simp [same]
      · have fresh : rows ++ [row] ≠ rows := by simp
        simp only [added, fresh, or_false, forall_mem_append, forall_mem_singleton,
          row_routed made, and_assoc]
  have family : ∀ row ∈ stateAfter store.create [] creations, ∀ parent,
      row.parent = some parent → row.shard = store.getShard parent := by
    refine stateAfter_invariant (fun rows : List PlacedRun => ∀ row ∈ rows, ∀ parent,
      row.parent = some parent → row.shard = store.getShard parent) ?_ (by simp) creations
    intro rows creation family
    rcases @create_cases store rows creation with same | ⟨row, made, added⟩
    · rwa [same]
    · rw [added]
      simp only [forall_mem_append, forall_mem_singleton]
      exact ⟨family, row_parent made family⟩
  constructor
  · intro holds
    exact ((placed []).mp holds.1).2
  · intro allowed
    have home := (placed []).mpr ⟨by simp, allowed⟩
    refine ⟨home, fun row member parent other child => ?_⟩
    rw [family row member parent.id child, home parent other]

/-- Two shards, by the length of the key. -/
def twoShards : ShardedStore := ⟨String.length, 2, by decide⟩

/-- A run is continued under an id of the other shard. -/
theorem continued_elsewhere : ¬ twoShards.Placed (stateAfter twoShards.create []
    [.startNewRun "" "run" true, .continueAsNew "run" "next" true]) := by
  unfold Placed
  decide +kernel

end ShardedStore

end Placement

section Starts

variable (store : ShardedStore) (codec : InputCodec) (ttl : Nat)

/-- The shard of an action with the key. A start is routed by the id it has drawn, and its
statements are run where it was begun. -/
def ShardedStore.target : Nat × StartAction → Nat
  | (_, .begin' _ call) => store.getShard call.runID
  | (shard, _) => shard

/-- One action on the key tables of the shards. -/
def ShardedStore.start (tables : Nat → StartTables) (action : Nat × StartAction) :
    Nat → StartTables :=
  Function.update tables (store.target action)
    ((tables (store.target action)).step codec ttl action.2)

/-- At most one run is made in all shards, and every call that succeeds names it. -/
structure OneRun (tables : Nat → StartTables) : Prop where
  few : ∀ shard, (tables shard).created.length ≤ 1
  single : ∀ shard other, (tables shard).created ≠ [] → (tables other).created ≠ [] → shard = other
  named : ∀ shard tx open' answer workflowID, (tables shard).calls tx = some open' →
    open'.phase = .returned answer → answer = .started workflowID ∨ answer = .existing workflowID →
      ∃ row ∈ (tables shard).created, row.workflowID = workflowID

variable {store codec ttl}

/-- The tables of one shard. -/
theorem ShardedStore.start_at (tables : Nat → StartTables) (actions : List (Nat × StartAction))
    (shard : Nat) : stateAfter (store.start codec ttl) tables actions shard =
      stateAfter (step codec ttl) (tables shard)
        ((actions.filter fun action => store.target action = shard).map Prod.snd) := by
  induction actions generalizing tables with
  | nil => rfl
  | cons action rest ih =>
    rw [stateAfter_cons, ih, ShardedStore.start]
    by_cases here : store.target action = shard
    · subst here
      simp
    · simp [here, update_of_ne (Ne.symm here)]

/-- A shard on which no start is begun makes no run. -/
theorem created_of_unbegun {tables : StartTables} {actions : List StartAction}
    (unbegun : ∀ tx call, .begin' tx call ∉ actions) (idle : tables.calls = fun _ => none)
    (empty : tables.created = []) :
    (stateAfter (step codec ttl) tables actions).created = [] := by
  have allowed : Allows (step codec ttl)
      (fun _ action => ∀ tx call, action ≠ .begin' tx call) tables actions :=
    allows_of_forall fun action member _ tx call same => unbegun tx call (same ▸ member)
  refine (allowed.invariant (fun tables => tables.calls = (fun _ => none) ∧ tables.created = []) ?_
    ⟨idle, empty⟩).2
  intro tables action other holds
  cases action with
  | tick => exact holds
  | begin' tx call => exact absurd rfl (other tx call)
  | run tx statement => simpa only [step, holds.1] using holds
  | sweep now =>
    rw [step]
    split
    · exact holds
    · exact holds

/-- A call that succeeds is told the run of a row. -/
theorem StartKeyRow.Settles.names {row : StartKeyRow} {call : StartCall} {answer : StartAnswer}
    {workflowID : String} (settles : row.Settles codec call answer)
    (success : answer = .started workflowID ∨ answer = .existing workflowID) :
    row.workflowID = workflowID := by
  rcases settles with ⟨rfl, _⟩ | rfl
  · simpa using success
  · unfold StartKeyRow.answer at success
    split at success
    · simp at success
    · split at success
      · simpa using success
      · simp at success

/-- A whole start on a shard that has not seen the key. -/
def wholeStart (shard : Nat) (call : StartCall) : List (Nat × StartAction) :=
  (shard, .begin' 0 call) :: ([.select, .clear, .insert, .make true, .commit true].map
    fun statement => (shard, .run 0 statement))

theorem filter_wholeStart (call : StartCall) (shard : Nat) :
    (wholeStart (store.getShard call.runID) call).filter (fun action => store.target action = shard) =
      if store.getShard call.runID = shard then wholeStart shard call else [] := by
  by_cases here : store.getShard call.runID = shard
  · simp [wholeStart, ShardedStore.target, here]
  · simp [wholeStart, ShardedStore.target, here]

theorem created_wholeStart (shard : Nat) (call : StartCall) :
    (stateAfter (step codec ttl) {} ((wholeStart shard call).map Prod.snd)).created =
      [⟨call.runID, 0 + ttl, some call.defName, some (idempotencyInputDigest codec call.input),
        call.input⟩] := rfl

theorem alive_wholeStart (lasting : 0 < ttl) (shard : Nat) (call : StartCall) :
    (stateAfter (step codec ttl) {} ((wholeStart shard call).map Prod.snd)).Alive := by
  intro row member
  rw [created_wholeStart, mem_singleton] at member
  subst member
  exact Nat.lt_of_lt_of_eq lasting (Nat.zero_add ttl).symm

/-- Starts with one key, one definition and one input, which draw their ids from a given set. In
every interleaving within the lifetime of the key at most one run is made and named, exactly if all
ids of the set are routed to one shard.

Proof: if they are, the other shards see no start, and the key table of this one admits one run. If
two ids are routed apart, two starts that draw them make two runs. -/
theorem one_start_across_shards (store : ShardedStore) (codec : InputCodec) (ttl : Nat)
    (lasting : 0 < ttl) (ids : Set String) (defName input : String) :
    (∀ (clock : Nat → Nat) (leftover : Nat → Option StartKeyRow),
      (∀ shard row, leftover shard = some row → row.expiresAt ≤ clock shard) →
      ∀ actions : List (Nat × StartAction),
        (∀ shard tx call, (shard, .begin' tx call) ∈ actions →
          call.runID ∈ ids ∧ call.defName = defName ∧ call.input = input) →
        (∀ shard, (stateAfter (store.start codec ttl) (fun shard =>
          { clock := clock shard, key := { row := leftover shard } }) actions shard).Alive) →
        OneRun (stateAfter (store.start codec ttl) (fun shard =>
          { clock := clock shard, key := { row := leftover shard } }) actions)) ↔
      ∀ one ∈ ids, ∀ other ∈ ids, store.getShard one = store.getShard other := by
  constructor
  · intro holds one inside other inside'
    by_contra apart
    obtain ⟨actions, both⟩ : ∃ actions, actions =
      wholeStart (store.getShard one) ⟨one, defName, input⟩ ++
        wholeStart (store.getShard other) ⟨other, defName, input⟩ := ⟨_, rfl⟩
    -- What the two starts leave on a shard.
    have left : ∀ shard, stateAfter (store.start codec ttl) (fun _ => {}) actions shard =
        stateAfter (step codec ttl) {}
          (((if store.getShard one = shard then wholeStart shard ⟨one, defName, input⟩ else []) ++
            if store.getShard other = shard then wholeStart shard ⟨other, defName, input⟩
            else []).map Prod.snd) := by
      intro shard
      rw [both, ShardedStore.start_at, filter_append]
      congr 3
      · exact filter_wholeStart ⟨one, defName, input⟩ shard
      · exact filter_wholeStart ⟨other, defName, input⟩ shard
    have alive : ∀ shard,
        (stateAfter (store.start codec ttl) (fun _ => {}) actions shard).Alive := by
      intro shard
      rw [left]
      by_cases here : store.getShard one = shard
      · subst here
        simp only [Ne.symm apart, if_true, if_false, append_nil]
        exact alive_wholeStart lasting _ _
      · by_cases here' : store.getShard other = shard
        · simp only [here, here', if_true, if_false, nil_append]
          exact alive_wholeStart lasting _ _
        · simp [here, here', stateAfter, StartTables.Alive]
    have run := holds (fun _ => 0) (fun _ => none) nofun _ ?_ alive
    · refine apart (run.single _ _ ?_ ?_)
      · simp [left, Ne.symm apart, created_wholeStart]
      · simp [left, apart, created_wholeStart]
    · intro shard tx call member
      rcases mem_append.mp (both ▸ member) with member | member
      · obtain ⟨_, _, rfl⟩ : _ ∧ _ ∧ call = ⟨one, defName, input⟩ := by
          simpa [wholeStart] using member
        exact ⟨inside, rfl, rfl⟩
      · obtain ⟨_, _, rfl⟩ : _ ∧ _ ∧ call = ⟨other, defName, input⟩ := by
          simpa [wholeStart] using member
        exact ⟨inside', rfl, rfl⟩
  · intro together clock leftover old actions starts alive
    have sound : ∀ shard, (stateAfter (store.start codec ttl) (fun shard =>
        { clock := clock shard, key := { row := leftover shard } }) actions shard).Sound
          codec ttl (clock shard) := by
      intro shard
      have alive := alive shard
      rw [ShardedStore.start_at] at alive ⊢
      exact sound_after (leftover shard) (old shard) _ alive
    have routed : ∀ shard, (stateAfter (store.start codec ttl) (fun shard =>
        { clock := clock shard, key := { row := leftover shard } }) actions shard).created ≠ [] →
          ∃ id ∈ ids, store.getShard id = shard := by
      intro shard made
      by_contra none
      refine made ?_
      rw [ShardedStore.start_at]
      refine created_of_unbegun (fun tx call member => none ?_) rfl rfl
      obtain ⟨⟨begun, action⟩, member, rfl⟩ := mem_map.mp member
      obtain ⟨member, here⟩ := mem_filter.mp member
      exact ⟨call.runID, (starts _ tx call member).1, of_decide_eq_true here⟩
    constructor
    case few =>
      intro shard
      rcases (sound shard).live with ⟨empty, _⟩ | ⟨row, created, _⟩
      · simp [empty]
      · simp [created]
    case single =>
      intro shard other made made'
      obtain ⟨id, inside, rfl⟩ := routed shard made
      obtain ⟨id', inside', rfl⟩ := routed other made'
      exact together id inside id' inside'
    case named =>
      intro shard tx open' answer workflowID found phase success
      have fits := (sound shard).fits tx open' found
      have silent : answer ≠ .failed := by
        rintro rfl
        simp at success
      obtain ⟨row, member, settles⟩ := fits.answered answer phase silent
      exact ⟨row, member, settles.names success⟩

/-- Two starts on one shard, of which the second finds the key. -/
def startTwice : List (Nat × StartAction) :=
  wholeStart 1 ⟨"run", "d", "1"⟩ ++ [(1, .begin' 1 ⟨"later", "d", "1"⟩), (1, .run 1 .select)]

theorem one_start_across_shards_once :
    OneRun (stateAfter (ShardedStore.twoShards.start integerCodec 10) (fun _ => {}) startTwice) := by
  refine (one_start_across_shards ShardedStore.twoShards integerCodec 10 (by decide)
    {"run", "later"} "d" "1").mpr ?_ (fun _ => 0) (fun _ => none) nofun _ ?_ ?_
  · rintro one (rfl | rfl) other (rfl | rfl) <;> decide +kernel
  · intro shard tx call member
    obtain ⟨_, _, rfl⟩ | ⟨_, _, rfl⟩ : (shard = 1 ∧ tx = 0 ∧ call = ⟨"run", "d", "1"⟩) ∨
        shard = 1 ∧ tx = 1 ∧ call = ⟨"later", "d", "1"⟩ := by
      simpa [startTwice, wholeStart] using member
    · exact ⟨.inl rfl, rfl, rfl⟩
    · exact ⟨.inr rfl, rfl, rfl⟩
  · intro shard
    rw [ShardedStore.start_at]
    by_cases here : shard = 1
    · subst here
      unfold StartTables.Alive
      decide +kernel
    · have first : ShardedStore.twoShards.getShard "run" = 1 := by decide +kernel
      have second : ShardedStore.twoShards.getShard "later" = 1 := by decide +kernel
      simp [startTwice, wholeStart, ShardedStore.target, first, second, Ne.symm here, stateAfter,
        StartTables.Alive]

/-- Two starts with one key draw ids of different shards, and each makes a run. -/
theorem started_on_two_shards : ¬ OneRun (stateAfter (ShardedStore.twoShards.start integerCodec 10)
    (fun _ => {}) (wholeStart 1 ⟨"run", "d", "1"⟩ ++ wholeStart 0 ⟨"next", "d", "1"⟩)) := by
  intro run
  have same := run.single 1 0 (by decide +kernel) (by decide +kernel)
  cases same

end Starts

section Keys

/-- The lease of a run, as far as its concurrency key is concerned: it is ready or parked, claimed,
or settled. -/
inductive KeyStatus where
  | ready | running | settled
deriving DecidableEq

/-- A run, which may be started with the key. -/
structure KeyedRun where
  keyed : Bool
  status : KeyStatus := .ready

/-- One key of one tenant: the row of `concurrency_keys` on each shard, the runs, and as history the
runs that were granted the key and have not given it up. -/
structure KeyTables where
  row : Nat → Option String := fun _ => none
  runs : String → Option KeyedRun := fun _ => none
  held : String → Bool := fun _ => false

inductive KeyAction where
  | start (keyed : Bool) | claim | park | settle | releaseWorkflow | acquire | release

namespace KeyTables

variable (store : ShardedStore) (key : String) (tables : KeyTables)

def setStatus (id : String) (run : KeyedRun) (status : KeyStatus) : KeyTables :=
  { tables with runs := Function.update tables.runs id (some { run with status }) }

/-- `INSERT … ON CONFLICT DO NOTHING` on a shard. The row refers to the run, which has to be on this
shard. -/
def insert (shard : Nat) (id : String) : KeyTables :=
  if tables.row shard = none ∧ store.getShard id = shard ∧ (tables.runs id).isSome then
    { tables with
      row := Function.update tables.row shard (some id)
      held := Function.update tables.held id true }
  else tables

/-- The row of the key is deleted on a shard if it is of this run. -/
def delete (shard : Nat) (id : String) : KeyTables :=
  if tables.row shard = some id then
    { tables with
      row := Function.update tables.row shard none
      held := Function.update tables.held id false }
  else tables

/-- A run whose key another live run holds on its shard is no candidate. -/
def blocked (id : String) : Bool :=
  (tables.row (store.getShard id)).any fun holder =>
    holder ≠ id ∧ (tables.runs holder).any (·.status ≠ .settled)

/-- A candidate is claimed if it takes the key, or holds it already. -/
def acquireCandidateConcurrencyKey (id : String) (run : KeyedRun) : KeyTables :=
  let taken := tables.insert store (store.getShard id) id
  if taken.row (store.getShard id) = some id then
    { taken.setStatus id run .running with held := Function.update taken.held id true }
  else tables

/-- One call for a run. Claims, settlements and the release behind a settlement are routed by the
run, and the calls of guests by the key. -/
def step : String × KeyAction → KeyTables
  | (id, .start keyed) =>
    match tables.runs id with
    | none => tables.setStatus id { keyed } .ready
    | some _ => tables
  | (id, .claim) =>
    match tables.runs id with
    | some ⟨true, .ready⟩ =>
      if tables.blocked store id then tables
      else tables.acquireCandidateConcurrencyKey store id ⟨true, .ready⟩
    | some ⟨false, .ready⟩ => tables.setStatus id ⟨false, .ready⟩ .running
    | _ => tables
  | (id, .park) =>
    match tables.runs id with
    | some ⟨keyed, .running⟩ => tables.setStatus id ⟨keyed, .running⟩ .ready
    | _ => tables
  | (id, .settle) =>
    match tables.runs id with
    | some run =>
      if run.status = .settled then tables
      else { tables.setStatus id run .settled with held := Function.update tables.held id false }
    | none => tables
  | (id, .releaseWorkflow) => tables.delete (store.getShard id) id
  | (id, .acquire) => tables.insert store (store.getShard key) id
  | (id, .release) => tables.delete (store.getShard key) id

/-- The row on the shard of a holder is its own. -/
def Recorded : Prop := ∀ id, tables.held id = true → tables.row (store.getShard id) = some id

variable {store key tables}

theorem Recorded.insert (recorded : tables.Recorded store) (shard : Nat) (id : String) :
    (tables.insert store shard id).Recorded store := by
  unfold KeyTables.insert
  split
  · rename_i free
    obtain ⟨free, rfl, _⟩ := free
    intro holder held
    by_cases own : holder = id
    · rw [own]
      exact update_self ..
    · have before := recorded holder ((update_of_ne own ..).symm.trans held)
      refine (update_of_ne (fun same => ?_) ..).trans before
      rw [same, free] at before
      cases before
  · exact recorded

theorem Recorded.delete (recorded : tables.Recorded store) (shard : Nat) (id : String) :
    (tables.delete shard id).Recorded store := by
  unfold KeyTables.delete
  split
  · rename_i mine
    intro holder held
    have other : holder ≠ id := by
      rintro rfl
      simp at held
    have before := recorded holder ((update_of_ne other ..).symm.trans held)
    refine (update_of_ne (fun same => ?_) ..).trans before
    rw [same, mine, Option.some.injEq] at before
    exact other before.symm
  · exact recorded

/-- A holder's row is on its shard after any calls. -/
theorem Recorded.step (recorded : tables.Recorded store) (action : String × KeyAction) :
    (tables.step store key action).Recorded store := by
  obtain ⟨id, action⟩ := action
  cases action with
  | start | park =>
    rw [KeyTables.step]
    split <;> exact recorded
  | claim =>
    rw [KeyTables.step]
    split
    · split
      · exact recorded
      · rw [acquireCandidateConcurrencyKey]
        split
        · rename_i taken
          intro holder held
          by_cases own : holder = id
          · rw [own]
            exact taken
          · exact recorded.insert _ _ holder ((update_of_ne own ..).symm.trans held)
        · exact recorded
    · exact recorded
    · exact recorded
  | settle =>
    rw [KeyTables.step]
    split
    · split
      · exact recorded
      · intro holder held
        have other : holder ≠ id := by
          rintro rfl
          simp at held
        exact recorded holder ((update_of_ne other ..).symm.trans held)
    · exact recorded
  | releaseWorkflow => exact recorded.delete _ _
  | acquire => exact recorded.insert _ _
  | release => exact recorded.delete _ _

end KeyTables

/-- Calls for a set of runs, some of them with one key. In every interleaving at most one run holds
the key, exactly if all of them are routed to one shard.

Proof: the shard of a holder has its row, and there is one row. Two runs of different shards that
are started with the key are both claimed. -/
theorem key_held_once (store : ShardedStore) (key : String) (ids : Set String) :
    (∀ actions : List (String × KeyAction), (∀ action ∈ actions, action.1 ∈ ids) →
      ∀ one ∈ ids, ∀ other ∈ ids,
        (stateAfter (KeyTables.step store key) {} actions).held one = true →
        (stateAfter (KeyTables.step store key) {} actions).held other = true → one = other) ↔
      ∀ one ∈ ids, ∀ other ∈ ids, store.getShard one = store.getShard other := by
  constructor
  · intro holds one inside other inside'
    by_contra apart
    have differ : one ≠ other := fun same => apart (congrArg store.getShard same)
    refine differ (holds [(one, .start true), (other, .start true), (one, .claim), (other, .claim)]
      (by simp [inside, inside']) one inside other inside' ?_ ?_)
    all_goals simp [stateAfter, KeyTables.step, KeyTables.setStatus, KeyTables.blocked,
      KeyTables.acquireCandidateConcurrencyKey, KeyTables.insert, differ, Ne.symm differ,
      Ne.symm apart]
  · intro together actions within one inside other inside' held held'
    have recorded : (stateAfter (KeyTables.step store key) {} actions).Recorded store :=
      stateAfter_invariant (KeyTables.Recorded store) (fun _ action recorded => recorded.step action)
        (fun _ held => by cases held) actions
    have row := recorded one held
    rw [together one inside other inside', recorded other held', Option.some.injEq] at row
    exact row.symm

/-- Two runs with one key are on different shards, and both are claimed. -/
theorem key_held_twice : ¬ ∀ one other, (stateAfter (KeyTables.step ShardedStore.twoShards "key") {}
      [("run", .start true), ("next", .start true), ("run", .claim), ("next", .claim)]).held one =
        true → (stateAfter (KeyTables.step ShardedStore.twoShards "key") {}
      [("run", .start true), ("next", .start true), ("run", .claim), ("next", .claim)]).held other =
        true → one = other := by
  intro claimed
  have same := claimed "run" "next" (by decide +kernel) (by decide +kernel)
  revert same
  decide

end Keys

end Cleat.Store
