import Cleat.Store.Sharded
import Mathlib.Algebra.BigOperators.Group.List.Basic
import Mathlib.Algebra.Ring.Int.Defs
import Mathlib.Data.List.Perm.Subperm

/-!
# Calls that reach several shards

A claim walks the shards in turn and hands the runs of all of them to the worker. The keys of a run
are acquired on the shard of the key, and all of them are released on the shard of the run. A
definition is written to every shard, the one of its name first or last. Each shard commits on its
own, so a call can stop with some of the shards changed.

What a shard answers is arbitrary. A claim or a write that fails has changed nothing on its shard.
-/
namespace Cleat.Store

open Durable List

section Claims

/-- What the shards answer to a claim for a budget: the runs they have claimed, or an error. -/
structure ShardClaims where
  claim : Nat → Int → Except String (List String)
  bounded : ∀ shard budget runs, claim shard budget = .ok runs → (runs.length : Int) ≤ budget

inductive ClaimError where
  | shard (shard : Nat) (err : String)
  | overrun (op : String) (shard : Nat) (returned budget : Int)

variable (shards : ShardClaims) (op : String) (limit : Int)

/-- The walk with the runs that are collected. The first result has the runs that the shards have
claimed, and the second is what the caller gets. -/
def claimWalk : List Nat → List String → List String × Except ClaimError (List String)
  | [], all => (all, .ok all)
  | shard :: rest, all =>
    let budget := limit - all.length
    if budget ≤ 0 then (all, .ok all)
    else
      match shards.claim shard budget with
      | .error err => (all, .error (.shard shard err))
      | .ok runs =>
        if budget < runs.length then (all ++ runs, .error (.overrun op shard runs.length budget))
        else claimWalk rest (all ++ runs)

/-- The shards in the order of the walk. -/
def ShardedStore.walk (store : ShardedStore) (claimCursor : Nat) : List Nat :=
  (range store.shards).map fun i => (claimCursor % store.shards + i) % store.shards

def ShardedStore.claimAcrossShards (store : ShardedStore) (claimCursor : Nat) :
    List String × Except ClaimError (List String) :=
  if limit ≤ 0 then ([], .ok []) else claimWalk shards op limit (store.walk claimCursor) []

/-- The walk comes to a shard that fails, after others have given runs. -/
inductive FailsLate : List Nat → List String → Prop where
  | here {shard rest all err} (given : all ≠ []) (left : (all.length : Int) < limit)
      (failed : shards.claim shard (limit - all.length) = .error err) :
      FailsLate (shard :: rest) all
  | later {shard rest all runs} (left : (all.length : Int) < limit)
      (claimed : shards.claim shard (limit - all.length) = .ok runs)
      (further : FailsLate rest (all ++ runs)) : FailsLate (shard :: rest) all

variable {limit}

/-- The limit is kept, and the caller has every run unless a later shard fails. The induction is on
the shards that are left. -/
theorem claimWalk_strands_iff (walk : List Nat) (all : List String)
    (within : (all.length : Int) ≤ limit) :
    let claimed := claimWalk shards op limit walk all
    (claimed.1.length : Int) ≤ limit ∧
      ((∀ run ∈ claimed.1, run ∈ claimed.2.toOption.getD []) ↔ ¬FailsLate shards limit walk all) := by
  induction walk generalizing all with
  | nil =>
    constructor
    · exact within
    · exact iff_of_true (fun _ held => held) nofun
  | cons shard rest ih =>
    rw [claimWalk]
    split
    · constructor
      · exact within
      · apply iff_of_true (fun _ held => held)
        rintro (⟨_, left, _⟩ | ⟨left, _, _⟩) <;> omega
    · rename_i positive
      have left : (all.length : Int) < limit := by omega
      cases answer : shards.claim shard (limit - all.length) with
      | error err =>
        refine ⟨within, ?_⟩
        constructor
        · rintro held (⟨given, _, _⟩ | ⟨_, claimed, _⟩)
          · exact given (eq_nil_iff_forall_not_mem.mpr fun run inside => by cases held run inside)
          · cases answer.symm.trans claimed
        · intro early run inside
          cases early (.here (ne_nil_of_mem inside) left answer)
      | ok runs =>
        have few := shards.bounded _ _ _ answer
        simp only [not_lt.mpr few, if_false]
        have onward := ih (all ++ runs) (by rw [length_append]; omega)
        refine ⟨onward.1, onward.2.trans (not_congr ⟨.later left answer, ?_⟩)⟩
        rintro (⟨_, _, failed⟩ | ⟨_, claimed, further⟩)
        · cases answer.symm.trans failed
        · cases answer.symm.trans claimed
          exact further

/-- A claim across the shards takes at most as many runs as the limit. Every run that a shard has
claimed is handed to the caller, exactly if no shard fails after others have given runs. -/
theorem claim_strands_iff (store : ShardedStore) (shards : ShardClaims) (op : String) (limit : Int)
    (claimCursor : Nat) :
    let claimed := store.claimAcrossShards shards op limit claimCursor
    ((∀ run ∈ claimed.1, run ∈ claimed.2.toOption.getD []) ∧
      (claimed.1.length : Int) ≤ max limit 0) ↔
      ¬FailsLate shards limit (store.walk claimCursor) [] := by
  rw [ShardedStore.claimAcrossShards]
  generalize store.walk claimCursor = walk
  split
  · constructor
    · rintro - (⟨given, _, _⟩ | ⟨left, _, _⟩)
      · exact given rfl
      · rw [length_nil] at left
        omega
    · exact fun _ => ⟨nofun, le_max_right ..⟩
  · rename_i positive
    obtain ⟨few, handed⟩ := claimWalk_strands_iff shards op walk [] (not_le.mp positive).le
    exact (and_iff_left (few.trans (le_max_left ..))).trans handed

/-- The first shard of the walk claims a run, and the second one fails. -/
theorem claimed_run_stranded : ∃ shards : ShardClaims,
    (ShardedStore.twoShards.claimAcrossShards shards "claim_workflows" 2 0).1 = ["run"] ∧
    (ShardedStore.twoShards.claimAcrossShards shards "claim_workflows" 2 0).2.toOption = none := by
  let shards : ShardClaims :=
    { claim shard budget := if shard = 0 ∧ 1 ≤ budget then .ok ["run"] else .error "unreachable"
      bounded shard budget runs answer := by
        split at answer
        · cases answer
          rename_i asked
          exact asked.2
        · cases answer }
  exact ⟨shards, by decide, by decide⟩

end Claims

section Releases

/-- The run that holds a key on a shard. Keys stand for their SHA-256. -/
abbrev KeyHolders := Nat → String → Option String

inductive HolderCall where
  | acquireConcurrencyKey (key workflowID : String)
  | releaseConcurrencyKey (key workflowID : String)
  | releaseWorkflowConcurrencyKeys (workflowID : String)

/-- The runs and the keys of all shards. -/
structure KeyedShards where
  rows : List PlacedRun := []
  holders : KeyHolders := fun _ _ => none

namespace ShardedStore

/-- A call goes to the shard of its key. The one that releases all keys of a run has none, and goes
to the shard of the run. The row of a key refers to a run of its shard, so to acquire a key for a
run that is elsewhere fails and leaves the tables. -/
def holderStep (store : ShardedStore) (rows : List PlacedRun) (holders : KeyHolders)
    (call : HolderCall) : KeyHolders :=
  fun shard held =>
    match call with
    | .acquireConcurrencyKey key workflowID =>
      if shard = store.getShard key ∧ held = key ∧ holders shard held = none ∧
          ∃ row ∈ rows, row.shard = shard ∧ row.id = workflowID then some workflowID
      else holders shard held
    | .releaseConcurrencyKey key workflowID =>
      if shard = store.getShard key ∧ held = key ∧ holders shard held = some workflowID then none
      else holders shard held
    | .releaseWorkflowConcurrencyKeys workflowID =>
      if shard = store.getShard workflowID ∧ holders shard held = some workflowID then none
      else holders shard held

/-- A run is created, or a call for a key is made. -/
def keyedStep (store : ShardedStore) (tables : KeyedShards) :
    Creation ⊕ HolderCall → KeyedShards
  | .inl creation => { tables with rows := store.create tables.rows creation }
  | .inr call => { tables with holders := store.holderStep tables.rows tables.holders call }

variable (store : ShardedStore)

theorem create_keeps {rows : List PlacedRun} {row : PlacedRun} (creation : Creation)
    (member : row ∈ rows) : row ∈ store.create rows creation := by
  rcases @create_cases store rows creation with same | ⟨made, _, added⟩
  · rwa [same]
  · rw [added]
    exact mem_append_left _ member

/-- A key that is held after a call was held before, or is granted to a run of its shard. -/
theorem held_of_holderStep {rows : List PlacedRun} {holders : KeyHolders} {call : HolderCall}
    {shard : Nat} {key workflowID : String}
    (held : store.holderStep rows holders call shard key = some workflowID) :
    holders shard key = some workflowID ∨
      shard = store.getShard key ∧ ∃ row ∈ rows, row.shard = shard ∧ row.id = workflowID := by
  cases call with
  | acquireConcurrencyKey asked workflowID =>
    simp only [holderStep] at held
    split at held
    · rename_i granted
      obtain ⟨here, rfl, -, row⟩ := granted
      cases held
      exact .inr ⟨here, row⟩
    · exact .inl held
  | releaseConcurrencyKey =>
    simp only [holderStep] at held
    split at held
    · cases held
    · exact .inl held
  | releaseWorkflowConcurrencyKeys =>
    simp only [holderStep] at held
    split at held
    · cases held
    · exact .inl held

/-- A key is held on its own shard only, and by a run of this shard, after every call. -/
theorem held_where_routed (calls : List (Creation ⊕ HolderCall)) (shard : Nat)
    (key workflowID : String)
    (held : (stateAfter store.keyedStep {} calls).holders shard key = some workflowID) :
    shard = store.getShard key ∧ ∃ row ∈ (stateAfter store.keyedStep {} calls).rows,
      row.shard = shard ∧ row.id = workflowID := by
  revert shard key workflowID held
  apply stateAfter_invariant fun tables : KeyedShards => ∀ shard key workflowID,
    tables.holders shard key = some workflowID → shard = store.getShard key ∧
      ∃ row ∈ tables.rows, row.shard = shard ∧ row.id = workflowID
  · rintro tables (creation | call) routed shard key workflowID held
    · obtain ⟨here, row, member, home⟩ := routed shard key workflowID held
      exact ⟨here, row, store.create_keeps creation member, home⟩
    · exact (store.held_of_holderStep held).elim (routed shard key workflowID) id
  · nofun

/-- After all keys of a run are released no shard holds one for it, and the keys of the other runs
are as they were, exactly if the run has its keys only on the shard of its id. It can have them
where it lives, and a run that was continued or started by a parent may live on another shard.

Proof: a key is held by a run of the key's shard, and the release looks at the shard of the id. -/
theorem keys_released_iff (calls : List (Creation ⊕ HolderCall)) (workflowID : String) :
    let tables := stateAfter store.keyedStep {} calls
    let released := store.holderStep tables.rows tables.holders
      (.releaseWorkflowConcurrencyKeys workflowID)
    ((∀ shard key, released shard key ≠ some workflowID) ∧ ∀ shard key other, other ≠ workflowID →
        (released shard key = some other ↔ tables.holders shard key = some other)) ↔
      ∀ row ∈ tables.rows, row.id = workflowID →
        (∃ key, tables.holders row.shard key = some workflowID) →
          row.shard = store.getShard workflowID := by
  intro tables released
  constructor
  · rintro ⟨free, -⟩ row _ _ ⟨key, held⟩
    by_contra apart
    exact free row.shard key (by simp [released, holderStep, apart, held])
  · intro home
    constructor
    · intro shard key held
      have before : tables.holders shard key = some workflowID := by
        simp only [released, holderStep] at held
        split at held
        · cases held
        · exact held
      obtain ⟨_, row, member, rfl, own⟩ := store.held_where_routed calls shard key workflowID before
      exact absurd held (by simp [released, holderStep, home row member own ⟨key, before⟩])
    · grind [holderStep]

/-- A run is continued under an id of the other shard and acquires a key where it lives. The key
stays held after its release. -/
theorem key_stays_held : (stateAfter twoShards.keyedStep {}
    [.inl (.startNewRun "" "run" true), .inl (.continueAsNew "run" "next" true),
      .inr (.acquireConcurrencyKey "key" "next"),
      .inr (.releaseWorkflowConcurrencyKeys "next")]).holders 1 "key" = some "next" := by
  decide +kernel

end ShardedStore

end Releases

section Definitions

structure ShardErr where
  shard : String
  err : String

/-- What a shard answers before a definition is replaced. A store that cannot be asked passes. -/
inductive Replacement where
  | passes
  | inUse (openRuns : Int)
  | fails (err : String)

/-- The names of the shards, and the error of each question and each write. -/
structure DefShards where
  name : Nat → String
  replacement : Nat → Replacement
  purgeRefusal : Nat → Option String
  write : Nat → Option String

structure ShardedDefWriteError where
  op : String
  name : String
  version : Int
  succeeded : List String := []
  failed : List String := []
  notAttempted : List String := []
  errs : List ShardErr := []
  repair : String

inductive DefWriteError where
  | sharded (report : ShardedDefWriteError)
  | shard (err : ShardErr)
  | inUse (name : String) (version openRuns : Int)
  | preflight (err : ShardErr)
  | refused (name : String) (version : Int) (errs : List ShardErr)

inductive DefWrite where
  | deployWorkflowDef
  | markVersionDeprecated
  | purgeWorkflowDef

/-- The shards with the designated one first. -/
def ShardedStore.defShards (store : ShardedStore) (name : String) : List Nat :=
  store.getShard name :: (range store.shards).filter (· != store.getShard name)

section FanOut

variable (shards : DefShards) (designated : Nat) (designatedFirst : Bool)

/-- The loop with the report and the shards that are written. -/
def fanOutLoop : List Nat → ShardedDefWriteError → List Nat → ShardedDefWriteError × List Nat
  | [], report, written => (report, written)
  | shard :: rest, report, written =>
    let name := shards.name shard
    if designatedFirst = false ∧ shard = designated ∧ report.failed ≠ [] then
      fanOutLoop rest { report with notAttempted := report.notAttempted ++ [name] } written
    else
      match shards.write shard with
      | some err =>
        let report := { report with
          failed := report.failed ++ [name], errs := report.errs ++ [⟨name, err⟩] }
        if designatedFirst = true ∧ shard = designated then
          ({ report with notAttempted := report.notAttempted ++ rest.map shards.name }, written)
        else fanOutLoop rest report written
      | none =>
        fanOutLoop rest { report with succeeded := report.succeeded ++ [name] } (written ++ [shard])

/-- A shard of a list answers a write with this error. -/
def DefShards.Fails (order : List Nat) (err : ShardErr) : Prop :=
  ∃ shard ∈ order, shards.name shard = err.shard ∧ shards.write shard = some err.err

variable {shards} in
theorem DefShards.Fails.later {order : List Nat} {err : ShardErr} (fails : shards.Fails order err)
    (shard : Nat) : shards.Fails (shard :: order) err := by
  obtain ⟨other, member, fails⟩ := fails
  exact ⟨other, mem_cons_of_mem _ member, fails⟩

/-- What the loop does with the shards that are left. -/
structure FannedOut (order : List Nat) (report : ShardedDefWriteError) (written : List Nat)
    (result : ShardedDefWriteError × List Nat) : Prop where
  partition : (result.1.succeeded ++ result.1.failed ++ result.1.notAttempted).Perm
    (report.succeeded ++ report.failed ++ report.notAttempted ++ order.map shards.name)
  succeeded : report.succeeded = written.map shards.name →
    result.1.succeeded = result.2.map shards.name
  complete : result.1.failed = [] → report.failed = [] ∧ result.2 = written ++ order
  kept : written <+: result.2
  wrote : ∀ shard ∈ result.2, shard ∈ written ∨ shard ∈ order ∧ shards.write shard = none
  failed : report.failed = report.errs.map ShardErr.shard →
    result.1.failed = result.1.errs.map ShardErr.shard
  errs : ∀ err ∈ result.1.errs, err ∈ report.errs ∨ shards.Fails order err

theorem fanOutLoop_fannedOut (order : List Nat) (report : ShardedDefWriteError)
    (written : List Nat) : FannedOut shards order report written
      (fanOutLoop shards designated designatedFirst order report written) := by
  fun_induction fanOutLoop shards designated designatedFirst order report written with
  | case1 report written => exact ⟨by simp, id, by simp, prefix_rfl, by simp, id, fun _ => .inl⟩
  | case2 shard rest report written name skipped ih =>
    exact ⟨ih.partition.trans (by simp [name]), ih.succeeded,
      fun none => absurd (ih.complete none).1 skipped.2.2, ih.kept, by grind [ih.wrote],
      ih.failed, fun err member => (ih.errs err member).imp_right (·.later shard)⟩
  | case3 shard rest report written name tried err failed report' stops =>
    refine ⟨by grind, id, by simp [report'], prefix_rfl, by grind, by simp +contextual [report'], ?_⟩
    intro other member
    refine (mem_append.mp member).imp_right fun own => ?_
    exact ⟨shard, mem_cons_self, by simp_all [name]⟩
  | case4 shard rest report written name tried err failed report' goes ih =>
    refine ⟨ih.partition.trans (by grind), ih.succeeded,
      fun none => by simpa [report'] using (ih.complete none).1, ih.kept, by grind [ih.wrote],
      fun same => ih.failed (by simp [report', same]), ?_⟩
    intro other member
    rcases ih.errs other member with earlier | later
    · refine (mem_append.mp earlier).imp_right fun own => ?_
      exact ⟨shard, mem_cons_self, by simp_all [name]⟩
    · exact .inr (later.later shard)
  | case5 shard rest report written name tried done ih =>
    refine ⟨ih.partition.trans (by grind), fun same => ih.succeeded (by simp [same, name]),
      fun none => by simpa using ih.complete none, (prefix_append ..).trans ih.kept, ?_, ih.failed,
      fun err member => (ih.errs err member).imp_right (·.later shard)⟩
    intro other member
    rcases ih.wrote other member with earlier | ⟨later, wrote⟩
    · rcases mem_append.mp earlier with before | own
      · exact .inl before
      · rw [mem_singleton.mp own]
        exact .inr ⟨mem_cons_self, done⟩
    · exact .inr ⟨mem_cons_of_mem _ later, wrote⟩

/-- A write that begins with the designated shard stops if it fails there. -/
theorem fanOutLoop_first (others : List Nat) (report : ShardedDefWriteError)
    (changed : (fanOutLoop shards designated true (designated :: others) report []).2 ≠ []) :
    designated ∈ (fanOutLoop shards designated true (designated :: others) report []).2 := by
  rw [fanOutLoop] at changed ⊢
  cases answer : shards.write designated with
  | some err => simp [answer] at changed
  | none => simpa [answer] using (fanOutLoop_fannedOut ..).kept.subset (mem_singleton_self _)

/-- A purge writes the designated shard only after all others. -/
theorem fanOutLoop_last (others : List Nat) (report : ShardedDefWriteError) (written : List Nat)
    (apart : designated ∉ others) (unwritten : designated ∉ written)
    (last : designated ∈
      (fanOutLoop shards designated false (others ++ [designated]) report written).2) :
    (fanOutLoop shards designated false (others ++ [designated]) report written).1.failed = [] := by
  induction others generalizing report written with
  | nil => grind [fanOutLoop]
  | cons shard rest ih =>
    grind [fanOutLoop]

end FanOut

variable (store : ShardedStore) (shards : DefShards) (name : String) (version : Int)

/-- What the caller gets. Where nothing is written it is the one error of a shard. -/
def ShardedDefWriteError.answer (report : ShardedDefWriteError) : Option DefWriteError :=
  if report.failed = [] then none
  else
    match report.succeeded, report.errs with
    | [], [err] => some (.shard err)
    | _, _ => some (.sharded report)

/-- The answer, and the shards that are written. -/
def fanOutDefWrite (op : String) (designatedFirst : Bool) : Option DefWriteError × List Nat :=
  let all := store.defShards name
  let order := if designatedFirst then all else all.tail ++ [store.getShard name]
  let repair :=
    if designatedFirst then
      "Run the same command again: every shard's write is idempotent, so it repairs this"
    else "The shards written no longer hold this definition: deploy the version again to " ++
      "restore them, or clear what the failing shard holds and purge again"
  let result := fanOutLoop shards (store.getShard name) designatedFirst order
    { op, name, version, repair } []
  (result.1.answer, result.2)

/-- The open runs that stand against a replacement, or the first shard that cannot say. -/
def openRuns : List Nat → Except ShardErr Int
  | [] => .ok 0
  | shard :: rest =>
    match shards.replacement shard with
    | .passes => openRuns rest
    | .inUse runs => (runs + ·) <$> openRuns rest
    | .fails err => .error ⟨shards.name shard, err⟩

def defWrite : DefWrite → Option DefWriteError × List Nat
  | .deployWorkflowDef =>
    match openRuns shards (store.defShards name) with
    | .error err => (some (.preflight err), [])
    | .ok runs =>
      if 0 < runs then (some (.inUse name version runs), [])
      else fanOutDefWrite store shards name version "deploy_workflow_def" true
  | .markVersionDeprecated =>
    fanOutDefWrite store shards name version "mark_version_deprecated" true
  | .purgeWorkflowDef =>
    match (store.defShards name).filterMap fun shard =>
        (shards.purgeRefusal shard).map (ShardErr.mk (shards.name shard)) with
    | [] => fanOutDefWrite store shards name version "purge_workflow_def" false
    | errs => (some (.refused name version errs), [])

/-- The runs that a shard counts against a replacement. -/
def Replacement.runs : Replacement → Int
  | .inUse openRuns => openRuns
  | _ => 0

def DefShards.totalRuns : Int :=
  ((range store.shards).map fun shard => (shards.replacement shard).runs).sum

/-- Every shard lets a write begin. -/
def DefShards.Admits : DefWrite → Prop
  | .deployWorkflowDef => (∀ shard < store.shards, ∀ err, shards.replacement shard ≠ .fails err) ∧
      shards.totalRuns store ≤ 0
  | .markVersionDeprecated => True
  | .purgeWorkflowDef => ∀ shard < store.shards, shards.purgeRefusal shard = none

/-- The answers of the shards that an error stands for. -/
def DefShards.Explains : DefWriteError → Prop
  | .sharded report => report.failed = report.errs.map ShardErr.shard ∧
      ∀ err ∈ report.errs, shards.Fails (range store.shards) err
  | .shard err => shards.Fails (range store.shards) err
  | .inUse _ _ runs => 0 < runs ∧ runs = shards.totalRuns store
  | .preflight err => ∃ shard < store.shards, shards.name shard = err.shard ∧
      shards.replacement shard = .fails err.err
  | .refused _ _ errs => ∀ err, err ∈ errs ↔ ∃ shard < store.shards,
      shards.name shard = err.shard ∧ shards.purgeRefusal shard = some err.err

/-- What a caller may read from the answer. A shard is written only if all shards let the write
begin and its own succeeds, and no error comes without the shards' answers for it. -/
structure Truthful (write : DefWrite) (answer : Option DefWriteError × List Nat) : Prop where
  complete : answer.1 = none ↔ ∀ shard < store.shards, shard ∈ answer.2
  wrote : ∀ shard ∈ answer.2,
    shards.Admits store write ∧ shard < store.shards ∧ shards.write shard = none
  succeeds : shards.Admits store write → (∀ shard < store.shards, shards.write shard = none) →
    answer.1 = none
  reported : ∀ report, answer.1 = some (.sharded report) →
    (report.succeeded ++ report.failed ++ report.notAttempted).Perm
        ((range store.shards).map shards.name) ∧
      report.succeeded = answer.2.map shards.name
  explained : ∀ err, answer.1 = some err → shards.Explains store err
  untouched : ∀ err, answer.1 = some err → (∀ report, err ≠ .sharded report) → answer.2 = []

theorem answer_eq_none_iff {report : ShardedDefWriteError} :
    report.answer = none ↔ report.failed = [] := by
  grind [ShardedDefWriteError.answer]

/-- The shards of a run of the loop over all shards are written as the answer says. -/
theorem FannedOut.truthful {write : DefWrite} {order : List Nat} {report : ShardedDefWriteError}
    {result : ShardedDefWriteError × List Nat} (admits : shards.Admits store write)
    (all : order.Perm (range store.shards))
    (fresh : report.succeeded = [] ∧ report.failed = [] ∧ report.notAttempted = [] ∧
      report.errs = [])
    (fanned : FannedOut shards order report [] result) :
    Truthful store shards write (result.1.answer, result.2) := by
  have partition : (result.1.succeeded ++ result.1.failed ++ result.1.notAttempted).Perm
      ((range store.shards).map shards.name) := by
    simpa [fresh] using fanned.partition.trans (by simpa [fresh] using all.map shards.name)
  have succeeded := fanned.succeeded fresh.1
  have failed := fanned.failed (by simp [fresh])
  have errs : ∀ err ∈ result.1.errs, shards.Fails (range store.shards) err := by
    intro err member
    obtain ⟨shard, inside, fails⟩ := (fanned.errs err member).resolve_left (by simp [fresh])
    exact ⟨shard, all.mem_iff.mp inside, fails⟩
  constructor
  · constructor
    · intro none shard inside
      rw [(fanned.complete (answer_eq_none_iff.mp none)).2]
      exact all.mem_iff.mpr (mem_range.mpr inside)
    · intro every
      -- As many shards are written as there are, so none is left to fail.
      have many := (nodup_range.subperm fun shard inside =>
        every shard (mem_range.mp inside)).length_le
      have few := partition.length_eq
      simp only [succeeded, length_append, length_map, length_range] at many few
      exact answer_eq_none_iff.mpr (length_eq_zero_iff.mp (by omega))
  · intro shard member
    obtain ⟨inside, wrote⟩ := (fanned.wrote shard member).resolve_left not_mem_nil
    exact ⟨admits, mem_range.mp (all.mem_iff.mp inside), wrote⟩
  · intro _ every
    have clean : result.1.errs = [] := by
      refine eq_nil_iff_forall_not_mem.mpr fun err member => ?_
      obtain ⟨shard, inside, _, fails⟩ := errs err member
      cases (every shard (mem_range.mp inside)).symm.trans fails
    exact answer_eq_none_iff.mpr (by rw [failed, clean, map_nil])
  · intro other answered
    obtain rfl : result.1 = other := by grind [ShardedDefWriteError.answer]
    exact ⟨partition, succeeded⟩
  · intro err answered
    simp only [ShardedDefWriteError.answer] at answered
    split at answered
    · cases answered
    · split at answered <;> cases answered
      · rename_i single
        exact errs _ (by simp [single])
      · exact ⟨failed, errs⟩
  · intro err answered bare
    have none : result.1.succeeded = [] := by grind [ShardedDefWriteError.answer]
    simpa [succeeded] using none

theorem defShards_perm : (store.defShards name).Perm (range store.shards) := by
  rw [ShardedStore.defShards, ← nodup_range.erase_eq_filter]
  exact (perm_cons_erase (mem_range.mpr (Nat.mod_lt _ store.positive))).symm

/-- A write to every shard that begins or ends with the designated one. -/
theorem fanOutDefWrite_truthful {write : DefWrite} (admits : shards.Admits store write) (op : String)
    (designatedFirst : Bool) :
    let answer := fanOutDefWrite store shards name version op designatedFirst
    Truthful store shards write answer ∧
      (designatedFirst = true → answer.2 ≠ [] → store.getShard name ∈ answer.2) ∧
      (designatedFirst = false → store.getShard name ∈ answer.2 → answer.1 = none) := by
  have apart : store.getShard name ∉ (store.defShards name).tail := by
    simp [ShardedStore.defShards]
  have all := defShards_perm store name
  cases designatedFirst with
  | true =>
    have fanned := fanOutLoop_fannedOut shards (store.getShard name) true (store.defShards name)
    exact ⟨(fanned _ []).truthful store shards admits all ⟨rfl, rfl, rfl, rfl⟩,
      fun _ => fanOutLoop_first _ _ _ _, nofun⟩
  | false =>
    have fanned := fanOutLoop_fannedOut shards (store.getShard name) false
      ((store.defShards name).tail ++ [store.getShard name])
    exact ⟨(fanned _ []).truthful store shards admits (perm_append_comm.trans all)
      ⟨rfl, rfl, rfl, rfl⟩, nofun,
      fun _ last => answer_eq_none_iff.mpr (fanOutLoop_last _ _ _ _ _ apart not_mem_nil last)⟩

/-- The count of open runs fails at a shard that cannot say, or is the sum over the shards. -/
theorem openRuns_cases (order : List Nat) :
    (∃ shard ∈ order, ∃ err, shards.replacement shard = .fails err ∧
      openRuns shards order = .error ⟨shards.name shard, err⟩) ∨
    (∀ shard ∈ order, ∀ err, shards.replacement shard ≠ .fails err) ∧
      openRuns shards order = .ok (order.map fun shard => (shards.replacement shard).runs).sum := by
  induction order with
  | nil => exact .inr ⟨by simp, rfl⟩
  | cons shard rest ih =>
    cases answer : shards.replacement shard with
    | fails err => exact .inl ⟨shard, mem_cons_self, err, answer, by simp [openRuns, answer]⟩
    | passes | inUse _ =>
      rcases ih with ⟨other, member, err, fails, stopped⟩ | ⟨none, counted⟩
      · refine .inl ⟨other, mem_cons_of_mem _ member, err, fails, ?_⟩
        simp [openRuns, answer, stopped]
      · refine .inr ⟨by simpa [answer] using none, ?_⟩
        simp [openRuns, answer, counted, Replacement.runs]

/-- A deploy, a deprecation or a purge answers that all is well exactly if every shard is written,
which it is if all shards let it begin and no write fails. A report puts each shard in one of its
lists and names those that are written and those whose write failed, and after any other error
none is written. Where anything is deployed or deprecated it is so on the designated shard, and
what is purged there is purged everywhere. -/
theorem def_writes_reported (write : DefWrite) :
    let answer := defWrite store shards name version write
    Truthful store shards write answer ∧
      match write with
      | .purgeWorkflowDef => store.getShard name ∈ answer.2 → ∀ shard < store.shards, shard ∈ answer.2
      | _ => answer.2 ≠ [] → store.getShard name ∈ answer.2 := by
  have fanned := fun write => @fanOutDefWrite_truthful store shards name version write
  have all : ∀ shard, shard ∈ store.defShards name ↔ shard < store.shards := fun shard =>
    (defShards_perm store name).mem_iff.trans mem_range
  -- A refusal before the writes leaves every shard as it is, and there is one.
  have refused : ∀ err : DefWriteError, (∀ report, err ≠ .sharded report) →
      ¬shards.Admits store write → shards.Explains store err →
        Truthful store shards write (some err, []) := fun err bare shut explains =>
    ⟨by simpa using ⟨0, store.positive⟩, nofun, fun admits => absurd admits shut, by grind,
      by rintro _ ⟨⟩; exact explains, fun _ _ _ => rfl⟩
  cases write with
  | deployWorkflowDef =>
    have total : ((store.defShards name).map fun shard => (shards.replacement shard).runs).sum =
        shards.totalRuns store := ((defShards_perm store name).map _).sum_eq
    simp only [defWrite]
    rcases openRuns_cases shards (store.defShards name) with
      ⟨shard, member, err, fails, stopped⟩ | ⟨none, counted⟩
    · rw [stopped]
      have inside := (all shard).mp member
      exact ⟨refused _ nofun (fun admits => admits.1 shard inside err fails)
        ⟨shard, inside, rfl, fails⟩, nofun⟩
    · rw [counted, total]
      dsimp only
      split
      · rename_i positive
        exact ⟨refused _ nofun (fun admits => not_le.mpr positive admits.2) ⟨positive, rfl⟩, nofun⟩
      · rename_i few
        have admits : shards.Admits store .deployWorkflowDef :=
          ⟨fun shard inside => none shard ((all shard).mpr inside), not_lt.mp few⟩
        exact ⟨(fanned _ admits _ true).1, (fanned _ admits _ true).2.1 rfl⟩
  | markVersionDeprecated =>
    have admits : shards.Admits store .markVersionDeprecated := trivial
    exact ⟨(fanned _ admits _ true).1, (fanned _ admits _ true).2.1 rfl⟩
  | purgeWorkflowDef =>
    simp only [defWrite]
    have refusals : ∀ err, err ∈ ((store.defShards name).filterMap fun shard =>
        (shards.purgeRefusal shard).map (ShardErr.mk (shards.name shard))) ↔
          ∃ shard < store.shards, shards.name shard = err.shard ∧
            shards.purgeRefusal shard = some err.err := by
      intro err
      obtain ⟨shard, text⟩ := err
      simp [all, and_comm]
    split
    · rename_i none
      rw [none] at refusals
      have admits : shards.Admits store .purgeWorkflowDef := by
        intro shard inside
        cases refusal : shards.purgeRefusal shard with
        | none => rfl
        | some err => cases (refusals ⟨_, err⟩).mpr ⟨shard, inside, rfl, refusal⟩
      obtain ⟨truthful, -, last⟩ := fanned _ admits "purge_workflow_def" false
      exact ⟨truthful, fun purged => truthful.complete.mp (last rfl purged)⟩
    · rename_i some
      refine ⟨refused _ nofun (fun admits => some (eq_nil_iff_forall_not_mem.mpr ?_)) refusals, nofun⟩
      intro err member
      obtain ⟨shard, inside, _, refusal⟩ := (refusals err).mp member
      cases (admits shard inside).symm.trans refusal

end Definitions

end Cleat.Store
