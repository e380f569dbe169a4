import Cleat.Durable.Among
import Cleat.Store.Sound

/-!
# The close of a parent

When a run closes, its children are closed by the policy under which they were started. A child
with the policy to terminate is settled, or is marked if it owes its defers, and the close goes
on with the children of those that were settled.

The cascade first lists the children that it is going to settle, then closes the children in
three statements, then releases what the listed children held, and then goes on with the
children of each listed child. Each is a transaction of its own, and the runs go on in between.
A statement chooses its rows as they were when it began. When it has locked a row it looks at
the lease again, but at the events as they were.
-/
namespace Cleat.Store

open Durable Durable.Program

/-- The policies under which children are started. -/
inductive ParentClosePolicy where
  | abandon | terminate | requestCancel
deriving DecidableEq, Repr

/-- A run among the others, with the concurrency keys that it holds. -/
structure RunRow where
  parentWorkflowID : Option String := none
  parentClosePolicy : ParentClosePolicy := .abandon
  run : StoredRun
  concurrencyKeys : List String := []
  sound : Sound run.lease

def RunRow.apply (row : RunRow) (nowMs : Int) (call : StoreCall) : RunRow :=
  { row with run := call.apply nowMs row.run, sound := row.sound.apply }

/-- The run holds these keys and no others. -/
def RunRow.holding (row : RunRow) (held : List String) : RunRow := { row with concurrencyKeys := held }

/-- The run is no longer kept for a worker. -/
def RunRow.unstuck (row : RunRow) : RunRow :=
  { row with
    run := { row.run with lease := { row.run.lease with stickyWorkerID := none } }
    sound := ⟨row.sound.unheld, row.sound.outcome, row.sound.noted⟩ }

/-- The runs of a store. No two have one name. -/
structure RunTable where
  rows : List RunRow
  distinct : (rows.map (·.run.id)).Nodup

namespace RunTable

def find (table : RunTable) (id : String) : Option RunRow :=
  table.rows.find? fun row => row.run.id = id

/-- Change the run with this name. -/
def change (table : RunTable) (id : String) (change : RunRow → RunRow)
    (names : ∀ row, (change row).run.id = row.run.id) : RunTable where
  rows := table.rows.map fun row => if row.run.id = id then change row else row
  distinct := by
    have same : (table.rows.map fun row => if row.run.id = id then change row else row).map
        (·.run.id) = table.rows.map (·.run.id) := by
      rw [List.map_map]
      refine List.map_congr_left fun row _ => ?_
      simp only [Function.comp_apply]
      split
      · exact names row
      · rfl
    rw [same]
    exact table.distinct

def insert (table : RunTable) (row : RunRow)
    (fresh : ∀ other ∈ table.rows, other.run.id ≠ row.run.id) : RunTable where
  rows := row :: table.rows
  distinct := by
    rw [List.map_cons, List.nodup_cons]
    refine ⟨fun taken => ?_, table.distinct⟩
    obtain ⟨other, inside, same⟩ := List.mem_map.mp taken
    exact fresh other inside same

def call (table : RunTable) (id : String) (nowMs : Int) (call : StoreCall) : RunTable :=
  table.change id (·.apply nowMs call) fun _ => apply_carries.id

end RunTable

/-! ## The statements of the cascade -/

/-- The three statements that close the children of a run. -/
inductive CloseArm where
  | terminate | terminateDeferPhase | requestCancel
deriving DecidableEq, Repr

def CloseArm.policy : CloseArm → ParentClosePolicy
  | .terminate => .terminate
  | .terminateDeferPhase => .terminate
  | .requestCancel => .requestCancel

/-- The children that a statement is for, as the whole condition of its text. -/
def CloseArm.selects (arm : CloseArm) (parentWorkflowID : String) (row : RunRow) : Bool :=
  row.parentWorkflowID = some parentWorkflowID && row.parentClosePolicy = arm.policy &&
    !row.run.lease.status.settled &&
    match arm with
    | .terminate => !row.run.owesDefers
    | .terminateDeferPhase => row.run.owesDefers
    | .requestCancel => true

/-- What a statement does to a row that it has locked, with the events that it saw. -/
def CloseArm.call (arm : CloseArm) (seen : StoredRun) (outcomeMsg : String) : StoreCall :=
  match arm with
  | .terminate => .closeTerminated seen.hasDefers seen.compacted outcomeMsg
  | .terminateDeferPhase => .closeIntoDeferPhase seen.hasDefers seen.compacted outcomeMsg
  | .requestCancel => .closeRequestingCancel

def RunTable.selected (table : RunTable) (arm : CloseArm) (parentWorkflowID : String) :
    List String :=
  (table.rows.filter (arm.selects parentWorkflowID)).map (·.run.id)

/-- A statement that is under way: the rows as it sees them, and the time of its transaction. -/
structure Statement where
  snapshot : RunTable
  nowMs : Int

/-- The runs, and the statement of the cascade that is under way. -/
structure CloseState where
  table : RunTable
  statement : Option Statement := none

/-- What the cascade asks of the store. A statement begins with the rows that it is for, and goes
on with one row after the other. -/
inductive CloseQuery where
  | childrenClosedByTerminate (parentWorkflowID : String)
  | begin (arm : CloseArm) (parentWorkflowID : String)
  | update (arm : CloseArm) (id outcomeMsg : String)
  | clearStickyWorker (id : String)
  | releaseWorkflowConcurrencyKeys (id : String)
deriving DecidableEq, Repr

/-- A statement that fails is rolled back, and answers with nothing. -/
abbrev CloseAnswer : CloseQuery → Type
  | .childrenClosedByTerminate _ => Option (List String)
  | .begin _ _ => Option (List String)
  | .update _ _ _ => Unit
  | .clearStickyWorker _ => Bool
  | .releaseWorkflowConcurrencyKeys _ => Bool

abbrev Close := Program CloseQuery CloseAnswer

namespace CloseState

/-- The statement reaches a row: it locks the row and looks at its lease again. -/
def update (state : CloseState) (arm : CloseArm) (id outcomeMsg : String) : CloseState :=
  match state.statement with
  | none => state
  | some statement =>
    match statement.snapshot.find id with
    | none => state
    | some seen =>
      { state with
        table := state.table.call id statement.nowMs (arm.call seen.run outcomeMsg) }

def clearStickyWorker (state : CloseState) (id : String) : CloseState :=
  { state with table := state.table.change id RunRow.unstuck fun _ => rfl }

def releaseWorkflowConcurrencyKeys (state : CloseState) (id : String) : CloseState :=
  { state with table := state.table.change id (·.holding []) fun _ => rfl }

/-- The answers of the store. Rows come in any order. -/
def Serves (state : CloseState) : (query : CloseQuery) → CloseAnswer query → CloseState → Prop
  | .childrenClosedByTerminate parent, answer, after =>
    after = state ∧ ∀ ids, answer = some ids → ids.Perm (state.table.selected .terminate parent)
  | .begin arm parent, answer, after =>
    match answer with
    | none => after = state
    | some ids =>
      ids.Perm (state.table.selected arm parent) ∧
        ∃ nowMs, after = { state with statement := some ⟨state.table, nowMs⟩ }
  | .update arm id outcomeMsg, _, after => after = state.update arm id outcomeMsg
  | .clearStickyWorker id, cleared, after =>
    after = if cleared then state.clearStickyWorker id else state
  | .releaseWorkflowConcurrencyKeys id, released, after =>
    after = if released then state.releaseWorkflowConcurrencyKeys id else state

end CloseState

/-- No statement failed. -/
def CloseQuery.succeeds : (query : CloseQuery) → CloseAnswer query → Bool
  | .childrenClosedByTerminate _, answer => answer.isSome
  | .begin _ _, answer => answer.isSome
  | .update _ _ _, _ => true
  | .clearStickyWorker _, cleared => cleared
  | .releaseWorkflowConcurrencyKeys _, released => released

/-- What goes on while the cascade is under way: calls on any run that reopen none, keys that
runs take and give back, and runs that are started. -/
inductive Interferes : RunTable → RunTable → Prop where
  | call (table : RunTable) (id : String) (nowMs : Int) (call : StoreCall)
      (keeps : call.reopens = false) : Interferes table (table.call id nowMs call)
  | keys (table : RunTable) (id : String) (held : List String) :
      Interferes table (table.change id (·.holding held) fun _ => rfl)
  | started (table : RunTable) (row : RunRow)
      (fresh : ∀ other ∈ table.rows, other.run.id ≠ row.run.id) :
      Interferes table (table.insert row fresh)

/-- The store while the cascade is under way. -/
def closeWorld : World CloseQuery CloseAnswer Unit CloseState where
  Serves _ state observed after := state.Serves observed.query observed.answer after
  Moves state after := Interferes state.table after.table ∧ after.statement = state.statement

/-! ## The cascade -/

/-- What a child is told of the outcome of its parent. -/
def parentOutcomeMessage : RunStatus → String
  | .done => "parent workflow completed"
  | .failed => "parent workflow failed"
  | .deadLettered => "parent workflow was dead-lettered"
  | .terminated => "parent workflow was terminated"
  | .cancelled => "parent workflow was cancelled"
  | status => "parent workflow closed (status " ++ statusName status ++ ")"

/-- Run one statement. The value says if it did not fail. -/
def runParentClosePolicyStep (arm : CloseArm) (parentWorkflowID outcomeMsg : String) :
    Close Bool :=
  .ask (.begin arm parentWorkflowID) fun began =>
    match began with
    | none => .done false
    | some ids =>
      each (fun id => .ask (.update arm id outcomeMsg) fun _ => .done ()) ids >>= fun _ =>
        .done true

def releaseWorkflowResources (id : String) : Close Unit :=
  .ask (.clearStickyWorker id) fun _ =>
    .ask (.releaseWorkflowConcurrencyKeys id) fun _ => .done ()

/-- Close the children of a run. The value names the children whose own children come next. -/
def closeChildren (parentWorkflowID outcomeMsg : String) : Close (List String) :=
  .ask (.childrenClosedByTerminate parentWorkflowID) fun listed =>
    runParentClosePolicyStep .terminate parentWorkflowID outcomeMsg >>= fun closed =>
    runParentClosePolicyStep .terminateDeferPhase parentWorkflowID outcomeMsg >>= fun _ =>
    runParentClosePolicyStep .requestCancel parentWorkflowID outcomeMsg >>= fun _ =>
    each releaseWorkflowResources (if closed then listed.getD [] else []) >>= fun _ =>
      .done (if closed then listed.getD [] else [])

/-- Close the children of a run and go on with theirs, for as many levels as remain. At the limit
the levels below are left as they are. -/
def enforceParentClosePolicyAt : Nat → String → String → Close Unit
  | 0, parentWorkflowID, outcomeMsg => closeChildren parentWorkflowID outcomeMsg >>= fun _ => .done ()
  | remaining + 1, parentWorkflowID, outcomeMsg =>
    closeChildren parentWorkflowID outcomeMsg >>= fun terminated =>
      each (fun id => enforceParentClosePolicyAt remaining id (parentOutcomeMessage .terminated))
        terminated

def maxParentCloseDepth : Nat := 64

def enforceParentClosePolicy (parentWorkflowID outcomeMsg : String) : Close Unit :=
  enforceParentClosePolicyAt maxParentCloseDepth parentWorkflowID outcomeMsg

end Cleat.Store
