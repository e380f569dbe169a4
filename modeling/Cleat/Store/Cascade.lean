import Cleat.Store.ParentClose
import Mathlib.Data.List.Nodup

/-!
# What the close of a parent reaches

The runs that the cascade is to close are followed through all that goes on. A run is never lost,
it keeps its parent and its policy, and once it is closed it stays so. So it is enough that each
child was closed by one of the two statements for it at some time.
-/
namespace Cleat.Store

open Durable Durable.Program List RunTable CloseArm RunRow CloseState

/-! ## Runs that go on -/

/-- What a run may become while the cascade is under way. -/
structure RunRow.Becomes (row later : RunRow) : Prop where
  name : later.run.id = row.run.id
  parent : later.parentWorkflowID = row.parentWorkflowID
  policy : later.parentClosePolicy = row.parentClosePolicy
  closed : Closed row.run.lease → Closed later.run.lease
  defers : row.run.deferring = true → later.run.deferring = true ∨ Closed later.run.lease

theorem RunRow.Becomes.refl (row : RunRow) : row.Becomes row :=
  ⟨rfl, rfl, rfl, fun closed => closed, .inl⟩

theorem RunRow.Becomes.trans {row later last : RunRow} (first : row.Becomes later)
    (second : later.Becomes last) : row.Becomes last where
  name := second.name.trans first.name
  parent := second.parent.trans first.parent
  policy := second.policy.trans first.policy
  closed := second.closed ∘ first.closed
  defers owes := (first.defers owes).elim second.defers fun closed => .inr (second.closed closed)

/-- A call that reopens nothing lets a run go on. -/
theorem RunRow.becomes_apply (row : RunRow) {nowMs : Int} {call : StoreCall}
    (keeps : call.reopens = false) : row.Becomes (row.apply nowMs call) where
  name := apply_carries.id
  parent := rfl
  policy := rfl
  closed closed := closed.apply row.sound keeps
  defers owes := (apply_carries.defers owes).imp_right .inl

namespace RunTable

/-- Every run is still there, as it may have become. -/
def Lasts (table later : RunTable) : Prop :=
  ∀ row ∈ table.rows, ∃ other ∈ later.rows, row.Becomes other

theorem Lasts.refl (table : RunTable) : table.Lasts table :=
  fun row inside => ⟨row, inside, .refl row⟩

variable {later : RunTable} {other row : RunRow}

theorem Lasts.trans {table last : RunTable} (first : table.Lasts later) (second : later.Lasts last) :
    table.Lasts last := by
  intro row inside
  obtain ⟨other, inside, becomes⟩ := first row inside
  obtain ⟨final, inside, becomes'⟩ := second other inside
  exact ⟨final, inside, becomes.trans becomes'⟩

variable {table : RunTable} {id : String} (change : RunRow → RunRow)
  (names : ∀ row, (change row).run.id = row.run.id)

theorem mem_change :
    other ∈ (table.change id change names).rows ↔
      ∃ row ∈ table.rows, other = if row.run.id = id then change row else row := by
  unfold RunTable.change
  rw [mem_map]
  exact exists_congr fun row => and_congr_right fun _ => eq_comm

theorem lasts_change (becomes : ∀ row ∈ table.rows, row.run.id = id → row.Becomes (change row)) :
    table.Lasts (table.change id change names) := by
  intro row inside
  by_cases named : row.run.id = id
  · refine ⟨change row, (mem_change change names).mpr ⟨row, inside, ?_⟩, becomes row inside named⟩
    rw [if_pos named]
  · refine ⟨row, (mem_change change names).mpr ⟨row, inside, ?_⟩, .refl row⟩
    rw [if_neg named]

theorem lasts_call {nowMs : Int} {call : StoreCall} (keeps : call.reopens = false) :
    table.Lasts (table.call id nowMs call) :=
  lasts_change _ _ fun row _ _ => row.becomes_apply keeps

/-- The run with this name is closed. -/
def Closes (table : RunTable) (id : String) : Prop :=
  ∃ row ∈ table.rows, row.run.id = id ∧ Closed row.run.lease

theorem Lasts.closes (lasts : table.Lasts later) (closes : table.Closes id) :
    later.Closes id := by
  obtain ⟨row, inside, named, closed⟩ := closes
  obtain ⟨other, inside, becomes⟩ := lasts row inside
  exact ⟨other, inside, becomes.name.trans named, becomes.closed closed⟩

theorem unique (inside : row ∈ table.rows) (inside' : other ∈ table.rows)
    (same : row.run.id = other.run.id) : row = other :=
  inj_on_of_nodup_map table.distinct inside inside' same

theorem find_eq_some (inside : row ∈ table.rows) :
    table.find row.run.id = some row := by
  unfold find
  cases found : table.rows.find? fun other => other.run.id = row.run.id with
  | none =>
    have missing := find?_eq_none.mp found row inside
    simp at missing
  | some other =>
    have named : other.run.id = row.run.id := by simpa using find?_some found
    rw [table.unique (mem_of_find?_eq_some found) inside named]

end RunTable

variable {table later : RunTable} {past : List Asked} {id parent : String} {chain : List String}

theorem Interferes.lasts (interferes : Interferes table later) :
    table.Lasts later := by
  cases interferes with
  | call id nowMs call keeps => exact lasts_call keeps
  | keys id held => exact lasts_change (·.holding held) (fun _ => rfl) fun row _ _ =>
    ⟨rfl, rfl, rfl, fun closed => closed, .inl⟩
  | started row fresh => exact fun other inside => ⟨other, mem_cons_of_mem _ inside, .refl other⟩

/-! ## One statement -/

section Statements

variable {arm : CloseArm} {parent : String} {row seen : RunRow} {nowMs : Int} {outcomeMsg : String}

theorem CloseArm.call_keeps (arm : CloseArm) (run : StoredRun) (outcomeMsg : String) :
    (arm.call run outcomeMsg).reopens = false := by
  cases arm <;> rfl

theorem CloseArm.selects_iff :
    arm.selects parent row = true ↔ row.parentWorkflowID = some parent ∧
      row.parentClosePolicy = arm.policy ∧ row.run.lease.status.settled = false ∧
      (arm = .terminate → row.run.owesDefers = false) ∧
      (arm = .terminateDeferPhase → row.run.owesDefers = true) := by
  unfold selects
  cases arm <;> simp [and_assoc]

/-- An open run owes its defers if it has any. -/
theorem RunRow.owes_of_open (row : RunRow) (open' : ¬ Closed row.run.lease) :
    row.run.owesDefers = row.run.deferring := by
  unfold StoredRun.owesDefers deferPhaseOwed
  rw [claimable_of_open row.sound open']
  rfl

/-- A statement of the policy to terminate closes the rows that it is for.

Proof: the row may have been closed since the statement began. If it is open, then so was the row
that the statement saw. That one had no defers or had some, as the statement asks, and the
statement finds the same again when it looks at the lease of the row. -/
theorem closes_selected (selected : arm.selects parent seen = true) (becomes : seen.Becomes row)
    (terminates : arm ≠ .requestCancel) :
    Closed (row.apply nowMs (arm.call seen.run outcomeMsg)).run.lease := by
  by_cases closed : Closed row.run.lease
  · exact closed.apply row.sound (arm.call_keeps _ _)
  · have open' : ¬ Closed seen.run.lease := fun before => closed (becomes.closed before)
    have unsettled : row.run.lease.status.settled = false := by
      simpa using fun settled => closed (.inl settled)
    have again : deferPhaseOwed row.run.lease.status seen.run.hasDefers seen.run.compacted =
        seen.run.owesDefers := by
      rw [seen.owes_of_open open']
      unfold deferPhaseOwed
      rw [claimable_of_open row.sound closed]
      rfl
    obtain ⟨_, _, _, none, some⟩ := CloseArm.selects_iff.mp selected
    cases arm with
    | terminate =>
      rw [none rfl] at again
      have stopped : (row.apply nowMs (CloseArm.terminate.call seen.run outcomeMsg)).run.lease =
          row.run.lease.stopped .terminated := by
        simp [RunRow.apply, CloseArm.call, StoreCall.apply, StoreCall.perform, closeTerminated,
          unsettled, again]
      rw [stopped]
      exact .inl rfl
    | terminateDeferPhase =>
      rw [some rfl] at again
      have marked : (row.apply nowMs
          (CloseArm.terminateDeferPhase.call seen.run outcomeMsg)).run.lease =
            row.run.lease.marked .terminated nowMs := by
        simp [RunRow.apply, CloseArm.call, StoreCall.apply, StoreCall.perform,
          closeIntoDeferPhase, unsettled, again]
      rw [marked]
      exact .inr rfl
    | requestCancel => exact absurd rfl terminates

/-- A statement settles a row only if it is the one for children without defers, and only if the
row is terminating or had no defers when the statement began. -/
theorem settles_row (unsettled : row.run.lease.status.settled = false)
    (settles : (row.apply nowMs (arm.call seen.run outcomeMsg)).run.lease.status.settled = true) :
    arm = .terminate ∧
      (row.run.lease.status = .terminating ∨ seen.run.deferring = false) := by
  cases arm with
  | terminate =>
    refine ⟨rfl, ?_⟩
    simp only [RunRow.apply, CloseArm.call, StoreCall.apply, StoreCall.perform, closeTerminated,
      unsettled, Bool.not_false, Bool.true_and] at settles
    cases owed : deferPhaseOwed row.run.lease.status seen.run.hasDefers seen.run.compacted with
    | true => simp [owed, unsettled] at settles
    | false =>
      unfold deferPhaseOwed at owed
      cases status : row.run.lease.status <;>
        simp_all [claimableStatus, RunStatus.settled, StoredRun.deferring]
  | terminateDeferPhase =>
    simp only [RunRow.apply, CloseArm.call, StoreCall.apply, StoreCall.perform,
      closeIntoDeferPhase, unsettled, Bool.not_false, Bool.true_and] at settles
    split at settles
    · cases settles
    · rw [unsettled] at settles
      cases settles
  | requestCancel =>
    simp only [RunRow.apply, CloseArm.call, StoreCall.apply, StoreCall.perform,
      closeRequestingCancel, unsettled, Bool.not_false, if_true] at settles
    cases settles

end Statements

/-! ## The questions of the cascade -/

/-- Between two questions the runs go on, and the statement stays as it is. -/
def Onward (state later : CloseState) : Prop :=
  state.table.Lasts later.table ∧ later.statement = state.statement

/-- The store answers and does not fail. -/
def Succeeds (state : CloseState) (observed : Observation CloseQuery CloseAnswer)
    (after : CloseState) : Prop :=
  state.Serves observed.query observed.answer after ∧
    observed.query.succeeds observed.answer = true

abbrev Asked := Served CloseQuery CloseAnswer Unit CloseState

/-- A child that the cascade settles is a child of the policy to terminate, and it is terminating
or had no defers when the statement began. -/
def SettlesRightly (past : List Asked) (row later : RunRow) : Prop :=
  row.run.lease.status.settled = false → later.run.lease.status.settled = true →
    ∃ parent, row.parentWorkflowID = some parent ∧ row.parentClosePolicy = .terminate ∧
      ∃ began ∈ past, began.observed.query = .begin .terminate parent ∧
        ∃ seen ∈ began.before.table.rows, seen.run.id = row.run.id ∧
          (row.run.lease.status = .terminating ∨ seen.run.deferring = false)

/-- The cascade listed the run as one to settle: a child of the policy to terminate that had not
settled and owed no defers. -/
def Listed (past : List Asked) (id : String) : Prop :=
  ∃ parent, ∃ listing ∈ past, listing.observed.query = .childrenClosedByTerminate parent ∧
    ∃ seen ∈ listing.before.table.rows, seen.run.id = id ∧
      CloseArm.terminate.selects parent seen = true

theorem Listed.mono {later : List Asked} (listed : Listed past id) (kept : past ⊆ later) :
    Listed later id := by
  obtain ⟨parent, listing, inside, seen⟩ := listed
  exact ⟨parent, listing, kept inside, seen⟩

/-- A child whose keys the cascade releases was listed as one to settle, and it is closed. -/
def ReleasesRightly (past : List Asked) (row later : RunRow) : Prop :=
  later.concurrencyKeys ≠ row.concurrencyKeys →
    Listed past row.run.id ∧ Closed row.run.lease

/-- What one question of the cascade does to a run, it does rightly. -/
def Rightly (past : List Asked) (asked : Asked) : Prop :=
  ∀ row ∈ asked.before.table.rows, ∀ later ∈ asked.after.table.rows,
    later.run.id = row.run.id → SettlesRightly past row later ∧ ReleasesRightly past row later

section Questions

variable {state after : CloseState} {past : List Asked}

theorem onward_of_moves {later : CloseState}
    (moved : Relation.ReflTransGen closeWorld.Moves state later) : Onward state later := by
  induction moved with
  | refl => exact ⟨.refl _, rfl⟩
  | tail _ moves ih => exact ⟨ih.1.trans moves.1.lasts, moves.2.trans ih.2⟩

variable {arm : CloseArm} {id outcomeMsg parent : String} {asked : Asked} {row : RunRow}

theorem CloseState.lasts_update :
    Onward state (state.update arm id outcomeMsg) := by
  unfold update
  split
  · exact ⟨.refl _, rfl⟩
  · split
    · exact ⟨.refl _, rfl⟩
    · exact ⟨lasts_call (arm.call_keeps _ _), rfl⟩

theorem CloseState.lasts_clear :
    state.table.Lasts (state.clearStickyWorker id).table :=
  lasts_change unstuck (fun _ => rfl) fun _ _ _ =>
    ⟨rfl, rfl, rfl, fun closed => closed, .inl⟩

theorem CloseState.lasts_release :
    state.table.Lasts (state.releaseWorkflowConcurrencyKeys id).table :=
  lasts_change (·.holding []) (fun _ => rfl) fun _ _ _ =>
    ⟨rfl, rfl, rfl, fun closed => closed, .inl⟩

theorem Succeeds.lasts {observed : Observation CloseQuery CloseAnswer}
    (served : Succeeds state observed after) : state.table.Lasts after.table := by
  obtain ⟨query, answer⟩ := observed
  obtain ⟨served, _⟩ := served
  cases query with
  | childrenClosedByTerminate parent =>
    rw [served.1]
    exact .refl _
  | begin arm parent =>
    cases answer with
    | none =>
      rw [show after = state from served]
      exact .refl _
    | some ids =>
      obtain ⟨_, nowMs, rfl⟩ := served
      exact .refl _
  | update arm id outcomeMsg =>
    rw [show after = state.update arm id outcomeMsg from served]
    exact lasts_update.1
  | clearStickyWorker id =>
    rw [show after = if answer then state.clearStickyWorker id else state from served]
    split
    · exact lasts_clear
    · exact .refl _
  | releaseWorkflowConcurrencyKeys id =>
    rw [show after = if answer then state.releaseWorkflowConcurrencyKeys id else state
      from served]
    split
    · exact lasts_release
    · exact .refl _

/-- A question that changes no status and no keys is right. -/
theorem rightly_of_unchanged (unchanged : ∀ row ∈ asked.before.table.rows,
    ∀ later ∈ asked.after.table.rows, later.run.id = row.run.id →
      later.run.lease.status = row.run.lease.status ∧
        later.concurrencyKeys = row.concurrencyKeys) : Rightly past asked := by
  intro row inside later inside' same
  obtain ⟨status, keys⟩ := unchanged row inside later inside' same
  constructor
  · intro unsettled settled
    rw [status, unsettled] at settled
    cases settled
  · intro changed
    exact absurd keys changed

/-- A question that changes no run is right. -/
theorem rightly_of_same (same : asked.after.table = asked.before.table) :
    Rightly past asked := by
  refine rightly_of_unchanged fun row inside later inside' named => ?_
  rw [same] at inside'
  rw [unique inside' inside named]
  exact ⟨rfl, rfl⟩

/-- The run that a change leads to. -/
theorem RunTable.eq_of_mem_change {table : RunTable} (change : RunRow → RunRow)
    (names : ∀ row, (change row).run.id = row.run.id) {later : RunRow} (inside : row ∈ table.rows)
    (inside' : later ∈ (table.change id change names).rows) (same : later.run.id = row.run.id) :
    later = if row.run.id = id then change row else row := by
  obtain ⟨other, found, rfl⟩ := (mem_change change names).mp inside'
  have named : other.run.id = row.run.id := by
    rw [← same]
    split
    · exact (names other).symm
    · rfl
  rw [table.unique found inside named]

/-- The store while a statement is under way: it sees the runs as they were when it began. -/
structure UnderWay (arm : CloseArm) (parent : String) (began : Asked) (past : List Asked)
    (state : CloseState) : Prop where
  asked : began.observed.query = .begin arm parent
  past : began ∈ past
  sees : ∃ nowMs, state.statement = some ⟨began.before.table, nowMs⟩
  lasts : began.before.table.Lasts state.table

/-- A statement reaches a row that it is for. -/
theorem among_update {began : Asked} (underWay : UnderWay arm parent began past state)
    {seen : RunRow} (inside : seen ∈ began.before.table.rows)
    (selected : arm.selects parent seen = true) :
    (Program.ask (.update arm seen.run.id outcomeMsg) fun _ => .done () : Close Unit).Among
      Onward Succeeds Rightly past state fun _ later last =>
        UnderWay arm parent began later last ∧
          (arm ≠ .requestCancel → last.table.Closes seen.run.id) := by
  intro before onward answer after served
  obtain ⟨nowMs, sees⟩ := underWay.sees
  have sees : before.statement = some ⟨began.before.table, nowMs⟩ := onward.2.trans sees
  have lasts : began.before.table.Lasts before.table := underWay.lasts.trans onward.1
  have updated : after = { before with
      table := before.table.call seen.run.id nowMs (arm.call seen.run outcomeMsg) } := by
    have updates : after = before.update arm seen.run.id outcomeMsg := served.1
    rw [updates]
    simp only [update, sees, find_eq_some inside]
  subst updated
  refine ⟨?_, ⟨underWay.asked, mem_append_left _ underWay.past, ⟨nowMs, sees⟩, ?_⟩, ?_⟩
  · intro row inside' later found named
    have changed := eq_of_mem_change (·.apply nowMs (arm.call seen.run outcomeMsg))
      (fun _ => apply_carries.id) inside' found named
    by_cases same : row.run.id = seen.run.id
    · rw [if_pos same] at changed
      subst changed
      refine ⟨fun unsettled settles => ?_, fun keys => absurd rfl keys⟩
      obtain ⟨rfl, reason⟩ := settles_row unsettled settles
      obtain ⟨other, found, becomes⟩ := lasts seen inside
      have itself : other = row := unique found inside' (becomes.name.trans same.symm)
      subst itself
      obtain ⟨parents, policy, _⟩ := selects_iff.mp selected
      exact ⟨parent, becomes.parent.trans parents, becomes.policy.trans policy, began,
        underWay.past, underWay.asked, seen, inside, same.symm, reason⟩
    · rw [if_neg same] at changed
      subst changed
      refine ⟨fun unsettled settled => ?_, fun keys => absurd rfl keys⟩
      rw [unsettled] at settled
      cases settled
  · exact lasts.trans (lasts_call (arm.call_keeps _ _))
  · intro terminates
    obtain ⟨row, found, becomes⟩ := lasts seen inside
    refine ⟨_, (mem_change (·.apply nowMs (arm.call seen.run outcomeMsg))
      fun _ => apply_carries.id).mpr ⟨row, found, rfl⟩, ?_⟩
    rw [if_pos becomes.name]
    exact ⟨apply_carries.id.trans becomes.name, closes_selected selected becomes terminates⟩

theorem among_lasts {α : Type} {program : Close α} {post : α → List Asked → CloseState → Prop}
    (holds : program.Among Onward Succeeds Rightly past state post) :
    program.Among Onward Succeeds Rightly past state fun value later last =>
      state.table.Lasts last.table ∧ past ⊆ later ∧ post value later last :=
  holds.lasting (fun _ => .refl _) (fun first second => first.trans second)
    (fun onward => onward.1) fun served => served.lasts

/-- A statement closes the rows that it was for when it began. -/
theorem among_step (arm : CloseArm) (parent outcomeMsg : String) (past : List Asked)
    (state : CloseState) :
    (runParentClosePolicyStep arm parent outcomeMsg).Among Onward Succeeds Rightly past state
      fun closed _ last => closed = true ∧ ∃ began : RunTable, state.table.Lasts began ∧
        began.Lasts last.table ∧ (arm ≠ .requestCancel → ∀ row ∈ began.rows,
          arm.selects parent row = true → last.table.Closes row.run.id) := by
  intro before onward answer after served
  cases answer with
  | none => cases served.2
  | some ids =>
    obtain ⟨⟨rows, nowMs, rfl⟩, _⟩ := served
    refine ⟨rightly_of_same rfl, (among_bind _ _ _ _ _).mpr ?_⟩
    generalize asks : (⟨before, (), ⟨.begin arm parent, some ids⟩, _⟩ : Asked) = began
    have beganAt : began.before = before := by rw [← asks]
    -- The invariant: the statement still sees the same rows, and has closed those it reached.
    refine (among_each (fun finished later last => UnderWay arm parent began later last ∧
      (arm ≠ .requestCancel → ∀ id ∈ finished, last.table.Closes id)) ?_ ?_).mono ?_
    · refine ⟨⟨by rw [← asks], by simp, ⟨nowMs, by rw [beganAt]⟩, ?_⟩, fun _ id member => ?_⟩
      · rw [beganAt]
        exact .refl _
      · cases member
    · rintro finished id later last member ⟨underWay, closes⟩
      obtain ⟨seen, found, rfl⟩ := mem_map.mp (rows.mem_iff.mp member)
      obtain ⟨inside, selected⟩ := mem_filter.mp found
      rw [← beganAt] at inside
      refine (among_lasts (among_update underWay inside selected)).mono ?_
      rintro _ later last ⟨lasts, _, underWay, closed⟩
      refine ⟨underWay, fun terminates id member => ?_⟩
      rcases mem_append.mp member with earlier | own
      · exact lasts.closes (closes terminates id earlier)
      · rw [mem_singleton.mp own]
        exact closed terminates
    · rintro _ later last ⟨underWay, closes⟩
      have lasts := underWay.lasts
      rw [beganAt] at lasts
      refine ⟨rfl, before.table, onward.1, lasts, fun terminates row inside selected => ?_⟩
      refine closes terminates _ (rows.mem_iff.mpr (mem_map.mpr ⟨row, ?_, rfl⟩))
      exact mem_filter.mpr ⟨inside, selected⟩

/-- What a listed child held is released when it is closed. -/
theorem among_release (listed : Listed past id) (closes : state.table.Closes id) :
    (releaseWorkflowResources id).Among Onward Succeeds Rightly past state fun _ _ _ => True := by
  intro before onward answer after served
  have closes := onward.1.closes closes
  have cleared : after = before.clearStickyWorker id := by
    have clears : after = if answer then before.clearStickyWorker id else before := served.1
    rw [clears, if_pos (show answer = true from served.2)]
  subst cleared
  constructor
  · refine rightly_of_unchanged fun row inside later inside' named => ?_
    rw [eq_of_mem_change unstuck (fun _ => rfl) inside inside' named]
    split <;> exact ⟨rfl, rfl⟩
  · intro before onward answer after served
    have closes := onward.1.closes (lasts_clear.closes closes)
    have released : after = before.releaseWorkflowConcurrencyKeys id := by
      have releases : after =
        if answer then before.releaseWorkflowConcurrencyKeys id else before := served.1
      rw [releases, if_pos (show answer = true from served.2)]
    subst released
    refine ⟨fun row inside later inside' named => ?_, trivial⟩
    have changed :=
      eq_of_mem_change (·.holding []) (fun _ => rfl) inside inside' named
    by_cases same : row.run.id = id
    · refine ⟨fun unsettled settled => ?_, fun _ => ⟨?_, ?_⟩⟩
      · rw [changed, if_pos same] at settled
        rw [show (row.holding []).run.lease.status.settled = false from unsettled] at settled
        cases settled
      · rw [same]
        exact listed.mono (subset_append_left past _)
      · obtain ⟨other, found, name, closed⟩ := closes
        rwa [unique inside found (same.trans name.symm)]
    · rw [if_neg same] at changed
      subst changed
      refine ⟨fun unsettled settled => ?_, fun keys => absurd rfl keys⟩
      rw [unsettled] at settled
      cases settled

/-- A child of the policy to terminate is closed by one of the two statements for it.

Proof: when the first statement begins, the child is closed, has no defers and is settled by it,
or has some. Then it is closed or still has some when the second statement begins. -/
theorem closes_children {first second third last : RunTable} (inside : row ∈ first.rows)
    (child : row.parentWorkflowID = some parent) (policy : row.parentClosePolicy = .terminate)
    (lasts : first.Lasts second)
    (terminated : terminate.selects parent row = true → second.Closes row.run.id)
    (lasts' : second.Lasts third)
    (marked : ∀ other ∈ third.rows, terminateDeferPhase.selects parent other = true →
      last.Closes other.run.id) (lasts'' : third.Lasts last) : last.Closes row.run.id := by
  by_cases closed : Closed row.run.lease
  · exact (lasts.trans (lasts'.trans lasts'')).closes ⟨row, inside, rfl, closed⟩
  have unsettled : row.run.lease.status.settled = false := by
    simpa using fun settled => closed (.inl settled)
  cases owes : row.run.owesDefers with
  | false =>
    refine (lasts'.trans lasts'').closes (terminated (selects_iff.mpr ?_))
    exact ⟨child, policy, unsettled, fun _ => owes, nofun⟩
  | true =>
    obtain ⟨other, found, becomes⟩ := (lasts.trans lasts') row inside
    rw [← becomes.name]
    by_cases later : Closed other.run.lease
    · exact lasts''.closes ⟨other, found, rfl, later⟩
    · rw [row.owes_of_open closed] at owes
      have open' : other.run.lease.status.settled = false := by
        simpa using fun settled => later (.inl settled)
      have still : other.run.owesDefers = true := by
        rw [other.owes_of_open later]
        exact (becomes.defers owes).resolve_right later
      refine marked other found (selects_iff.mpr ?_)
      exact ⟨becomes.parent.trans child, becomes.policy.trans policy, open', nofun,
        fun _ => still⟩

/-- The children of the policy to terminate are closed, and those that were to be settled come
next. -/
theorem among_closeChildren (parent outcomeMsg : String) (past : List Asked) (state : CloseState) :
    (closeChildren parent outcomeMsg).Among Onward Succeeds Rightly past state
      fun terminated later last =>
        (∀ row ∈ state.table.rows, row.parentWorkflowID = some parent →
          row.parentClosePolicy = .terminate → last.table.Closes row.run.id) ∧
        ∃ listing ∈ later, listing.observed.query = .childrenClosedByTerminate parent ∧
          state.table.Lasts listing.before.table ∧ ∀ row ∈ listing.before.table.rows,
            terminate.selects parent row = true → row.run.id ∈ terminated := by
  intro before onward answer after served
  obtain ⟨⟨rfl, rows⟩, success⟩ := served
  cases answer with
  | none => cases success
  | some ids =>
    have rows := rows ids rfl
    refine ⟨rightly_of_same rfl, ?_⟩
    generalize asks : (⟨after, (), ⟨.childrenClosedByTerminate parent, some ids⟩, after⟩ : Asked) =
      listing
    have listed : ∀ id ∈ ids, ∃ seen ∈ after.table.rows, seen.run.id = id ∧
        terminate.selects parent seen = true := by
      intro id member
      obtain ⟨seen, found, rfl⟩ := mem_map.mp (rows.mem_iff.mp member)
      obtain ⟨inside, selected⟩ := mem_filter.mp found
      exact ⟨seen, inside, rfl, selected⟩
    refine (among_bind _ _ _ _ _).mpr ((among_lasts (among_step .terminate _ _ _ _)).mono ?_)
    rintro closed later₁ last₁ ⟨_, kept₁, rfl, began₁, lasts₁, lasts₁', terminated⟩
    refine (among_bind _ _ _ _ _).mpr
      ((among_lasts (among_step .terminateDeferPhase _ _ _ _)).mono ?_)
    rintro _ later₂ last₂ ⟨_, kept₂, _, began₂, lasts₂, lasts₂', marked⟩
    refine (among_bind _ _ _ _ _).mpr
      ((among_lasts (among_step .requestCancel _ _ _ _)).mono ?_)
    rintro _ later₃ last₃ ⟨lasts₃, kept₃, _⟩
    have closes : ∀ row ∈ after.table.rows, row.parentWorkflowID = some parent →
        row.parentClosePolicy = .terminate → last₃.table.Closes row.run.id := by
      intro row inside child policy
      obtain ⟨other, found, becomes⟩ := lasts₁ row inside
      rw [← becomes.name]
      exact lasts₃.closes (closes_children found (becomes.parent.trans child)
        (becomes.policy.trans policy) lasts₁' (terminated nofun other found) lasts₂
        (marked nofun) lasts₂')
    have remembered : listing ∈ later₃ := kept₃ (kept₂ (kept₁ (by simp)))
    refine (among_bind _ _ _ _ _).mpr ((among_lasts (among_each (fun _ later last =>
      listing ∈ later ∧ ∀ id ∈ ids, last.table.Closes id) ⟨remembered, ?_⟩ ?_)).mono ?_)
    · intro id member
      obtain ⟨seen, inside, rfl, selected⟩ := listed id member
      obtain ⟨child, policy, _⟩ := selects_iff.mp selected
      exact closes seen inside child policy
    · rintro _ id later last member ⟨remembered, closes⟩
      have shown : Listed later id := by
        subst asks
        exact ⟨parent, _, remembered, rfl, listed id member⟩
      refine (among_lasts (among_release shown (closes id member))).mono ?_
      rintro _ _ _ ⟨lasts, kept, _⟩
      exact ⟨kept remembered, fun id member => lasts.closes (closes id member)⟩
    · rintro _ later last ⟨lasts, _, remembered, _⟩
      constructor
      · intro row inside child policy
        obtain ⟨other, found, becomes⟩ := onward.1 row inside
        rw [← becomes.name]
        exact lasts.closes
          (closes other found (becomes.parent.trans child) (becomes.policy.trans policy))
      · subst asks
        refine ⟨_, remembered, rfl, onward.1, fun row inside selected => ?_⟩
        refine rows.mem_iff.mpr (mem_map.mpr ⟨row, ?_, rfl⟩)
        exact mem_filter.mpr ⟨inside, selected⟩

end Questions

/-! ## The whole cascade -/

/-- Each run of the list is a child of the one before it, with the policy to terminate. -/
def Chain (table : RunTable) : String → List String → Prop
  | _, [] => True
  | parent, id :: rest =>
    (∃ row ∈ table.rows, row.run.id = id ∧ row.parentWorkflowID = some parent ∧
      row.parentClosePolicy = .terminate) ∧ Chain table id rest

/-- Some run of the list before the last had settled or owed its defers when the cascade listed
the children of the one before it. -/
def Interrupted (past : List Asked) : String → List String → Prop
  | parent, id :: next :: rest =>
    (∃ listing ∈ past, listing.observed.query = .childrenClosedByTerminate parent ∧
      ∃ row ∈ listing.before.table.rows, row.run.id = id ∧
        (row.run.lease.status.settled = true ∨ row.run.owesDefers = true)) ∨
      Interrupted past id (next :: rest)
  | _, _ => False

theorem Chain.lasts (lasts : table.Lasts later) (held : Chain table parent chain) :
    Chain later parent chain := by
  induction chain generalizing parent with
  | nil => trivial
  | cons id rest ih =>
    obtain ⟨⟨row, inside, named, child, policy⟩, held⟩ := held
    obtain ⟨other, found, becomes⟩ := lasts row inside
    exact ⟨⟨other, found, becomes.name.trans named, becomes.parent.trans child,
      becomes.policy.trans policy⟩, ih held⟩

theorem Interrupted.mono {later : List Asked} (kept : past ⊆ later)
    (held : Interrupted past parent chain) : Interrupted later parent chain := by
  induction chain generalizing parent with
  | nil => cases held
  | cons id rest ih =>
    cases rest with
    | nil => cases held
    | cons next rest =>
      rcases held with ⟨listing, inside, found⟩ | held
      · exact .inl ⟨listing, kept inside, found⟩
      · exact .inr (ih held)

theorem interrupted_cons {last : String} {rest : List String} :
    Interrupted past parent (id :: (rest ++ [last])) ↔
      (∃ listing ∈ past, listing.observed.query = .childrenClosedByTerminate parent ∧
        ∃ row ∈ listing.before.table.rows, row.run.id = id ∧
          (row.run.lease.status.settled = true ∨ row.run.owesDefers = true)) ∨
        Interrupted past id (rest ++ [last]) := by
  cases rest <;> exact Iff.rfl

/-- The cascade with this many levels closes what hangs on such a chain of runs.

Proof: by induction on the levels. The first run of the chain is closed with the children. If it
is the last one, this is all. If not, it was listed and the next level goes on with it, or it had
settled or owed its defers. -/
theorem among_enforce (remaining : Nat) (parent outcomeMsg : String) (past : List Asked)
    (state : CloseState) :
    (enforceParentClosePolicyAt remaining parent outcomeMsg).Among Onward Succeeds Rightly past
      state fun _ later last => ∀ chain id, chain.length ≤ remaining →
        Chain state.table parent (chain ++ [id]) →
        last.table.Closes id ∨ Interrupted later parent (chain ++ [id]) := by
  induction remaining generalizing parent outcomeMsg past state with
  | zero =>
    refine (among_bind _ _ _ _ _).mpr ((among_closeChildren parent outcomeMsg past state).mono ?_)
    rintro _ later last ⟨closes, _⟩ chain id short held
    obtain rfl := length_eq_zero_iff.mp (Nat.le_zero.mp short)
    obtain ⟨⟨row, inside, rfl, child, policy⟩, _⟩ := held
    exact .inl (closes row inside child policy)
  | succ remaining ih =>
    refine (among_bind _ _ _ _ _).mpr
      ((among_lasts (among_closeChildren parent outcomeMsg past state)).mono ?_)
    rintro terminated later last ⟨lasts, _, closes, listing, remembered, asked, before, listed⟩
    refine (among_lasts (among_each (fun finished later last' =>
      last.table.Lasts last'.table ∧ ∀ child ∈ finished, ∀ chain id, chain.length ≤ remaining →
        Chain last.table child (chain ++ [id]) →
        last'.table.Closes id ∨ Interrupted later child (chain ++ [id])) ⟨.refl _, nofun⟩ ?_)).mono
          ?_
    · rintro finished child later last' _ ⟨lasts, reached⟩
      refine (among_lasts (ih child _ later last')).mono ?_
      rintro _ later' last'' ⟨lasts', kept, own⟩
      refine ⟨lasts.trans lasts', fun other member chain id short held => ?_⟩
      rcases mem_append.mp member with earlier | same
      · exact (reached other earlier chain id short held).imp lasts'.closes (.mono kept)
      · rw [mem_singleton.mp same] at held ⊢
        exact own chain id short (held.lasts lasts)
    · rintro _ later' last' ⟨onward, kept, _, reached⟩ chain id short held
      cases chain with
      | nil =>
        obtain ⟨⟨row, inside, rfl, child, policy⟩, _⟩ := held
        exact .inl (onward.closes (closes row inside child policy))
      | cons first rest =>
        obtain ⟨⟨row, inside, rfl, child, policy⟩, held⟩ := held
        obtain ⟨seen, found, becomes⟩ := before row inside
        rw [cons_append, interrupted_cons]
        by_cases selected : terminate.selects parent seen = true
        · have next := listed seen found selected
          rw [becomes.name] at next
          have short : rest.length ≤ remaining := Nat.le_of_succ_le_succ short
          exact (reached _ next rest id short (held.lasts lasts)).imp_right .inr
        · refine .inr (.inl ⟨listing, kept remembered, asked, seen, found, becomes.name, ?_⟩)
          by_contra neither
          rw [not_or, Bool.not_eq_true, Bool.not_eq_true] at neither
          refine selected (selects_iff.mpr ?_)
          exact ⟨becomes.parent.trans child, becomes.policy.trans policy, neither.1,
            fun _ => neither.2, nofun⟩

/-- A run closes and its cascade returns, no statement having failed, while calls on any runs that
reopen none go on. Then each run below it on a chain of children of the policy to terminate has
settled or has its outcome noted, unless one in between had settled or owed its defers when the
cascade came to it. The cascade settles only children that are terminating or had no defers when
its statement began. And it releases the keys only of children that are closed and that it had
listed as open and without defers. -/
theorem parent_close_cascade {parent outcomeMsg : String} {state : CloseState} {path : List Asked}
    (valid : closeWorld.Valid state path)
    (returned : (enforceParentClosePolicy parent outcomeMsg).Runs (path.map (·.observed)) (some ()))
    (unfailing : ∀ asked ∈ path, asked.observed.query.succeeds asked.observed.answer = true) :
    (∀ chain id, chain.length ≤ maxParentCloseDepth → Chain state.table parent (chain ++ [id]) →
        (World.lastState state path).table.Closes id ∨
          Interrupted path parent (chain ++ [id])) ∧
      ∀ earlier asked later, path = earlier ++ asked :: later → Rightly earlier asked := by
  have serves : ∀ asked ∈ path, Succeeds asked.before asked.observed asked.after :=
    fun asked inside => ⟨valid.serves asked inside, unfailing asked inside⟩
  obtain ⟨rightly, reached⟩ := (among_enforce maxParentCloseDepth parent outcomeMsg [] state).of_path
    onward_of_moves serves valid returned
  exact ⟨reached, rightly⟩

/-- The store on its own, at one time. -/
def closeStep (state : CloseState) : (query : CloseQuery) → CloseAnswer query × CloseState
  | .childrenClosedByTerminate parent => (some (state.table.selected .terminate parent), state)
  | .begin arm parent =>
    (some (state.table.selected arm parent), { state with statement := some ⟨state.table, 10⟩ })
  | .update arm id outcomeMsg => ((), state.update arm id outcomeMsg)
  | .clearStickyWorker id => (true, state.clearStickyWorker id)
  | .releaseWorkflowConcurrencyKeys id => (true, state.releaseWorkflowConcurrencyKeys id)

theorem closeStep_serves (client : Unit) (state : CloseState) (query : CloseQuery) :
    closeWorld.Serves client state ⟨query, (closeStep state query).1⟩ (closeStep state query).2 := by
  cases query with
  | childrenClosedByTerminate parent =>
    refine ⟨rfl, ?_⟩
    rintro ids ⟨⟩
    exact .refl _
  | begin arm parent => exact ⟨.refl _, 10, rfl⟩
  | update arm id outcomeMsg => rfl
  | clearStickyWorker id => rfl
  | releaseWorkflowConcurrencyKeys id => rfl

/-- A run that is created and on which these calls are made. -/
def calledRow (id : String) (parent : Option String) (calls : List (Int × StoreCall)) : RunRow where
  parentWorkflowID := parent
  parentClosePolicy := .terminate
  run := stateAfter storeStep (insertLeaseAndPayloadRows id 0) calls
  sound := by
    have created : Sound (insertLeaseAndPayloadRows id 0).lease := ⟨nofun, rfl, nofun⟩
    generalize insertLeaseAndPayloadRows id 0 = run at created
    induction calls generalizing run with
    | nil => exact created
    | cons call rest ih => exact ih _ created.apply

/-- A run that is done, its child and the child of that. -/
def family : CloseState where
  table :=
    { rows := [calledRow "root" none [(0, .claim "worker"), (1, .complete "worker" 1 "1" "2")],
        calledRow "child" (some "root") [(2, .claim "worker")],
        calledRow "grandchild" (some "child") [(3, .claim "worker")]]
      distinct := by decide }

/-- What a run's cascade asks of a store that drifts in this way between the questions. -/
def closePath (drift : CloseQuery → CloseState → CloseState) (state : CloseState) : List Asked :=
  ((enforceParentClosePolicy "root" (parentOutcomeMessage .done)).play closeStep drift () state).1

theorem closePath_valid {drift : CloseQuery → CloseState → CloseState}
    (moves : ∀ query state, Relation.ReflTransGen closeWorld.Moves state (drift query state))
    (state : CloseState) : closeWorld.Valid state (closePath drift state) := by
  have played : closeWorld.Valid state (closePath drift state ++ []) :=
    play_valid closeStep_serves moves () _ state trivial
  rwa [append_nil] at played

theorem closePath_runs (drift : CloseQuery → CloseState → CloseState) (state : CloseState) :
    (enforceParentClosePolicy "root" (parentOutcomeMessage .done)).Runs
      ((closePath drift state).map (·.observed)) (some ()) :=
  play_runs () _ state

theorem parent_close_cascade_family :
    (World.lastState family (closePath still family)).table.Closes "grandchild" ∨
      Interrupted (closePath still family) "root" ["child", "grandchild"] := by
  refine (parent_close_cascade (closePath_valid (fun _ _ => .refl) family)
    (closePath_runs still family) (by decide +kernel)).1 ["child"] "grandchild" (by decide) ?_
  exact ⟨⟨_, .tail _ (.head _), rfl, rfl, rfl⟩, ⟨_, .tail _ (.tail _ (.head _)), rfl, rfl, rfl⟩,
    trivial⟩

/-- A run that is done, and its child with a defer that was terminated before. -/
def deferringFamily : CloseState where
  table :=
    { rows := [calledRow "root" none [(0, .claim "worker"), (1, .complete "worker" 1 "1" "2")],
        calledRow "child" (some "root")
          [(2, .claim "worker"), (3, .append "worker" 1 [.defer]), (4, .terminate "stop")]]
      distinct := by decide }

/-- A child that is terminating and has a defer to run is settled by the cascade. -/
theorem cascade_settles_deferring_child :
    ¬ ∀ (parent outcomeMsg : String) (state : CloseState) (path : List Asked),
      closeWorld.Valid state path →
      (enforceParentClosePolicy parent outcomeMsg).Runs (path.map (·.observed)) (some ()) →
      (∀ asked ∈ path, asked.observed.query.succeeds asked.observed.answer = true) →
      ∀ asked ∈ path, ∀ row ∈ asked.before.table.rows, ∀ later ∈ asked.after.table.rows,
        later.run.id = row.run.id → row.run.hasDefers = true →
        row.run.lease.status.settled = false → later.run.lease.status.settled = false := by
  intro claimed
  have step : ∃ asked ∈ closePath still deferringFamily, ∃ row ∈ asked.before.table.rows,
      ∃ later ∈ asked.after.table.rows, later.run.id = row.run.id ∧ row.run.hasDefers = true ∧
        row.run.lease.status.settled = false ∧ later.run.lease.status.settled = true := by
    decide +kernel
  obtain ⟨asked, inside, row, found, later, found', named, defers, unsettled, settled⟩ := step
  have kept := claimed _ _ deferringFamily _ (closePath_valid (fun _ _ => .refl) deferringFamily)
    (closePath_runs still deferringFamily) (by decide +kernel) asked inside row found later found'
    named defers unsettled
  rw [settled] at kept
  cases kept

/-- A run that is done, and its child, which holds a key. -/
def keyedFamily : CloseState where
  table :=
    { rows := [calledRow "root" none [(0, .claim "worker"), (1, .complete "worker" 1 "1" "2")],
        (calledRow "child" (some "root") [(2, .claim "worker")]).holding ["key"]]
      distinct := by decide }

/-- The child completes before the first statement, after it was listed. -/
def childCompletes : CloseQuery → CloseState → CloseState
  | .begin .terminate "root", state =>
    { state with table := state.table.call "child" 5 (.complete "worker" 1 "1" "2") }
  | _, state => state

theorem childCompletes_moves (query : CloseQuery) (state : CloseState) :
    Relation.ReflTransGen closeWorld.Moves state (childCompletes query state) := by
  unfold childCompletes
  split
  · exact .single ⟨.call _ _ _ _ rfl, rfl⟩
  · exact .refl

/-- A child that was listed and settled by itself has its keys released, although no question of
the cascade settles a run. -/
theorem cascade_releases_settled_child :
    let path := closePath childCompletes keyedFamily
    closeWorld.Valid keyedFamily path ∧
      (enforceParentClosePolicy "root" (parentOutcomeMessage .done)).Runs (path.map (·.observed))
        (some ()) ∧
      (∃ asked ∈ path, ∃ row ∈ asked.before.table.rows, ∃ later ∈ asked.after.table.rows,
        later.run.id = row.run.id ∧ later.concurrencyKeys ≠ row.concurrencyKeys) ∧
      ∀ asked ∈ path, ∀ row ∈ asked.before.table.rows, ∀ later ∈ asked.after.table.rows,
        later.run.id = row.run.id → row.run.lease.status.settled = false →
          later.run.lease.status.settled = false :=
  ⟨closePath_valid childCompletes_moves keyedFamily, closePath_runs childCompletes keyedFamily,
    by decide +kernel, by decide +kernel⟩

end Cleat.Store
