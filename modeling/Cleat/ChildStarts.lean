import Cleat.GuestRuns

/-!
# Starts of children by several sessions of one parent

A worker that lost its claim on a run goes on executing it until it notices, so several sessions
of a parent can reach the same start. The store creates the child's run and the parent's event in
one transaction. The event yields to a row that its step has, and the child is created all the
same.
-/
namespace Cleat

open Durable List

/-- A child's run, and the step of its parent that created it. -/
structure ChildRun where
  step : Nat
  runID : String
deriving DecidableEq, Repr

/-- What the store holds of a parent: its events and the children it has started. -/
structure Family where
  rows : History
  children : List ChildRun
deriving DecidableEq, Repr

namespace Family

/-- A name that no run of the family has. -/
def Unused (family : Family) (runID : String) : Prop :=
  (∀ child ∈ family.children, child.runID ≠ runID) ∧ ∀ row ∈ family.rows, row.runID ≠ runID

/-- The transaction that starts a child. -/
def start (family : Family) (event : EventRecord) (runID : String) : Family :=
  ⟨insertChildEvent family.rows event runID, family.children ++ [⟨event.step, runID⟩]⟩

/-- There is a row at the step. -/
def hasRow (family : Family) (step : Nat) : Bool := family.rows.any fun row => row.step = step

/-- The event of a child is stored at its step. -/
def Stored (rows : History) (child : ChildRun) : Prop :=
  ∃ row ∈ rows, row.step = child.step ∧ row.runID = child.runID ∧
    row.eventType = .childWorkflow ∧ row.pending = false

/-- Every step has at most one row and one child, and a child is the one that is stored at its
step. -/
structure Single (family : Family) : Prop where
  ordered : family.rows.Pairwise fun one other => one.step < other.step
  distinct : (family.children.map ChildRun.step).Nodup
  stored : ∀ child ∈ family.children, Stored family.rows child

end Family

/-- The event that a start writes. -/
def startedEvent : Observed → Option EventRecord
  | ⟨.startChildWorkflowAtomic _ _ _ _ _ event _, _⟩ => some event
  | _ => none

/-- What an answer does to the family. A start that fails may have been committed. -/
def ServesFamily (family : Family) (observed : Observed) (after : Family) : Prop :=
  match observed with
  | ⟨.startChildWorkflowAtomic _ _ _ _ _ event _, .ok runID⟩ =>
    family.Unused runID ∧ after = family.start event runID
  | ⟨.startChildWorkflowAtomic _ _ _ _ _ event _, .error _⟩ =>
    after = family ∨ ∃ runID, family.Unused runID ∧ after = family.start event runID
  | observed => after = { family with rows := applyObserved family.rows observed }

/-- The store of one parent. Its clients are starts, each made by one of the parent's sessions.
Meanwhile the sessions write the events of their other calls. -/
def familyWorld : World Query Answer Nat Family where
  Serves _ := ServesFamily
  Moves family after := ∃ observed, startedEvent observed = none ∧
    after = { family with rows := applyObserved family.rows observed }

namespace Family

variable {family after : Family}

theorem Stored.applyObserved {rows : History} {child : ChildRun} (stored : Stored rows child)
    (observed : Observed) : Stored (Cleat.applyObserved rows observed) child := by
  obtain ⟨row, member, step, runID, start, settled⟩ := stored
  have done : awaitsCompletion row = false := by simp [awaitsCompletion, start]
  exact ⟨row, mem_applyObserved observed member done settled, step, runID, start, settled⟩

/-- Answers that start no child keep a family as it should be. -/
theorem Single.answered (single : family.Single) (observed : Observed) :
    Single { family with rows := applyObserved family.rows observed } :=
  ⟨ordered_applyObserved observed single.ordered, single.distinct,
    fun child member => (single.stored child member).applyObserved observed⟩

variable {event : EventRecord} {runID : String}

/-- A start at a step without a row keeps a family as it should be. -/
theorem Single.start (single : family.Single) (free : family.hasRow event.step = false)
    (kind : event.eventType = .childWorkflow) (settled : event.pending = false) :
    (family.start event runID).Single := by
  have absent : ∀ row ∈ family.rows, row.step ≠ event.step := by
    simpa [hasRow] using free
  have inserted : insertChildEvent family.rows event runID =
      insertEvent family.rows { rowOf event with runID := runID } := by
    unfold insertChildEvent
    rw [if_neg (by simpa [hasRow] using absent)]
  refine ⟨?_, ?_, ?_⟩
  · change (insertChildEvent _ _ _).Pairwise _
    rw [inserted]
    exact ordered_insertEvent single.ordered
  · change ((family.children ++ [(⟨event.step, runID⟩ : ChildRun)]).map ChildRun.step).Nodup
    rw [map_append, nodup_append]
    refine ⟨single.distinct, by simp, ?_⟩
    intro step member other same clash
    obtain ⟨child, inside, rfl⟩ := mem_map.mp member
    obtain rfl : other = event.step := by simpa using same
    obtain ⟨row, held, placed, _⟩ := single.stored child inside
    exact absent row held (placed.trans clash)
  · intro child member
    change Stored (insertChildEvent _ _ _) child
    rw [inserted]
    rcases mem_append.mp member with older | newest
    · obtain ⟨row, held, step, same, start, done⟩ := single.stored child older
      exact ⟨row, mem_insertEvent held (by simp [awaitsCompletion, start]), step, same, start, done⟩
    · obtain rfl : child = ⟨event.step, runID⟩ := by simpa using newest
      exact ⟨_, mem_insertEvent_self absent, rfl, rfl, kind, settled⟩

/-- A start at a step that has a row does not store its child. -/
theorem not_single_start (unused : family.Unused runID) (taken : family.hasRow event.step = true) :
    ¬ (family.start event runID).Single := by
  intro single
  have unchanged : insertChildEvent family.rows event runID = family.rows := if_pos taken
  obtain ⟨row, held, _, same, _⟩ := single.stored ⟨event.step, runID⟩ (by simp [start])
  change row ∈ insertChildEvent _ _ _ at held
  rw [unchanged] at held
  exact unused.2 row held same

end Family

section Call

/-- The name of a child that the store reports. -/
def startedRun : Observed → Option String
  | ⟨.startChildWorkflowAtomic _ _ _ _ _ _ _, .ok runID⟩ => some runID
  | _ => none

/-- What a call writes and reports of starts: events of the right kind at its step, and a guest
is told the name that the store reported. -/
structure Starting (s : ExecSession) (buffer : OutBuf) (trace : Trace)
    (outcome : Option Replied) : Prop where
  events : ∀ event ∈ trace.filterMap startedEvent, event.step = s.stepCount ∧
    event.eventType = .childWorkflow ∧ event.pending = false
  told : ∀ runID ∈ trace.filterMap startedRun, ∀ result ∈ outcome,
    result.1 = simpleValue buffer (bytesOf runID)

/-- A query that does not start a child. -/
def Query.startsNoChild : Query → Bool
  | .startChildWorkflowAtomic _ _ _ _ _ _ _ => false
  | _ => true

variable {engine : Engine} {s : ExecSession} {buffer : OutBuf}

variable {outcome : Option Replied}

theorem Starting.of_nil : Starting s buffer [] outcome :=
  ⟨by simp, by simp⟩

theorem Starting.cons {query : Query} {answer : Answer query} {trace : Trace}
    (quiet : query.startsNoChild = true) (rest : Starting s buffer trace outcome) :
    Starting s buffer (⟨query, answer⟩ :: trace) outcome := by
  have noEvent : startedEvent ⟨query, answer⟩ = none := by
    cases query <;> first | rfl | cases quiet
  have noRun : startedRun ⟨query, answer⟩ = none := by
    cases query <;> first | rfl | cases quiet
  constructor
  · rw [filterMap_cons, noEvent]
    exact rest.events
  · rw [filterMap_cons, noRun]
    exact rest.told

/-- Work that starts nothing may come first. -/
theorem starting_after {β : Type} {first : Work β} {next : β → Work Replied}
    (quiet : first.Every fun query => query.startsNoChild = true)
    (rest : ∀ value, (next value).Always (Starting s buffer)) :
    (first >>= next).Always (Starting s buffer) := by
  induction first with
  | done value => exact rest value
  | ask query more ih =>
    refine ⟨.of_nil, fun answer _ => ?_⟩
    exact (ih answer (quiet.2 answer)).mono fun trace outcome held => held.cons quiet.1

theorem resolveChildVersion_quiet (name : String) (version : Int) :
    (resolveChildVersion engine name version).Every fun query => query.startsNoChild = true := by
  have byTag : ∀ tag, (versionByTag engine name tag).Every fun query =>
      query.startsNoChild = true := by
    intro tag
    refine .ite (.bind (every_ask rfl) fun answer => ?_) trivial
    split <;> trivial
  have byPolicy : (versionByPolicy engine name).Every fun query => query.startsNoChild = true := by
    unfold versionByPolicy
    split
    · trivial
    · refine .ite ?_ (.ite (.bind (byTag _) fun _ => trivial) (.ite trivial ?_))
      · split <;> trivial
      · split
        · exact .bind (byTag _) fun _ => trivial
        · trivial
  refine .ite trivial (.ite trivial ?_)
  split
  · refine .bind (byTag _) fun found => ?_
    split
    · trivial
    · exact byPolicy
  · exact byPolicy

theorem checkChildQuota_quiet :
    (checkChildQuota engine).Every fun query => query.startsNoChild = true := by
  refine .ite (.bind (every_ask rfl) fun answer => ?_) trivial
  split
  · trivial
  · exact .ite trivial trivial

theorem startChildInStore_starting (child : ChildRequest) (version : Int) :
    (startChildInStore engine s child version buffer).Always
      (Starting s buffer) := by
  refine starting_after checkChildQuota_quiet fun refused => ?_
  split
  · exact .of_nil
  · refine starting_after (every_ask rfl) fun clockMs => ?_
    refine ⟨.of_nil, fun answer _ => ?_⟩
    cases answer with
    | error | ok => exact ⟨by simp [startedEvent, childEvent], by simp [startedRun]⟩

/-- A start reports to its guest what the store reported to it. -/
theorem childWorkflow_starting (child : ChildRequest) :
    (childWorkflow engine s child buffer).Always (Starting s buffer) := by
  have begins : ∀ session : ExecSession, session.stepCount = s.stepCount →
      (beginChildWorkflow engine session child buffer).Always
        (Starting s buffer) := by
    intro session placed
    have same : ∀ trace outcome, Starting session buffer trace outcome →
        Starting s buffer trace outcome := fun trace outcome held =>
      ⟨placed ▸ held.events, held.told⟩
    unfold beginChildWorkflow
    split
    · exact .of_nil
    · refine starting_after (every_stopBeforeNewWork _ _ rfl) fun stopped => ?_
      split
      · exact .of_nil
      · refine starting_after (resolveChildVersion_quiet _ _) fun version => ?_
        split
        · exact (startChildInStore_starting child version).mono same
        · exact starting_after (every_recordEvent _ _ _ rfl fun _ _ => rfl) fun _ => .of_nil
  unfold childWorkflow
  split
  · split
    · exact begins (exitReplay s) rfl
    · split <;> exact .of_nil
  · exact begins s rfl

end Call

variable {family after : Family} {observed : Observed}

/-- An answer creates the child of a start, or keeps the children and the family as it should
be. -/
theorem ServesFamily.creates_or_keeps (serves : ServesFamily family observed after) :
    (∃ event runID, startedEvent observed = some event ∧ family.Unused runID ∧
        after = family.start event runID) ∨
      after.children = family.children ∧ (family.Single → after.Single) := by
  unfold ServesFamily at serves
  split at serves
  · obtain ⟨unused, rfl⟩ := serves
    exact .inl ⟨_, _, rfl, unused, rfl⟩
  · rcases serves with rfl | ⟨runID, unused, rfl⟩
    · exact .inr ⟨rfl, id⟩
    · exact .inl ⟨_, _, rfl, unused, rfl⟩
  · subst serves
    exact .inr ⟨rfl, fun single => single.answered _⟩

/-- A name that is reported is that of the child that the start has created. -/
theorem ServesFamily.reports {runID : String} (serves : ServesFamily family observed after)
    (reported : startedRun observed = some runID) :
    ∃ event, startedEvent observed = some event ∧
      after.children = family.children ++ [⟨event.step, runID⟩] := by
  unfold ServesFamily at serves
  split at serves
  · obtain ⟨_, rfl⟩ := serves
    obtain rfl := Option.some.inj reported
    exact ⟨_, rfl, rfl⟩
  · cases reported
  · rename_i noStart _
    unfold startedRun at reported
    split at reported
    · exact absurd rfl (noStart _ _ _ _ _ _ _ _)
    · cases reported

/-- Starts made by sessions of one parent, and what its store did meanwhile. -/
structure ParentStarts (engine : Engine) where
  family : Family
  path : List (Served Query Answer Nat Family)
  single : family.Single
  valid : familyWorld.Valid family path
  session : Nat → ExecSession
  child : Nat → ChildRequest
  buffer : Nat → OutBuf
  outcome : Nat → Option Replied
  executes : ∀ start, (childWorkflow engine (session start) (child start) (buffer start)).Runs
    (observedBy start path) (outcome start)

/-- The answer has created a child. -/
def Creates (served : Served Query Answer Nat Family) : Prop :=
  served.after.children ≠ served.before.children

/-- Every step keeps at most one child, whose name is stored at the step, exactly if a child is
created only at a step without a row. The name that the store reports for a start is that of a
child at the session's step, and it is what the guest is told. -/
theorem one_child_per_step_iff {engine : Engine} (starts : ParentStarts engine) :
    ((∀ served ∈ starts.path, served.after.Single) ↔
      ∀ served ∈ starts.path, Creates served → ∀ event ∈ startedEvent served.observed,
        served.before.hasRow event.step = false) ∧
      ∀ served ∈ starts.path, ∀ runID ∈ startedRun served.observed,
        ⟨(starts.session served.client).stepCount, runID⟩ ∈ served.after.children ∧
          ∀ result ∈ starts.outcome served.client,
            result.1 = simpleValue (starts.buffer served.client) (bytesOf runID) := by
  have started : ∀ start, Starting (starts.session start) (starts.buffer start)
      (observedBy start starts.path) (starts.outcome start) :=
    fun start => (childWorkflow_starting _).of_runs (starts.executes start) fun _ _ => trivial
  have asked : ∀ served ∈ starts.path, served.observed ∈ observedBy served.client starts.path :=
    fun served member => mem_filterMap.mpr ⟨served, member, by simp⟩
  have proper : ∀ served ∈ starts.path, ∀ event, startedEvent served.observed = some event →
      event.step = (starts.session served.client).stepCount ∧
        event.eventType = .childWorkflow ∧ event.pending = false := by
    intro served member event writes
    exact (started served.client).events event
      (mem_filterMap.mpr ⟨served.observed, asked served member, writes⟩)
  refine ⟨⟨?_, ?_⟩, ?_⟩
  · intro single served member creates event writes
    rcases (starts.valid.serves served member).creates_or_keeps with
      ⟨other, runID, same, unused, after⟩ | ⟨kept, _⟩
    · obtain rfl : event = other := Option.some.inj (writes.symm.trans same)
      by_contra taken
      refine Family.not_single_start unused (by simpa using taken) ?_
      exact after ▸ single served member
    · exact absurd kept creates
  · intro free
    have moves : ∀ family after, familyWorld.Moves family after → family.Single →
        after.Single := by
      rintro family after ⟨observed, _, rfl⟩ single
      exact single.answered observed
    have keeps : ∀ served ∈ starts.path, served.before.Single → served.after.Single := by
      intro served member single
      rcases (starts.valid.serves served member).creates_or_keeps with
        ⟨event, runID, writes, unused, after⟩ | ⟨_, kept⟩
      · obtain ⟨_, kind, settled⟩ := proper served member event writes
        have creates : Creates served := by simp [Creates, after, Family.start]
        rw [after]
        exact single.start (free served member creates event writes) kind settled
      · exact kept single
    intro served member
    exact (World.Valid.invariant Family.Single starts.valid moves keeps starts.single served
      member).2
  · intro served member runID reported
    refine ⟨?_, (started served.client).told runID
      (mem_filterMap.mpr ⟨served.observed, asked served member, reported⟩)⟩
    obtain ⟨event, writes, added⟩ := (starts.valid.serves served member).reports reported
    rw [added, (proper served member event writes).1]
    simp

section Race

/-- What the family is after an answer. -/
def familyAfter (_ : Nat) (family : Family) (observed : Observed) : Family :=
  match observed with
  | ⟨.startChildWorkflowAtomic _ _ _ _ _ event _, .ok runID⟩ => family.start event runID
  | ⟨.startChildWorkflowAtomic _ _ _ _ _ _ _, .error _⟩ => family
  | observed => { family with rows := applyObserved family.rows observed }

/-- The name that an answer reports is a new one. -/
def NamesAnew (family : Family) (observed : Observed) : Prop :=
  ∀ runID ∈ startedRun observed, (∀ child ∈ family.children, child.runID ≠ runID) ∧
    ∀ row ∈ family.rows, row.runID ≠ runID

instance (family : Family) (observed : Observed) : Decidable (NamesAnew family observed) :=
  inferInstanceAs (Decidable (∀ runID ∈ startedRun observed, _ ∧ _))

theorem servesFamily_after {client : Nat} {family : Family} {observed : Observed}
    (anew : NamesAnew family observed) :
    ServesFamily family observed (familyAfter client family observed) := by
  unfold familyAfter
  split
  · exact ⟨anew _ rfl, rfl⟩
  · exact .inl rfl
  · rename_i noStart noFailure
    unfold ServesFamily
    split
    · exact absurd rfl (noStart _ _ _ _ _ _ _ _)
    · exact absurd rfl (noFailure _ _ _ _ _ _ _ _)
    · rfl

/-- An environment in which a child is started under this name. -/
def startsAs (name : String) : (query : Query) → Option (Answer query)
  | .startChildWorkflowAtomic _ _ _ _ _ _ _ => some (.ok name)
  | query => Surroundings.answer {} query

/-- One of two sessions that make the same start. -/
def racer (name : String) : Trace × Option Replied :=
  (childWorkflow {} (Engine.openSession {} {} []) { name := "child", input := "" } roomy).run
    (List.replicate 8 (startsAs name))

/-- Both sessions make the start before either is stopped. -/
def race : List (Nat × Observed) :=
  ((racer "one").1.map fun observed => (0, observed)) ++
    (racer "two").1.map fun observed => (1, observed)

theorem race_valid : familyWorld.Valid ⟨[], []⟩ (World.pathOf familyAfter ⟨[], []⟩ race) := by
  have anew : ∀ served ∈ World.pathOf familyAfter ⟨[], []⟩ race,
      NamesAnew served.before served.observed := by decide +kernel
  exact World.pathOf_valid fun served member => servesFamily_after (anew served member)

theorem race_executes (start : Nat) :
    (childWorkflow {} (Engine.openSession {} {} []) { name := "child", input := "" } roomy).Runs
      (observedBy start (World.pathOf familyAfter ⟨[], []⟩ race))
      (if start = 0 then (racer "one").2 else if start = 1 then (racer "two").2 else none) := by
  rcases start with _ | _ | start
  · refine ⟨replicate 8 (startsAs "one"), ?_⟩
    rfl
  · exact ⟨replicate 8 (startsAs "two"), rfl⟩
  · exact ⟨[], rfl⟩

/-- Two sessions that reach the same start create two children. -/
theorem two_children_at_one_step :
    ∃ starts : ParentStarts {}, ∃ served ∈ starts.path,
      ¬ (served.after.children.map ChildRun.step).Nodup :=
  ⟨⟨⟨[], []⟩, World.pathOf familyAfter ⟨[], []⟩ race, ⟨.nil, .nil, by simp⟩, race_valid,
    fun _ => Engine.openSession {} {} [], fun _ => { name := "child", input := "" }, fun _ => roomy,
    _, race_executes⟩, by decide +kernel⟩

end Race

end Cleat
