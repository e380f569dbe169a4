import Mathlib.Data.List.Basic

/-!
# Programs that interact with an environment they do not control

A program either returns a value or asks the environment a query and continues
with the answer. The environment is arbitrary and may stop answering at any
point, which is how a process that dies in the middle of its work is observed:
the queries answered so far have happened, and nothing after them has.

`run` executes a program against a finite script of answers and `Ensures` is the
corresponding specification: it holds of a program when its postcondition holds of
every trace of usual answers that the program can leave behind, including those cut
short. The rules below let a specification be checked by following the program's text.
-/
namespace Durable

variable {Q : Type} {A : Q → Type} {α β : Type}

/-- One answered query, with the answer at the type its query determines. -/
structure Observation (Q : Type) (A : Q → Type) where
  query : Q
  answer : A query

/-- A sequential program over queries `Q` with answers `A`. -/
inductive Program (Q : Type) (A : Q → Type) (α : Type) : Type where
  | done (value : α)
  | ask (query : Q) (next : A query → Program Q A α)

/-- The environment's side of an execution: an answer to whatever is asked next, or none.
A script that ends early is an environment that stops answering. -/
abbrev Script (Q : Type) (A : Q → Type) := List ((query : Q) → Option (A query))

namespace Program

/-- Sequential composition: the second program starts at the first one's value. -/
def andThen : Program Q A α → (α → Program Q A β) → Program Q A β
  | .done value, next => next value
  | .ask query rest, next => .ask query fun answer => (rest answer).andThen next

instance : Monad (Program Q A) where
  pure := .done
  bind := andThen

/-- Ask one query and return its answer. -/
def perform (query : Q) : Program Q A (A query) := .ask query .done

@[simp] theorem pure_eq (value : α) : (pure value : Program Q A α) = .done value := rfl

@[simp] theorem done_bind (value : α) (next : α → Program Q A β) :
    (Program.done value >>= next) = next value := rfl

@[simp] theorem ask_bind (query : Q) (rest : A query → Program Q A α) (next : α → Program Q A β) :
    (Program.ask query rest >>= next) = .ask query fun answer => rest answer >>= next := rfl

theorem bind_done (program : Program Q A α) : (program >>= Program.done) = program := by
  induction program with
  | done value => rfl
  | ask query rest ih =>
    exact congrArg (Program.ask query) (funext ih)

/-- Composition is associative, so a program text can be regrouped freely. -/
@[simp] theorem bind_assoc {γ : Type} (program : Program Q A α) (next : α → Program Q A β)
    (last : β → Program Q A γ) :
    ((program >>= next) >>= last) = (program >>= fun value => next value >>= last) := by
  induction program with
  | done value => rfl
  | ask query rest ih =>
    exact congrArg (Program.ask query) (funext ih)

/-- Execute a program against a script. The result holds the queries that were
answered, in order, and the value if the script was long enough to reach it. -/
def run : Program Q A α → Script Q A → List (Observation Q A) × Option α
  | .done value, _ => ([], some value)
  | .ask _ _, [] => ([], none)
  | .ask query next, answers :: script =>
    match answers query with
    | none => ([], none)
    | some answer =>
      let rest := (next answer).run script
      (⟨query, answer⟩ :: rest.1, rest.2)

/-- A program can leave this trace and this outcome behind. -/
def Runs (program : Program Q A α) (trace : List (Observation Q A)) (outcome : Option α) : Prop :=
  ∃ script, program.run script = (trace, outcome)

theorem run_runs (program : Program Q A α) (script : Script Q A) :
    program.Runs (program.run script).1 (program.run script).2 :=
  ⟨script, rfl⟩

@[simp] theorem runs_done (value : α) (trace : List (Observation Q A)) (outcome : Option α) :
    (Program.done value).Runs trace outcome ↔ trace = [] ∧ outcome = some value := by
  constructor
  · rintro ⟨script, executed⟩
    cases executed
    exact ⟨rfl, rfl⟩
  · rintro ⟨rfl, rfl⟩
    exact ⟨[], rfl⟩

/-- Execute a program against an environment that answers by what it has been asked and has
answered before. -/
def drive (answers : List (Observation Q A) → (query : Q) → Option (A query)) :
    Program Q A α → List (Observation Q A) → List (Observation Q A) × Option α
  | .done value, _ => ([], some value)
  | .ask query next, past =>
    match answers past query with
    | none => ([], none)
    | some answer =>
      let rest := (next answer).drive answers (past ++ [⟨query, answer⟩])
      (⟨query, answer⟩ :: rest.1, rest.2)

/-- Such an environment follows some script. -/
theorem drive_runs (answers : List (Observation Q A) → (query : Q) → Option (A query))
    (program : Program Q A α) (past : List (Observation Q A)) :
    program.Runs (program.drive answers past).1 (program.drive answers past).2 := by
  induction program generalizing past with
  | done value => exact ⟨[], rfl⟩
  | ask query next ih =>
    cases given : answers past query with
    | none => exact ⟨[], by simp [run, drive, given]⟩
    | some answer =>
      obtain ⟨script, executed⟩ := ih answer (past ++ [⟨query, answer⟩])
      exact ⟨answers past :: script, by simp [run, drive, given, executed]⟩

/-- The value that a program returns to an environment that answers a question always alike. -/
def evaluate (answers : (query : Q) → Option (A query)) : Program Q A α → Option α
  | .done value => some value
  | .ask query next => (answers query).bind fun answer => (next answer).evaluate answers

theorem drive_evaluate (answers : (query : Q) → Option (A query)) (program : Program Q A α)
    (past : List (Observation Q A)) :
    (program.drive (fun _ => answers) past).2 = program.evaluate answers := by
  induction program generalizing past with
  | done value => rfl
  | ask query next ih =>
    cases given : answers query with
    | none => simp [drive, evaluate, given]
    | some answer => simp [drive, evaluate, given, ih]

theorem evaluate_bind (answers : (query : Q) → Option (A query)) (program : Program Q A α)
    (next : α → Program Q A β) :
    (program >>= next).evaluate answers =
      (program.evaluate answers).bind fun value => (next value).evaluate answers := by
  induction program with
  | done value => rfl
  | ask query rest ih =>
    simp only [ask_bind, evaluate, ih, Option.bind_assoc]

/-- The postcondition holds of everything the program can leave behind when it is given
only usual answers: of the empty trace if the first query is never answered, and after
each usual answer of the rest with that answer in front. -/
def Ensures (Usual : Observation Q A → Prop) :
    Program Q A α → (List (Observation Q A) → Option α → Prop) → Prop
  | .done value, post => post [] (some value)
  | .ask query next, post =>
    post [] none ∧
      ∀ answer, Usual ⟨query, answer⟩ →
        (next answer).Ensures Usual fun trace outcome => post (⟨query, answer⟩ :: trace) outcome

/-- The postcondition holds whatever the answers. -/
abbrev Always (program : Program Q A α) (post : List (Observation Q A) → Option α → Prop) : Prop :=
  program.Ensures (fun _ => True) post

variable {Usual : Observation Q A → Prop}

@[simp] theorem ensures_done (value : α) (post : List (Observation Q A) → Option α → Prop) :
    (Program.done value : Program Q A α).Ensures Usual post ↔ post [] (some value) := Iff.rfl

@[simp] theorem ensures_ask (query : Q) (next : A query → Program Q A α)
    (post : List (Observation Q A) → Option α → Prop) :
    (Program.ask query next).Ensures Usual post ↔
      post [] none ∧
        ∀ answer, Usual ⟨query, answer⟩ →
          (next answer).Ensures Usual fun trace outcome =>
            post (⟨query, answer⟩ :: trace) outcome := Iff.rfl

variable {program : Program Q A α} {post : List (Observation Q A) → Option α → Prop}
  {trace : List (Observation Q A)} {outcome : Option α} {next : α → Program Q A β}

/-- A weaker postcondition holds wherever a stronger one does. -/
theorem Ensures.mono {weaker : List (Observation Q A) → Option α → Prop}
    (holds : program.Ensures Usual post)
    (weaken : ∀ trace outcome, post trace outcome → weaker trace outcome) :
    program.Ensures Usual weaker := by
  induction program generalizing post weaker with
  | done value => exact weaken _ _ holds
  | ask query next ih =>
    exact ⟨weaken _ _ holds.1, fun answer usual =>
      ih answer (holds.2 answer usual) fun trace outcome => weaken _ _⟩

/-- Every program ensures what holds of everything. -/
theorem ensures_of_forall (program : Program Q A α) (holds : ∀ trace outcome, post trace outcome) :
    program.Ensures Usual post := by
  induction program generalizing post with
  | done value => exact holds _ _
  | ask query next ih => exact ⟨holds _ _, fun answer _ => ih answer fun trace => holds _⟩

/-- A postcondition may use that the answers were usual. -/
theorem Ensures.usually (holds : program.Ensures Usual post) :
    program.Ensures Usual fun trace outcome =>
      (∀ observed ∈ trace, Usual observed) ∧ post trace outcome := by
  induction program generalizing post with
  | done value => exact ⟨by simp, holds⟩
  | ask query next ih =>
    refine ⟨⟨by simp, holds.1⟩, fun answer usual =>
      (ih answer (holds.2 answer usual)).mono fun trace outcome ⟨rest, held⟩ => ⟨?_, held⟩⟩
    simpa only [List.forall_mem_cons] using ⟨usual, rest⟩

/-- What a program ensures holds of each of its executions with usual answers. -/
theorem Ensures.of_runs {program : Program Q A α}
    {post : List (Observation Q A) → Option α → Prop} (holds : program.Ensures Usual post)
    {trace : List (Observation Q A)} {outcome : Option α} (runs : program.Runs trace outcome)
    (usual : ∀ observed ∈ trace, Usual observed) : post trace outcome := by
  obtain ⟨script, executed⟩ := runs
  induction program generalizing post trace outcome script with
  | done value =>
    cases executed
    exact holds
  | ask query next ih =>
    cases script with
    | nil =>
      cases executed
      exact holds.1
    | cons answers script =>
      cases given : answers query with
      | none =>
        simp only [run, given] at executed
        cases executed
        exact holds.1
      | some answer =>
        simp only [run, given] at executed
        cases executed
        simp only [List.forall_mem_cons] at usual
        exact ih _ (holds.2 answer usual.1) usual.2 script rfl

/-- What holds of every execution is ensured. -/
theorem ensures_of_runs (holds : ∀ trace outcome, program.Runs trace outcome → post trace outcome) :
    program.Ensures Usual post := by
  classical
  induction program generalizing post with
  | done value => exact holds _ _ ⟨[], rfl⟩
  | ask query next ih =>
    refine ⟨holds _ _ ⟨[], rfl⟩, fun answer _ => ih answer fun trace outcome runs => ?_⟩
    obtain ⟨script, executed⟩ := runs
    refine holds _ _ ⟨(fun asked => if same : asked = query then some (same ▸ answer) else none) ::
      script, ?_⟩
    simp [run, executed]

/-- A composed program is specified by its first part: where that part is cut the
whole is cut, and where it returns the second part continues its trace. -/
theorem ensures_bind (program : Program Q A α) (next : α → Program Q A β)
    (post : List (Observation Q A) → Option β → Prop) :
    (program >>= next).Ensures Usual post ↔
      program.Ensures Usual fun trace outcome =>
        match outcome with
        | none => post trace none
        | some value =>
          (next value).Ensures Usual fun following result =>
            post (trace ++ following) result := by
  induction program generalizing post with
  | done value => simp only [done_bind, ensures_done, List.nil_append]
  | ask query rest ih => simp only [ask_bind, ensures_ask, ih, List.cons_append]

/-- The program asks only queries of this kind. -/
def Every (Kind : Q → Prop) : Program Q A α → Prop
  | .done _ => True
  | .ask query next => Kind query ∧ ∀ answer, (next answer).Every Kind

variable {Kind : Q → Prop}

theorem Every.bind (first : program.Every Kind) (second : ∀ value, (next value).Every Kind) :
    (program >>= next).Every Kind := by
  induction program with
  | done value => exact second value
  | ask query rest ih => exact ⟨first.1, fun answer => ih answer (first.2 answer)⟩

theorem Every.ite {decided : Prop} [Decidable decided] {first second : Program Q A α}
    (yes : first.Every Kind) (no : second.Every Kind) :
    (if decided then first else second).Every Kind := by
  split
  · exact yes
  · exact no

/-- The queries that an execution was answered are of the kind. -/
theorem Every.of_runs (holds : program.Every Kind) (runs : program.Runs trace outcome) :
    ∀ observed ∈ trace, Kind observed.query := by
  have ensures : program.Ensures (fun _ => True) fun trace _ =>
      ∀ observed ∈ trace, Kind observed.query := by
    clear runs
    induction program with
    | done value => simp
    | ask query next ih =>
      refine ⟨by simp, fun answer _ => (ih answer (holds.2 answer)).mono ?_⟩
      intro rest _ held
      simpa only [List.forall_mem_cons] using ⟨holds.1, held⟩
  exact ensures.of_runs runs fun _ _ => trivial

/-- Every value the program can return is of the kind. -/
def Returns (Kind : α → Prop) : Program Q A α → Prop
  | .done value => Kind value
  | .ask _ next => ∀ answer, (next answer).Returns Kind

@[simp] theorem returns_ask (query : Q) (next : A query → Program Q A α) (Kind : α → Prop) :
    (Program.ask query next).Returns Kind ↔ ∀ answer, (next answer).Returns Kind := Iff.rfl

theorem returns_any (program : Program Q A α) : program.Returns fun _ => True := by
  induction program with
  | done value => trivial
  | ask query next ih => exact ih

theorem Returns.bind {First : α → Prop} {Second : β → Prop} (first : program.Returns First)
    (second : ∀ value, First value → (next value).Returns Second) :
    (program >>= next).Returns Second := by
  induction program with
  | done value => exact second value first
  | ask query rest ih => exact fun answer => ih answer (first answer)

/-- The value that an execution returned is of the kind. -/
theorem Returns.of_runs {Kind : α → Prop} (holds : program.Returns Kind) {value : α}
    (runs : program.Runs trace (some value)) : Kind value := by
  have ensures : program.Ensures (fun _ => True) fun _ outcome =>
      ∀ given, outcome = some given → Kind given := by
    clear runs
    induction program with
    | done given =>
      intro other same
      cases same
      exact holds
    | ask query next ih => exact ⟨by simp, fun answer _ => ih answer (holds answer)⟩
  exact ensures.of_runs runs (fun _ _ => trivial) value rfl

end Program

end Durable
