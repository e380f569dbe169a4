import Cleat.Durable.Program
import Mathlib.Logic.Relation

/-!
# Stores that several clients share

A store answers the questions of its clients one after the other and may change by itself
between two of them. Clients run programs that know nothing of one another, and their questions
interleave in any order. A path is what the store sees of that: the answered questions in order,
each with the state that it found and the state that it left.

What is known of the store at one question follows from what each earlier question and each
change kept, by `Valid.invariant`.
-/
namespace Durable

open List

variable {Q : Type} {A : Q → Type} {Client S α : Type}

/-- A shared store: which answers it can give to a client in a state and what they leave, and
how it can change between two questions. -/
structure World (Q : Type) (A : Q → Type) (Client S : Type) where
  Serves : Client → S → Observation Q A → S → Prop
  Moves : S → S → Prop

/-- One answered question. -/
structure Served (Q : Type) (A : Q → Type) (Client S : Type) where
  before : S
  client : Client
  observed : Observation Q A
  after : S

/-- What one client observed. -/
def observedBy [DecidableEq Client] (client : Client) (path : List (Served Q A Client S)) :
    List (Observation Q A) :=
  path.filterMap fun served => if served.client = client then some served.observed else none

theorem mem_observedBy [DecidableEq Client] {client : Client}
    {path : List (Served Q A Client S)} {observed : Observation Q A}
    (member : observed ∈ observedBy client path) : ∃ served ∈ path, served.observed = observed := by
  obtain ⟨served, inside, own⟩ := mem_filterMap.mp member
  split at own
  · exact ⟨served, inside, Option.some.inj own⟩
  · cases own

namespace World

variable (world : World Q A Client S)

/-- The questions are answered one after the other from this state on. -/
def Valid : S → List (Served Q A Client S) → Prop
  | _, [] => True
  | state, served :: rest =>
    Relation.ReflTransGen world.Moves state served.before ∧
      world.Serves served.client served.before served.observed served.after ∧
      Valid served.after rest

variable {world} {state : S} {path : List (Served Q A Client S)}

theorem Valid.serves (valid : world.Valid state path) :
    ∀ served ∈ path, world.Serves served.client served.before served.observed served.after := by
  induction path generalizing state with
  | nil => simp
  | cons first rest ih =>
    obtain ⟨_, serves, valid⟩ := valid
    exact forall_mem_cons.mpr ⟨serves, ih valid⟩

/-- What holds at first, is kept by every change and by the questions of the path holds before
and after each of these. -/
theorem Valid.invariant (Inv : S → Prop) (valid : world.Valid state path)
    (moves : ∀ s t, world.Moves s t → Inv s → Inv t)
    (keeps : ∀ served ∈ path, Inv served.before → Inv served.after) (start : Inv state) :
    ∀ served ∈ path, Inv served.before ∧ Inv served.after := by
  induction path generalizing state with
  | nil => simp
  | cons first rest ih =>
    obtain ⟨moved, _, valid⟩ := valid
    have kept : ∀ later, Relation.ReflTransGen world.Moves state later → Inv later := by
      intro later moved
      induction moved with
      | refl => exact start
      | tail _ step known => exact moves _ _ step known
    have before := kept _ moved
    have after := keeps first (by simp) before
    exact forall_mem_cons.mpr
      ⟨⟨before, after⟩, ih valid (fun served later => keeps served (by simp [later])) after⟩

/-- If the store only grows, some state bounds all that a path goes through, and each question
finds what was there after the earlier ones. -/
theorem Valid.growing {grown : S → S → Prop} (reflexive : ∀ s, grown s s)
    (transitive : ∀ {s t u}, grown s t → grown t u → grown s u)
    (moves : ∀ {s t}, world.Moves s t → grown s t)
    (serves : ∀ {client s observed t}, world.Serves client s observed t → grown s t)
    (valid : world.Valid state path) :
    ∃ final, grown state final ∧ (∀ served ∈ path, grown served.after final) ∧
      (∀ served ∈ path, grown state served.before) ∧
      path.Pairwise fun one other => grown one.after other.before := by
  induction path generalizing state with
  | nil => exact ⟨state, reflexive state, by simp, by simp, .nil⟩
  | cons first rest ih =>
    obtain ⟨moved, own, valid⟩ := valid
    have before : grown state first.before :=
      moved.trans_induction_on reflexive moves fun _ _ => transitive
    have after := transitive before (serves own)
    obtain ⟨final, reached, bounded, behind, ordered⟩ := ih valid
    refine ⟨final, transitive after reached, ?_, ?_, pairwise_cons.mpr ⟨behind, ordered⟩⟩
    · exact forall_mem_cons.mpr ⟨reached, bounded⟩
    · exact forall_mem_cons.mpr
        ⟨before, fun served later => transitive after (behind served later)⟩

/-- The path of a store that answers these observations and changes by them alone. -/
def pathOf (next : Client → S → Observation Q A → S) :
    S → List (Client × Observation Q A) → List (Served Q A Client S)
  | _, [] => []
  | state, (client, observed) :: rest =>
    ⟨state, client, observed, next client state observed⟩ ::
      pathOf next (next client state observed) rest

theorem pathOf_valid {next : Client → S → Observation Q A → S}
    {observations : List (Client × Observation Q A)}
    (serves : ∀ served ∈ pathOf next state observations,
      world.Serves served.client served.before served.observed
        (next served.client served.before served.observed)) :
    world.Valid state (pathOf next state observations) := by
  induction observations generalizing state with
  | nil => trivial
  | cons first rest ih =>
    obtain ⟨own, later⟩ := forall_mem_cons.mp serves
    exact ⟨.refl, own, ih later⟩

theorem pathOf_observed (next : Client → S → Observation Q A → S) (state : S)
    (observations : List (Client × Observation Q A)) :
    (pathOf next state observations).map (·.observed) = observations.map Prod.snd := by
  induction observations generalizing state with
  | nil => rfl
  | cons first rest ih => exact congrArg (first.2 :: ·) (ih _)

theorem observedBy_pathOf [DecidableEq Client] (client : Client)
    (next : Client → S → Observation Q A → S) (state : S)
    (observations : List (Client × Observation Q A)) :
    observedBy client (pathOf next state observations) =
      observations.filterMap fun asked => if asked.1 = client then some asked.2 else none := by
  induction observations generalizing state with
  | nil => rfl
  | cons first rest ih =>
    obtain ⟨asker, observed⟩ := first
    have tail := ih (next asker state observed)
    unfold observedBy at tail ⊢
    rw [pathOf, filterMap_cons, filterMap_cons, tail]

end World

namespace Program

variable {β : Type}

/-- A client's program does its work amid the changes of others: before each of its questions
the store has moved on as the client relies on, and the answer is one that the store shows
then. The postcondition is about the value and the store at the last question. -/
def Amid (Rely : S → S → Prop) (Shows : S → Observation Q A → Prop) :
    Program Q A α → S → (α → S → Prop) → Prop
  | .done value, state, post => post value state
  | .ask query next, state, post =>
    ∀ later, Rely state later → ∀ answer, Shows later ⟨query, answer⟩ →
      (next answer).Amid Rely Shows later post

variable {Rely : S → S → Prop} {Shows : S → Observation Q A → Prop}

theorem amid_bind (program : Program Q A α) (next : α → Program Q A β) (state : S)
    (post : β → S → Prop) :
    (program >>= next).Amid Rely Shows state post ↔
      program.Amid Rely Shows state fun value later => (next value).Amid Rely Shows later post := by
  induction program generalizing state with
  | done value => exact Iff.rfl
  | ask query rest ih => exact forall₄_congr fun later _ answer _ => ih answer later

variable {program : Program Q A α} {state : S} {post : α → S → Prop} {value : α}

theorem Amid.mono {weaker : α → S → Prop} (holds : program.Amid Rely Shows state post)
    (weaken : ∀ value later, post value later → weaker value later) :
    program.Amid Rely Shows state weaker := by
  induction program generalizing state with
  | done value => exact weaken _ _ holds
  | ask query next ih =>
    exact fun later relied answer shown => ih answer (holds later relied answer shown)

/-- A program may rely on all that happened while it ran. -/
theorem Amid.relied (reflexive : ∀ s, Rely s s)
    (transitive : ∀ {s t u}, Rely s t → Rely t u → Rely s u)
    (holds : program.Amid Rely Shows state post) :
    program.Amid Rely Shows state fun value later => Rely state later ∧ post value later := by
  induction program generalizing state with
  | done value => exact ⟨reflexive state, holds⟩
  | ask query next ih =>
    intro later relied answer shown
    refine (ih answer (holds later relied answer shown)).mono fun value last held => ?_
    exact ⟨transitive relied held.1, held.2⟩

theorem runs_ask {query : Q} {next : A query → Program Q A α} {trace : List (Observation Q A)}
    (runs : (Program.ask query next).Runs trace (some value)) :
    ∃ answer rest, trace = ⟨query, answer⟩ :: rest ∧ (next answer).Runs rest (some value) := by
  obtain ⟨script, executed⟩ := runs
  cases script with
  | nil => cases executed
  | cons answers script =>
    cases given : answers query with
    | none =>
      simp only [run, given] at executed
      cases executed
    | some answer =>
      simp only [run, given, Prod.mk.injEq] at executed
      exact ⟨answer, _, executed.1.symm, script, Prod.ext rfl executed.2⟩

/-- A client that finishes has done what it does amid all that the others did on the path. -/
theorem Amid.of_path [DecidableEq Client] {world : World Q A Client S} {client : Client}
    (reflexive : ∀ s, Rely s s) (transitive : ∀ {s t u}, Rely s t → Rely t u → Rely s u)
    (moves : ∀ {s t}, world.Moves s t → Rely s t) {path : List (Served Q A Client S)}
    (relies : ∀ served ∈ path, Rely served.before served.after)
    (shows : ∀ served ∈ path, served.client = client → Shows served.before served.observed)
    {known : S} (holds : program.Amid Rely Shows known post) (relied : Rely known state)
    (valid : world.Valid state path) (runs : program.Runs (observedBy client path) (some value)) :
    ∃ last, post value last := by
  induction path generalizing program known state with
  | nil =>
    cases program with
    | done result =>
      obtain ⟨script, executed⟩ := runs
      cases executed
      exact ⟨known, holds⟩
    | ask query next =>
      obtain ⟨_, _, ⟨⟩, _⟩ := runs_ask runs
  | cons first others ih =>
    obtain ⟨moved, _, valid⟩ := valid
    obtain ⟨after, relies⟩ := forall_mem_cons.mp relies
    obtain ⟨shown, shows⟩ := forall_mem_cons.mp shows
    have before : Rely known first.before :=
      transitive relied (moved.trans_induction_on reflexive moves fun _ _ => transitive)
    by_cases own : first.client = client
    · have split : observedBy client (first :: others) =
          first.observed :: observedBy client others := by
        simp [observedBy, own]
      rw [split] at runs
      cases program with
      | done result =>
        obtain ⟨script, executed⟩ := runs
        cases executed
      | ask query next =>
        obtain ⟨answer, rest, same, runs⟩ := runs_ask runs
        obtain ⟨head, rfl⟩ := cons.inj same
        have answered := shown own
        rw [head] at answered
        exact ih relies shows (holds first.before before answer answered) after valid runs
    · have skip : observedBy client (first :: others) = observedBy client others := by
        simp [observedBy, own]
      rw [skip] at runs
      exact ih relies shows holds (transitive before after) valid runs

/-- A program that is answered by one state that does not change does what it does amid
others. -/
theorem Amid.drive {Kind : Q → Prop} {answers : (query : Q) → Option (A query)}
    (answered : ∀ query, Kind query → ∃ answer, answers query = some answer ∧
      Shows state ⟨query, answer⟩) (holds : program.Amid Eq Shows state post)
    (asks : program.Every Kind) (past : List (Observation Q A)) :
    ∃ value, (program.drive (fun _ => answers) past).2 = some value ∧ post value state := by
  induction program generalizing past with
  | done value => exact ⟨value, rfl, holds⟩
  | ask query next ih =>
    obtain ⟨answer, given, shown⟩ := answered query asks.1
    obtain ⟨value, returned, held⟩ :=
      ih answer (holds state rfl answer shown) (asks.2 answer) (past ++ [⟨query, answer⟩])
    refine ⟨value, ?_, held⟩
    simp only [Program.drive, given]
    exact returned

section Play

variable (step : S → (query : Q) → A query × S) (drift : Q → S → S)

/-- A program with a store that drifts before a question and answers it in one way: the path, the
store afterwards and the value. -/
def play (client : Client) : Program Q A α → S → List (Served Q A Client S) × S × α
  | .done value, state => ([], state, value)
  | .ask query next, state =>
    let answered := step (drift query state) query
    let rest := (next answered.1).play client answered.2
    (⟨drift query state, client, ⟨query, answered.1⟩, answered.2⟩ :: rest.1, rest.2)

/-- A store that changes by its answers alone. -/
def still : Q → S → S := fun _ state => state

/-- Programs one after the other, each with its place in the list as its client. -/
def playAll : Nat → List (Program Q A α) → S → List (Served Q A Nat S) × List α
  | _, [], _ => ([], [])
  | client, program :: rest, state =>
    let played := program.play step still client state
    let others := playAll (client + 1) rest played.2.1
    (played.1 ++ others.1, played.2.2 :: others.2)

variable {step drift}

theorem play_observed [DecidableEq Client] {client asker : Client} (program : Program Q A α)
    (state : S) :
    observedBy asker (program.play step drift client state).1 =
      if client = asker then (program.play step drift client state).1.map (·.observed) else [] := by
  induction program generalizing state with
  | done value => simp [play, observedBy]
  | ask query next ih =>
    have rest := ih (step (drift query state) query).1 (step (drift query state) query).2
    simp only [play, observedBy, filterMap_cons] at rest ⊢
    by_cases own : client = asker
    · simpa [own] using rest
    · simpa [own] using rest

theorem play_runs (client : Client) (program : Program Q A α) (state : S) :
    program.Runs ((program.play step drift client state).1.map (·.observed))
      (some (program.play step drift client state).2.2) := by
  classical
  induction program generalizing state with
  | done value => exact ⟨[], rfl⟩
  | ask query next ih =>
    obtain ⟨script, executed⟩ := ih (step (drift query state) query).1
      (step (drift query state) query).2
    refine ⟨(fun asked => if same : asked = query then
      some (same ▸ (step (drift query state) query).1) else none) :: script, ?_⟩
    simp [run, executed, play]

theorem play_valid {world : World Q A Client S} (serves : ∀ client state query,
    world.Serves client state ⟨query, (step state query).1⟩ (step state query).2)
    (moves : ∀ query state, Relation.ReflTransGen world.Moves state (drift query state))
    (client : Client) (program : Program Q A α) (state : S) {rest : List (Served Q A Client S)}
    (valid : world.Valid (program.play step drift client state).2.1 rest) :
    world.Valid state ((program.play step drift client state).1 ++ rest) := by
  induction program generalizing state with
  | done value => exact valid
  | ask query next ih => exact ⟨moves query state, serves client _ query, ih _ _ valid⟩

variable {world : World Q A Nat S}

theorem playAll_valid (serves : ∀ client state query,
    world.Serves client state ⟨query, (step state query).1⟩ (step state query).2) (client : Nat)
    (programs : List (Program Q A α)) (state : S) :
    world.Valid state (playAll step client programs state).1 := by
  induction programs generalizing client state with
  | nil => trivial
  | cons program rest ih => exact play_valid serves (fun _ _ => .refl) client program state (ih _ _)

variable {asker : Nat} {programs : List (Program Q A α)}

theorem playAll_unobserved {client : Nat} (earlier : asker < client)
    (programs : List (Program Q A α)) (state : S) :
    observedBy asker (playAll step client programs state).1 = [] := by
  induction programs generalizing client state with
  | nil => rfl
  | cons program rest ih =>
    have later := ih (Nat.lt_succ_of_lt earlier) (program.play step still client state).2.1
    simp only [playAll, observedBy, filterMap_append] at later ⊢
    rw [later, ← observedBy, play_observed, if_neg (by omega), nil_append]

theorem observedBy_playAll_cons (asker client : Nat) (program : Program Q A α)
    (rest : List (Program Q A α)) (state : S) :
    observedBy asker (playAll step client (program :: rest) state).1 =
      observedBy asker (program.play step still client state).1 ++
        observedBy asker
          (playAll step (client + 1) rest (program.play step still client state).2.1).1 :=
  filterMap_append

/-- Each program observes its own part and returns its own value. -/
theorem playAll_runs {program : Program Q A α} (found : programs[asker]? = some program)
    (client : Nat) (state : S) :
    program.Runs (observedBy (client + asker) (playAll step client programs state).1)
      (playAll step client programs state).2[asker]? := by
  induction programs generalizing client state asker with
  | nil => cases found
  | cons first rest ih =>
    rw [observedBy_playAll_cons, play_observed]
    cases asker with
    | zero =>
      obtain rfl : first = program := Option.some.inj found
      rw [Nat.add_zero, if_pos rfl, playAll_unobserved (Nat.lt_add_one client),
        append_nil]
      exact play_runs client first state
    | succ asker =>
      have later := ih found (client + 1) (first.play step still client state).2.1
      rw [if_neg (by omega), nil_append, ← Nat.add_assoc, Nat.add_right_comm]
      exact later

theorem playAll_idle (outside : programs.length ≤ asker) (client : Nat) (state : S) :
    observedBy (client + asker) (playAll step client programs state).1 = [] := by
  induction programs generalizing client state asker with
  | nil => rfl
  | cons first rest ih =>
    rw [length_cons] at outside
    have later := ih (show rest.length ≤ asker - 1 by omega) (client + 1)
      (first.play step still client state).2.1
    have same : client + asker = client + 1 + (asker - 1) := by omega
    rw [observedBy_playAll_cons, play_observed, if_neg (by omega), nil_append, same, later]

theorem length_playAll (client : Nat) (programs : List (Program Q A α)) (state : S) :
    (playAll step client programs state).2.length = programs.length := by
  induction programs generalizing client state with
  | nil => rfl
  | cons first rest ih => exact congrArg (· + 1) (ih _ _)

/-- Every client runs its program, and clients without one are idle. -/
theorem playAll_executes (programs : List (Program Q A α)) (idle : α) (state : S) (client : Nat) :
    (programs[client]?.getD (.done idle)).Runs
      (observedBy client (playAll step 0 programs state).1)
      (some ((playAll step 0 programs state).2[client]?.getD idle)) := by
  have sized : (playAll step 0 programs state).2.length = programs.length :=
    length_playAll 0 programs state
  have own : client = 0 + client := (Nat.zero_add client).symm
  cases found : programs[client]? with
  | some program =>
    have inside := (List.getElem?_eq_some_iff.mp found).1
    have runs : program.Runs (observedBy (0 + client) (playAll step 0 programs state).1)
        (playAll step 0 programs state).2[client]? := playAll_runs found 0 state
    rw [Option.getD_some, getElem?_eq_getElem (sized ▸ inside), Option.getD_some]
    rwa [← own, getElem?_eq_getElem (sized ▸ inside)] at runs
  | none =>
    have outside := getElem?_eq_none_iff.mp found
    have unobserved : observedBy (0 + client) (playAll step 0 programs state).1 = [] :=
      playAll_idle outside 0 state
    rw [← own] at unobserved
    rw [unobserved, getElem?_eq_none (sized ▸ outside)]
    exact ⟨[], rfl⟩

end Play

end Program

/-- Of what two clients observed, a client has its own. -/
theorem filterMap_askedBy [DecidableEq Client] (client asker : Client)
    (trace : List (Observation Q A)) :
    ((trace.map fun observed => (asker, observed)).filterMap fun asked =>
      if asked.1 = client then some asked.2 else none) = if asker = client then trace else [] := by
  rw [filterMap_map]
  split
  · rename_i same
    exact (filterMap_congr fun observed _ => if_pos same).trans filterMap_some
  · rename_i other
    exact (filterMap_congr fun observed _ => if_neg other).trans (by simp)

end Durable
