import Cleat.Durable.World

/-!
# A program among the changes of others

One program asks a store that others change between its questions. What it relies on is how the
others change the store. What it keeps is said of each of its questions together with all that
it asked before.
-/
namespace Durable

open List

variable {Q : Type} {A : Q → Type} {S α β : Type}

namespace World

/-- The state after the last question of a path. -/
def lastState : S → List (Served Q A Unit S) → S
  | state, [] => state
  | _, served :: rest => lastState served.after rest

end World

namespace Program

/-- A program does its work among the changes of others: each of its questions finds the store
as the others have left it, keeps its promise, and leaves the store to the rest of the program.
The postcondition is about the value, all that was asked, and the store after the last
question. -/
def Among (Rely : S → S → Prop) (Serves : S → Observation Q A → S → Prop)
    (Keeps : List (Served Q A Unit S) → Served Q A Unit S → Prop) :
    Program Q A α → List (Served Q A Unit S) → S →
      (α → List (Served Q A Unit S) → S → Prop) → Prop
  | .done value, past, state, post => post value past state
  | .ask query next, past, state, post =>
    ∀ before, Rely state before → ∀ answer after, Serves before ⟨query, answer⟩ after →
      Keeps past ⟨before, (), ⟨query, answer⟩, after⟩ ∧
        (next answer).Among Rely Serves Keeps
          (past ++ [⟨before, (), ⟨query, answer⟩, after⟩]) after post

variable {Rely : S → S → Prop} {Serves : S → Observation Q A → S → Prop}
  {Keeps : List (Served Q A Unit S) → Served Q A Unit S → Prop}
  {past : List (Served Q A Unit S)} {state : S}

theorem among_bind (program : Program Q A α) (next : α → Program Q A β)
    (past : List (Served Q A Unit S)) (state : S) (post : β → List (Served Q A Unit S) → S → Prop) :
    (program >>= next).Among Rely Serves Keeps past state post ↔
      program.Among Rely Serves Keeps past state fun value later state =>
        (next value).Among Rely Serves Keeps later state post := by
  induction program generalizing past state with
  | done value => exact Iff.rfl
  | ask query rest ih =>
    exact forall₅_congr fun _ _ answer after _ => and_congr_right fun _ => ih answer _ after

variable {program : Program Q A α} {post : α → List (Served Q A Unit S) → S → Prop}

theorem Among.mono {weaker : α → List (Served Q A Unit S) → S → Prop}
    (holds : program.Among Rely Serves Keeps past state post)
    (weaken : ∀ value later state, post value later state → weaker value later state) :
    program.Among Rely Serves Keeps past state weaker := by
  induction program generalizing past state with
  | done value => exact weaken _ _ _ holds
  | ask query next ih =>
    intro before relied answer after served
    obtain ⟨kept, holds⟩ := holds before relied answer after served
    exact ⟨kept, ih answer holds⟩

/-- What the others and the questions keep is kept by the program, and nothing that was asked is
forgotten. -/
theorem Among.lasting {Lasts : S → S → Prop} (reflexive : ∀ s, Lasts s s)
    (transitive : ∀ {s t u}, Lasts s t → Lasts t u → Lasts s u)
    (others : ∀ {s t}, Rely s t → Lasts s t)
    (own : ∀ {s observed t}, Serves s observed t → Lasts s t)
    (holds : program.Among Rely Serves Keeps past state post) :
    program.Among Rely Serves Keeps past state fun value later last =>
      Lasts state last ∧ past ⊆ later ∧ post value later last := by
  induction program generalizing past state with
  | done value => exact ⟨reflexive state, List.Subset.refl past, holds⟩
  | ask query next ih =>
    intro before relied answer after served
    obtain ⟨kept, holds⟩ := holds before relied answer after served
    refine ⟨kept, (ih answer holds).mono ?_⟩
    rintro value later last ⟨lasts, inside, held⟩
    refine ⟨transitive (transitive (others relied) (own served)) lasts, ?_, held⟩
    exact List.Subset.trans (subset_append_left past _) inside

/-- One action after the other. -/
def each (act : β → Program Q A Unit) : List β → Program Q A Unit
  | [] => .done ()
  | item :: rest => act item >>= fun _ => each act rest

/-- A loop keeps an invariant that knows which items are done. -/
theorem among_each {act : β → Program Q A Unit} {items : List β}
    (Inv : List β → List (Served Q A Unit S) → S → Prop) (start : Inv [] past state)
    (step : ∀ finished item later state, item ∈ items → Inv finished later state →
      (act item).Among Rely Serves Keeps later state fun _ => Inv (finished ++ [item])) :
    (each act items).Among Rely Serves Keeps past state fun _ => Inv items := by
  have loop : ∀ (finished rest : List β) (past : List (Served Q A Unit S)) (state : S),
      (∀ item ∈ rest, item ∈ items) → Inv finished past state →
      (each act rest).Among Rely Serves Keeps past state fun _ => Inv (finished ++ rest) := by
    intro finished rest
    induction rest generalizing finished with
    | nil =>
      intro past state _ held
      rw [append_nil]
      exact held
    | cons item rest ih =>
      intro past state inside held
      refine (among_bind _ _ _ _ _).mpr ((step finished item past state
        (inside item (mem_cons_self ..)) held).mono ?_)
      intro _ later state held
      have rests := ih (finished ++ [item]) later state
        (fun other member => inside other (mem_cons_of_mem _ member)) held
      rwa [append_assoc] at rests
  exact loop [] items past state (fun _ member => member) start

/-- A program that finishes has kept its promises at each question, and has done what it does
among the others. -/
theorem Among.of_path {world : World Q A Unit S}
    (relies : ∀ {s t}, Relation.ReflTransGen world.Moves s t → Rely s t)
    {path : List (Served Q A Unit S)}
    (serves : ∀ served ∈ path, Serves served.before served.observed served.after)
    (holds : program.Among Rely Serves Keeps past state post) (valid : world.Valid state path)
    {value : α} (runs : program.Runs (path.map (·.observed)) (some value)) :
    (∀ earlier served later, path = earlier ++ served :: later → Keeps (past ++ earlier) served) ∧
      post value (past ++ path) (World.lastState state path) := by
  induction path generalizing program past state with
  | nil =>
    cases program with
    | done result =>
      obtain ⟨script, executed⟩ := runs
      cases executed
      refine ⟨?_, ?_⟩
      · intro earlier served later same
        simp at same
      · rw [append_nil]
        exact holds
    | ask query next =>
      obtain ⟨_, _, ⟨⟩, _⟩ := runs_ask runs
  | cons first others ih =>
    obtain ⟨moved, _, valid⟩ := valid
    obtain ⟨served, serves⟩ := forall_mem_cons.mp serves
    cases program with
    | done result =>
      obtain ⟨script, executed⟩ := runs
      cases executed
    | ask query next =>
      obtain ⟨answer, rest, same, runs⟩ := runs_ask runs
      rw [map_cons] at same
      obtain ⟨head, rfl⟩ := cons.inj same
      rw [head] at served
      obtain ⟨kept, holds⟩ := holds first.before (relies moved) answer first.after served
      have whole : (⟨first.before, (), ⟨query, answer⟩, first.after⟩ : Served Q A Unit S) =
          first := by
        rw [← head]
      rw [whole] at kept holds
      obtain ⟨keeps, held⟩ := ih serves holds valid runs
      constructor
      · intro earlier served later same
        cases earlier with
        | nil =>
          obtain ⟨rfl, rfl⟩ := cons.inj same
          rw [append_nil]
          exact kept
        | cons second earlier =>
          obtain ⟨rfl, rest⟩ := cons.inj same
          have kept := keeps earlier served later rest
          rwa [append_assoc] at kept
      · rwa [append_assoc] at held

end Program

end Durable
