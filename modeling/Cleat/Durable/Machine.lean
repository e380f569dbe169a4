import Mathlib.Data.List.Basic

/-!
# Machines that take one action after another

A machine has a state, and an action leads from one state to the next. What is kept by every
action that is allowed where it is taken holds after every sequence of such actions.
-/
namespace Durable

variable {σ α : Type}

/-- The state after a sequence of actions. -/
def stateAfter (step : σ → α → σ) (state : σ) (actions : List α) : σ := actions.foldl step state

@[simp] theorem stateAfter_nil (step : σ → α → σ) (state : σ) : stateAfter step state [] = state :=
  rfl

@[simp] theorem stateAfter_cons (step : σ → α → σ) (state : σ) (action : α) (rest : List α) :
    stateAfter step state (action :: rest) = stateAfter step (step state action) rest := rfl

theorem stateAfter_append (step : σ → α → σ) (state : σ) (earlier later : List α) :
    stateAfter step state (earlier ++ later) =
      stateAfter step (stateAfter step state earlier) later :=
  List.foldl_append

/-- What holds at first and is kept by every action holds in the end. -/
theorem stateAfter_invariant {step : σ → α → σ} {state : σ} (Inv : σ → Prop)
    (kept : ∀ state action, Inv state → Inv (step state action)) (start : Inv state)
    (actions : List α) : Inv (stateAfter step state actions) := by
  induction actions generalizing state with
  | nil => exact start
  | cons action rest ih => exact ih (kept state action start)

/-- Each action is allowed in the state in which it is taken. -/
def Allows (step : σ → α → σ) (Allowed : σ → α → Prop) : σ → List α → Prop
  | _, [] => True
  | state, action :: rest => Allowed state action ∧ Allows step Allowed (step state action) rest

instance (step : σ → α → σ) (Allowed : σ → α → Prop)
    [decided : ∀ state action, Decidable (Allowed state action)] :
    ∀ state actions, Decidable (Allows step Allowed state actions)
  | _, [] => inferInstanceAs (Decidable True)
  | state, action :: rest =>
    have := instDecidableAllows step Allowed (step state action) rest
    inferInstanceAs (Decidable (_ ∧ _))

variable {step : σ → α → σ} {Allowed : σ → α → Prop} {state : σ}

theorem allows_append {earlier later : List α} :
    Allows step Allowed state (earlier ++ later) ↔ Allows step Allowed state earlier ∧
      Allows step Allowed (stateAfter step state earlier) later := by
  induction earlier generalizing state with
  | nil => simp [Allows]
  | cons action rest ih => simp only [List.cons_append, Allows, ih, stateAfter_cons, and_assoc]

/-- Actions that are allowed everywhere. -/
theorem allows_of_forall {actions : List α}
    (everywhere : ∀ action ∈ actions, ∀ state, Allowed state action) :
    Allows step Allowed state actions := by
  induction actions generalizing state with
  | nil => trivial
  | cons action rest ih =>
    rw [List.forall_mem_cons] at everywhere
    exact ⟨everywhere.1 state, ih everywhere.2⟩

/-- What holds at first and is kept by every allowed action holds in the end. -/
theorem Allows.invariant {actions : List α} (allowed : Allows step Allowed state actions)
    (Inv : σ → Prop)
    (kept : ∀ state action, Allowed state action → Inv state → Inv (step state action))
    (start : Inv state) : Inv (stateAfter step state actions) := by
  induction actions generalizing state with
  | nil => exact start
  | cons action rest ih => exact ih allowed.2 (kept state action allowed.1 start)

end Durable
