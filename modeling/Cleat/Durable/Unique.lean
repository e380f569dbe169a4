import Mathlib.Logic.Basic

/-!
# One value of a unique key under read committed

A unique key has at most one row for each of its values. A transaction that has inserted or deleted
the row holds it until it ends: the others see what was committed before, and one that wants to
insert the row waits. An insertion that does nothing on a conflict finds a committed row there, or
adds its own.
-/
namespace Durable

variable {Tx Row : Type} [DecidableEq Tx]

/-- The committed row, and the transaction that has changed it with what it would leave. -/
structure Slot (Tx Row : Type) where
  row : Option Row := none
  writer : Option (Tx × Option Row) := none

/-- What an insertion that does nothing on a conflict comes to. -/
inductive Insertion where
  | inserted | conflict | waits
deriving DecidableEq

namespace Slot

variable (slot : Slot Tx Row) (tx : Tx)

/-- The row as a statement of the transaction sees it. -/
def seen : Option Row :=
  match slot.writer with
  | none => slot.row
  | some (other, left) => if other = tx then left else slot.row

/-- `INSERT … ON CONFLICT DO NOTHING`. -/
def insert (new : Row) : Insertion × Slot Tx Row :=
  match slot.writer with
  | none =>
    if slot.row.isSome then (.conflict, slot)
    else (.inserted, { slot with writer := some (tx, some new) })
  | some (other, left) =>
    if other = tx then
      if left.isSome then (.conflict, slot)
      else (.inserted, { slot with writer := some (tx, some new) })
    else (.waits, slot)

/-- `DELETE … WHERE` of a row that no other transaction holds. -/
def delete (p : Row → Bool) : Slot Tx Row :=
  if (slot.seen tx).any p then { slot with writer := some (tx, none) } else slot

/-- Another transaction has changed the row, and the statement would have to wait for it. -/
def busy : Bool := slot.writer.any fun writer => writer.1 ≠ tx

/-- The end of a transaction: what it has left is there, or what was there before. -/
def finish (committed : Bool) : Slot Tx Row :=
  match slot.writer with
  | none => slot
  | some (other, left) =>
    if other = tx then { row := if committed then left else slot.row } else slot

variable {slot tx}

/-- An insertion that need not wait finds no row and adds its own, or finds one. -/
theorem insert_cases (slot : Slot Tx Row) (tx : Tx) (new : Row) : (slot.insert tx new).1 = .waits ∨ slot.busy tx = false ∧
    slot.insert tx new = if (slot.seen tx).isSome then (.conflict, slot)
      else (.inserted, { slot with writer := some (tx, some new) }) := by
  obtain ⟨row, writer⟩ := slot
  rcases writer with _ | ⟨other, left⟩
  · cases row <;> simp [insert, busy, seen]
  · by_cases own : other = tx
    · subst own
      cases left <;> simp [insert, busy, seen]
    · simp [insert, own]

theorem of_inserted {new : Row} (inserted : (slot.insert tx new).1 = .inserted) :
    slot.busy tx = false ∧ slot.seen tx = none ∧
      (slot.insert tx new).2 = { slot with writer := some (tx, some new) } := by
  have found := slot.insert_cases tx new
  cases seen : slot.seen tx <;> simp_all

theorem of_conflict {new : Row} (conflict : (slot.insert tx new).1 = .conflict) :
    ∃ row, slot.seen tx = some row := by
  have found := slot.insert_cases tx new
  cases seen : slot.seen tx <;> simp_all

/-- A transaction that holds nothing and need not wait finds nobody there. -/
theorem writer_eq_none (free : slot.busy tx = false)
    (idle : ∀ left, slot.writer ≠ some (tx, left)) : slot.writer = none := by
  obtain ⟨row, writer⟩ := slot
  rcases writer with _ | ⟨other, left⟩
  · rfl
  · have own : other = tx := by simpa [busy] using free
    exact absurd (by rw [own]) (idle left)

/-- A transaction that holds nothing sees what is committed. -/
theorem seen_of_ne (idle : ∀ left, slot.writer ≠ some (tx, left)) : slot.seen tx = slot.row := by
  obtain ⟨row, writer⟩ := slot
  rcases writer with _ | ⟨holder, left⟩
  · rfl
  · have apart : holder ≠ tx := fun same => idle left (by rw [same])
    simp [seen, apart]

/-- The end of a transaction ends its hold and nobody else's. -/
theorem writer_finish {committed : Bool} {other : Tx} {left : Option Row} :
    (slot.finish tx committed).writer = some (other, left) ↔
      slot.writer = some (other, left) ∧ other ≠ tx := by
  obtain ⟨row, writer⟩ := slot
  rcases writer with _ | ⟨holder, held⟩
  · simp [finish]
  · by_cases own : holder = tx
    · subst own
      simp only [finish, if_true, Option.some.injEq, Prod.mk.injEq, reduceCtorEq, false_iff]
      rintro ⟨⟨rfl, _⟩, apart⟩
      exact apart rfl
    · simp only [finish, if_neg own, Option.some.injEq, Prod.mk.injEq, iff_self_and]
      rintro ⟨rfl, _⟩
      exact own

theorem row_finish_false : (slot.finish tx false).row = slot.row := by
  obtain ⟨row, writer⟩ := slot
  rcases writer with _ | ⟨holder, held⟩
  · rfl
  · by_cases own : holder = tx <;> simp [finish, own]

theorem finish_of_ne (other : ∀ left, slot.writer ≠ some (tx, left)) (committed : Bool) :
    slot.finish tx committed = slot := by
  obtain ⟨row, writer⟩ := slot
  rcases writer with _ | ⟨holder, left⟩
  · rfl
  · have apart : holder ≠ tx := fun same => other left (by rw [same])
    simp [finish, apart]

theorem finish_of_writer {left : Option Row} (own : slot.writer = some (tx, left))
    (committed : Bool) :
    slot.finish tx committed = { row := if committed then left else slot.row } := by
  simp [finish, own]

end Slot

end Durable
