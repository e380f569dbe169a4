import Mathlib.Data.List.Basic

/-!
# Copying fields by a table

A record can be given by its fields: a function from their names to their values. A table
lists which field of one record takes which field of another, and `fill` builds a record
from another one by such a table. A field that the table does not list keeps its zero.

Two tables that undo each other carry a record there and back except for the fields the
second one does not fill. What is lost on the way can thus be read off the tables.
-/
namespace Durable

variable {F G V : Type} [DecidableEq G] {zero : V}

/-- The record that takes its fields from another one by a table. -/
def fill (zero : V) (table : List (G × F)) (source : F → V) (field : G) : V :=
  (table.lookup field).elim zero source

theorem fill_map {W : Type} (change : V → W) (zero : V) (table : List (G × F)) (source : F → V)
    (field : G) :
    fill (change zero) table (fun origin => change (source origin)) field =
      change (fill zero table source field) := by
  cases found : table.lookup field with
  | none => simp [fill, found]
  | some origin => simp [fill, found]

/-- The fields a table fills. -/
def filled (table : List (G × F)) : List G := table.map Prod.fst

theorem not_filled_of_lookup {table : List (G × F)} {field : G}
    (absent : table.lookup field = none) : field ∉ filled table := by
  rw [filled, List.mem_map]
  rintro ⟨pair, member, rfl⟩
  simpa using List.lookup_eq_none_iff.mp absent pair member

theorem mem_of_lookup {table : List (G × F)} {field : G} {origin : F}
    (found : table.lookup field = some origin) : (field, origin) ∈ table := by
  obtain ⟨front, rest, rfl, _⟩ := List.lookup_eq_some_iff.mp found
  simp

/-- A record filled from one that holds the fields of a third where the table reads them. -/
theorem fill_reads {table : List (G × F)} {target : F → V} {source : G → V}
    (reads : ∀ pair ∈ table, target pair.2 = source pair.1) (field : G) :
    fill zero table target field = if field ∈ filled table then source field else zero := by
  cases found : table.lookup field with
  | none => simp [fill, found, not_filled_of_lookup found]
  | some origin =>
    have member := mem_of_lookup found
    have inside : field ∈ filled table := List.mem_map.mpr ⟨_, member, rfl⟩
    simp only [fill, found, Option.elim_some, inside, if_true]
    exact reads _ member

variable [DecidableEq F]

/-- Every field that a table reads was written from the field that it fills. -/
def Undoes (back : List (F × G)) (forth : List (G × F)) : Prop :=
  ∀ pair ∈ back, forth.lookup pair.2 = some pair.1

instance (back : List (F × G)) (forth : List (G × F)) : Decidable (Undoes back forth) :=
  inferInstanceAs (Decidable (∀ pair ∈ back, _))

omit [DecidableEq F] in
theorem Undoes.reads {back : List (F × G)} {forth : List (G × F)} (undoes : Undoes back forth)
    (source : F → V) : ∀ pair ∈ back, fill zero forth source pair.2 = source pair.1 := by
  intro pair member
  simp [fill, undoes pair member]

end Durable
