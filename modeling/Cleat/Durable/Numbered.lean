import Mathlib.Data.List.Sort

/-!
# Rows that are numbered without a gap

Rows that carry consecutive numbers can be asked for by number: a query for a range of numbers,
for one number or for the rows up to a number has its answer at known places of the list. The
rules below turn such queries into `drop` and `take`.
-/
namespace Durable

open List

variable {α : Type} (number : α → Nat)

/-- The rows carry the numbers after `last`, one after the other. -/
def Numbered : Nat → List α → Prop
  | _, [] => True
  | last, row :: rest => number row = last + 1 ∧ Numbered (last + 1) rest

variable {number} {last : Nat} {rows : List α}

theorem numbered_append {more : List α} :
    Numbered number last (rows ++ more) ↔
      Numbered number last rows ∧ Numbered number (last + rows.length) more := by
  induction rows generalizing last with
  | nil => simp [Numbered]
  | cons row rest ih =>
    simp only [cons_append, Numbered, ih, and_assoc, length_cons]
    rw [Nat.add_right_comm, Nat.add_assoc]

variable (numbered : Numbered number last rows)

include numbered

theorem Numbered.drop {count : Nat} (enough : count ≤ rows.length)
    : Numbered number (last + count) (rows.drop count) := by
  rw [← take_append_drop count rows, numbered_append, length_take_of_le enough]
    at numbered
  exact numbered.2

theorem Numbered.bounds :
    ∀ row ∈ rows, last < number row ∧ number row ≤ last + rows.length := by
  induction rows generalizing last with
  | nil => simp
  | cons row rest ih =>
    obtain ⟨here, numbered⟩ := numbered
    intro other member
    rw [length_cons]
    obtain rfl | later := mem_cons.mp member
    · omega
    · have bounds := ih numbered other later
      omega

theorem Numbered.pairwise :
    rows.Pairwise fun row other => number row < number other := by
  induction rows generalizing last with
  | nil => exact .nil
  | cons row rest ih =>
    obtain ⟨here, numbered⟩ := numbered
    refine pairwise_cons.mpr ⟨fun other member => ?_, ih numbered⟩
    have bounds := numbered.bounds other member
    omega

/-- Sorting by number changes nothing. -/
theorem Numbered.insertionSort_eq :
    rows.insertionSort (fun row other => number row ≤ number other) = rows :=
  List.Pairwise.insertionSort_eq (numbered.pairwise.imp fun less => Nat.le_of_lt less)

/-- The rows beyond a number. -/
theorem Numbered.filter_gt (after : Nat) :
    rows.filter (fun row => after < number row) = rows.drop (after - last) := by
  induction rows generalizing last with
  | nil => simp
  | cons row rest ih =>
    have whole := numbered.bounds
    obtain ⟨here, numbered⟩ := numbered
    by_cases beyond : after ≤ last
    · have all : ∀ other ∈ row :: rest, decide (after < number other) = true := by
        intro other member
        have bounds := whole other member
        exact decide_eq_true (by omega)
      rw [filter_eq_self.mpr all, Nat.sub_eq_zero_of_le beyond, drop_zero]
    · have dropped : after - last = (after - (last + 1)) + 1 := by omega
      rw [filter_cons_of_neg (by rw [here]; simp; omega), ih numbered, dropped,
        drop_succ_cons]

/-- The rows up to a number. -/
theorem Numbered.filter_le (bound : Nat) :
    rows.filter (fun row => number row ≤ bound) = rows.take (bound - last) := by
  induction rows generalizing last with
  | nil => simp
  | cons row rest ih =>
    have whole := numbered.bounds
    obtain ⟨here, numbered⟩ := numbered
    by_cases beyond : bound ≤ last
    · have none : ∀ other ∈ row :: rest, ¬ decide (number other ≤ bound) = true := by
        intro other member
        have bounds := whole other member
        simp only [decide_eq_true_eq]
        omega
      rw [filter_eq_nil_iff.mpr none, Nat.sub_eq_zero_of_le beyond, take_zero]
    · have taken : bound - last = (bound - (last + 1)) + 1 := by omega
      rw [filter_cons_of_pos (by rw [here]; simp; omega), ih numbered, taken,
        take_succ_cons]

theorem Numbered.take (count : Nat) :
    Numbered number last (rows.take count) := by
  rw [← take_append_drop count rows, numbered_append] at numbered
  exact numbered.1

/-- The rows between two numbers. -/
theorem Numbered.filter_between (after bound : Nat) :
    rows.filter (fun row => after < number row && number row ≤ bound) =
      (rows.take (bound - last)).drop (after - last) := by
  rw [← filter_filter, numbered.filter_le, (numbered.take _).filter_gt]

/-- The row of a number. -/
theorem Numbered.find?_eq {wanted : Nat} (beyond : last < wanted) :
    rows.find? (fun row => number row = wanted) = rows[wanted - last - 1]? := by
  induction rows generalizing last with
  | nil => rfl
  | cons row rest ih =>
    obtain ⟨here, numbered⟩ := numbered
    by_cases first : wanted = last + 1
    · have place : wanted - last - 1 = 0 := by omega
      rw [find?_cons_of_pos (by simp [here, first]), place, getElem?_cons_zero]
    · have place : wanted - last - 1 = (wanted - (last + 1) - 1) + 1 := by omega
      rw [find?_cons_of_neg (by rw [here]; simp; omega), ih numbered (by omega), place,
        getElem?_cons_succ]

end Durable
