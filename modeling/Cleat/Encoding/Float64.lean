import Mathlib.Tactic.Ring

/-!
# Integers as 64-bit floating-point numbers

A double has 53 significant bits. An integer that needs more is rounded to a multiple of a
power of two, to the nearest one and on a tie to the even one. `float64` is the integer that
is left. A number survives exactly if it is such a multiple itself.

Converting back to a 64-bit integer is only defined in the range of the integers. The largest
integers round up out of that range, and what they become is up to the platform.
-/
namespace Encoding

/-- A magnitude rounded to a multiple, on a tie to the even one. -/
def roundTo (unit magnitude : Nat) : Nat :=
  let quotient := magnitude / unit
  let remainder := magnitude % unit
  if 2 * remainder < unit then quotient * unit
  else if unit < 2 * remainder then (quotient + 1) * unit
  else if quotient % 2 = 0 then quotient * unit
  else (quotient + 1) * unit

/-- The distance of the doubles around a magnitude. -/
def spacing (magnitude : Nat) : Nat := 2 ^ (Nat.log2 magnitude - 52)

/-- The double nearest to an integer. -/
def float64 (number : Int) : Int :=
  number.sign * roundTo (spacing number.natAbs) number.natAbs

theorem spacing_pos (magnitude : Nat) : 0 < spacing magnitude := Nat.two_pow_pos _

theorem roundTo_eq_self_iff {unit magnitude : Nat} (positive : 0 < unit) :
    roundTo unit magnitude = magnitude ↔ unit ∣ magnitude := by
  have split := Nat.div_add_mod' magnitude unit
  have small := Nat.mod_lt magnitude positive
  constructor
  · intro same
    simp only [roundTo] at same
    have next : (magnitude / unit + 1) * unit = magnitude / unit * unit + unit := by ring
    split at same
    · omega
    · split at same
      · omega
      · split at same <;> omega
  · intro exact
    simp only [roundTo]
    rw [if_pos (by omega)]
    omega

/-- A number survives exactly if it is a multiple of the distance between doubles. -/
theorem float64_eq_self_iff {number : Int} :
    float64 number = number ↔ spacing number.natAbs ∣ number.natAbs := by
  rw [← roundTo_eq_self_iff (spacing_pos _)]
  rcases Int.lt_trichotomy number 0 with negative | rfl | positive
  · rw [float64, Int.sign_eq_neg_one_of_neg negative]
    omega
  · simp [float64, roundTo]
  · rw [float64, Int.sign_eq_one_of_pos positive]
    omega

/-- The range of 64-bit integers. -/
def Int64Range (number : Int) : Prop := -2 ^ 63 ≤ number ∧ number < 2 ^ 63

instance (number : Int) : Decidable (Int64Range number) :=
  inferInstanceAs (Decidable (_ ∧ _))

/-- A double as a 64-bit integer. Outside the range the platform decides. -/
def toInt64 (overflow value : Int) : Int := if Int64Range value then value else overflow

/-- A 64-bit integer that comes back from a double: it needs no rounding, or it is rounded up
out of the range and the platform happens to give it back. -/
def Survives (overflow number : Int) : Prop :=
  spacing number.natAbs ∣ number.natAbs ∨ 2 ^ 63 - 512 ≤ number ∧ overflow = number

theorem spacing_le {magnitude : Nat} (positive : 0 < magnitude) : spacing magnitude ≤ magnitude :=
  calc 2 ^ (Nat.log2 magnitude - 52) ≤ 2 ^ Nat.log2 magnitude :=
        Nat.pow_le_pow_right (by decide) (Nat.sub_le _ _)
    _ ≤ magnitude := Nat.log2_self_le (by omega)

theorem roundTo_le (unit magnitude : Nat) : roundTo unit magnitude ≤ magnitude + unit := by
  have split := Nat.div_add_mod' magnitude unit
  have next : (magnitude / unit + 1) * unit = magnitude / unit * unit + unit := by ring
  simp only [roundTo]
  split
  · omega
  · split
    · omega
    · split <;> omega

theorem spacing_large {magnitude : Nat} (low : 2 ^ 62 ≤ magnitude) (high : magnitude < 2 ^ 63) :
    spacing magnitude = 1024 := by
  have bits : Nat.log2 magnitude = 62 := by
    rw [Nat.log2_eq_iff (by omega)]
    exact ⟨low, high⟩
  rw [spacing, bits]
  rfl

/-- Only the largest magnitudes are rounded out of the range. -/
theorem roundTo_spacing {magnitude : Nat} (high : magnitude < 2 ^ 63) :
    roundTo (spacing magnitude) magnitude ≤ 2 ^ 63 ∧
      (roundTo (spacing magnitude) magnitude = 2 ^ 63 ↔ 2 ^ 63 - 512 ≤ magnitude) := by
  by_cases low : 2 ^ 62 ≤ magnitude
  · rw [spacing_large low high]
    simp only [roundTo]
    split
    · omega
    · split
      · omega
      · split <;> omega
  · rcases Nat.eq_zero_or_pos magnitude with rfl | positive
    · decide
    · have near := roundTo_le (spacing magnitude) magnitude
      have less := spacing_le positive
      omega

/-- A 64-bit integer that is stored as a double comes back exactly if it survives. -/
theorem toInt64_float64_eq_iff {overflow number : Int} (typed : Int64Range number) :
    toInt64 overflow (float64 number) = number ↔ Survives overflow number := by
  obtain ⟨low, high⟩ := typed
  rw [Survives, ← float64_eq_self_iff, toInt64]
  rcases Int.lt_trichotomy number 0 with negative | rfl | positive
  · -- A negative number stays in the range, which reaches one further on this side.
    have bounded : -2 ^ 63 ≤ float64 number ∧ float64 number ≤ 0 := by
      rw [float64, Int.sign_eq_neg_one_of_neg negative]
      by_cases least : number = -2 ^ 63
      · subst least
        decide
      · obtain ⟨bounded, _⟩ := roundTo_spacing (show number.natAbs < 2 ^ 63 by omega)
        omega
    rw [if_pos ⟨bounded.1, by omega⟩]
    omega
  · simp [float64, Int64Range]
  · obtain ⟨bounded, reached⟩ := roundTo_spacing (show number.natAbs < 2 ^ 63 by omega)
    have value : float64 number = roundTo (spacing number.natAbs) number.natAbs := by
      rw [float64, Int.sign_eq_one_of_pos positive, one_mul]
    by_cases inside : float64 number < 2 ^ 63
    · rw [if_pos ⟨by omega, inside⟩]
      omega
    · have outside : ¬Int64Range (float64 number) := fun within => inside within.2
      rw [if_neg outside]
      omega

end Encoding
