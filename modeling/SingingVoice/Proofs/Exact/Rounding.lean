import Mathlib
import SingingVoice.Proofs.Exact.Scalar

/-!
# Exact rounding

Rounding a real number moves it by half a unit at most, onto a whole number, and keeps the order.
Cutting a real number to a range keeps the order too. Numbers between whole numbers are therefore
rounded to numbers between them.
-/

namespace SingingVoice.Exact

/-- A number that is not negative is rounded down from half a unit above it. -/
theorem round_of_nonneg {x : ℝ} (h : 0 ≤ x) : Scalar.round x = (⌊x + 1 / 2⌋ : ℝ) :=
  if_pos h

/-- A negative number is rounded up from half a unit below it. -/
theorem round_of_neg {x : ℝ} (h : x < 0) : Scalar.round x = (⌈x - 1 / 2⌉ : ℝ) :=
  if_neg (not_le.mpr h)

/-- A number is rounded to a whole number half a unit away at most. -/
theorem exists_round_eq (x : ℝ) : ∃ n : ℤ, Scalar.round x = (n : ℝ) ∧ |(n : ℝ) - x| ≤ 1 / 2 := by
  rcases le_or_gt 0 x with hnonneg | hneg
  · refine ⟨⌊x + 1 / 2⌋, round_of_nonneg hnonneg, ?_⟩
    have hlow := Int.lt_floor_add_one (x + 1 / 2)
    have hhigh := Int.floor_le (x + 1 / 2)
    rw [abs_le]
    constructor <;> linarith
  · refine ⟨⌈x - 1 / 2⌉, round_of_neg hneg, ?_⟩
    have hlow := Int.le_ceil (x - 1 / 2)
    have hhigh := Int.ceil_lt_add_one (x - 1 / 2)
    rw [abs_le]
    constructor <;> linarith

/-- The greatest whole number below half a unit more is half a unit away at most. -/
theorem abs_floor_half_sub_le {x : ℝ} (h : 0 ≤ x) : |(⌊x + 1 / 2⌋₊ : ℝ) - x| ≤ 1 / 2 := by
  have hlow := Nat.lt_floor_add_one (x + 1 / 2)
  have hhigh := Nat.floor_le (by linarith : 0 ≤ x + 1 / 2)
  rw [abs_le]
  constructor <;> linarith

/-- Rounding keeps the order. -/
theorem round_mono : Monotone (Scalar.round : ℝ → ℝ) := by
  intro x y hle
  rcases le_or_gt 0 x with hx | hx
  · rw [round_of_nonneg hx, round_of_nonneg (hx.trans hle)]
    exact_mod_cast Int.floor_mono (by linarith)
  · rcases le_or_gt 0 y with hy | hy
    · -- the two are rounded in different directions, but to either side of zero
      have hdown : ⌈x - 1 / 2⌉ ≤ 0 := Int.ceil_le.mpr (by push_cast; linarith)
      have hup : 0 ≤ ⌊y + 1 / 2⌋ := Int.le_floor.mpr (by push_cast; linarith)
      rw [round_of_neg hx, round_of_nonneg hy]
      exact_mod_cast hdown.trans hup
    · rw [round_of_neg hx, round_of_neg hy]
      exact_mod_cast Int.ceil_mono (by linarith)

/-- A number between whole numbers is rounded to one between them. -/
theorem round_between {low high : ℤ} {x : ℝ} (hlow : (low : ℝ) ≤ x) (hhigh : x ≤ high) :
    (low : ℝ) ≤ Scalar.round x ∧ Scalar.round x ≤ (high : ℝ) := by
  have hdown := round_mono hlow
  have hup := round_mono hhigh
  rw [round_intCast] at hdown hup
  exact ⟨hdown, hup⟩

/-- The integer part of a whole number is the number. -/
@[simp] theorem toInt_intCast (n : ℤ) : Scalar.toInt (n : ℝ) = n := by
  show (if 0 ≤ (n : ℝ) then ⌊(n : ℝ)⌋ else ⌈(n : ℝ)⌉) = n
  rw [Int.floor_intCast, Int.ceil_intCast, ite_self]

/-- A number is cut to a range from below and from above. -/
theorem clamp_eq {low high : ℝ} (h : low ≤ high) (x : ℝ) :
    Scalar.clamp low high x = max low (min high x) := by
  unfold Scalar.clamp
  split_ifs with hlow hhigh
  · rw [min_eq_right (hlow.le.trans h), max_eq_left hlow.le]
  · rw [min_eq_left hhigh.le, max_eq_right h]
  · rw [min_eq_right (not_lt.mp hhigh), max_eq_right (not_lt.mp hlow)]

/-- Cutting to a range keeps the order. -/
theorem clamp_mono {low high : ℝ} (h : low ≤ high) :
    Monotone (Scalar.clamp low high : ℝ → ℝ) := by
  intro x y hle
  rw [clamp_eq h, clamp_eq h]
  exact max_le_max le_rfl (min_le_min le_rfl hle)

/-- A number that is cut to a range lies in it. -/
theorem clamp_between {low high : ℝ} (h : low ≤ high) (x : ℝ) :
    low ≤ Scalar.clamp low high x ∧ Scalar.clamp low high x ≤ high := by
  rw [clamp_eq h]
  exact ⟨le_max_left _ _, max_le h (min_le_left _ _)⟩

end SingingVoice.Exact
