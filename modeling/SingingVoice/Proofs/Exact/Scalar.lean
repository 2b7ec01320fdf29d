import Mathlib
import SingingVoice.Scalar

/-!
# Exact arithmetic

The real numbers as scalars: nothing is rounded but where the library asks for it, every value is a
number and finite, and counts have no upper bound.
-/

namespace SingingVoice

/-- The value of a single-precision pattern. Patterns whose exponent is full stand for no real
number and are read as if it were an ordinary one. -/
noncomputable def singleValue (pattern : UInt32) : ℝ :=
  let fraction : ℕ := pattern.toNat % 2 ^ 23
  let exponent : ℕ := pattern.toNat / 2 ^ 23 % 2 ^ 8
  let magnitude : ℝ :=
    if exponent = 0 then fraction * 2 ^ (-149 : ℤ)
    else (2 ^ 23 + fraction) * 2 ^ ((exponent : ℤ) - 150)
  if pattern.toNat < 2 ^ 31 then magnitude else -magnitude

/-- The arithmetic of the real numbers. -/
noncomputable instance : Scalar ℝ where
  beq x y := decide (x = y)
  decidableLT := inferInstance
  decidableLE := inferInstance
  ofNat n := n
  ofInt n := n
  ofSingle := singleValue
  round x := if 0 ≤ x then ⌊x + 1 / 2⌋ else ⌈x - 1 / 2⌉
  floor x := ⌊x⌋
  ceil x := ⌈x⌉
  abs x := |x|
  sqrt := Real.sqrt
  pow := Real.rpow
  log2 := Real.logb 2
  cos := Real.cos
  sin := Real.sin
  pi := Real.pi
  isFinite _ := true
  toNat x := ⌊x⌋₊
  toInt x := if 0 ≤ x then ⌊x⌋ else ⌈x⌉
  single x := x

namespace Exact

/-- No time is zero. -/
theorem zero_eq : (0.0 : ℝ) = 0 := by
  norm_num

@[simp] theorem ofNat_eq (n : Nat) : (Scalar.ofNat n : ℝ) = n := rfl

@[simp] theorem isFinite_eq (x : ℝ) : Scalar.isFinite x = true := rfl

@[simp] theorem toNat_eq (x : ℝ) : Scalar.toNat x = ⌊x⌋₊ := rfl

/-- Whole numbers are not changed by rounding. -/
@[simp] theorem round_intCast (n : ℤ) : Scalar.round (n : ℝ) = n := by
  show (if 0 ≤ (n : ℝ) then (⌊(n : ℝ) + 1 / 2⌋ : ℝ) else (⌈(n : ℝ) - 1 / 2⌉ : ℝ)) = n
  split
  · have hfloor : ⌊(n : ℝ) + 1 / 2⌋ = n := by
      rw [Int.floor_eq_iff]
      constructor <;> linarith
    rw [hfloor]
  · have hceil : ⌈(n : ℝ) - 1 / 2⌉ = n := by
      rw [Int.ceil_eq_iff]
      constructor <;> linarith
    rw [hceil]

/-- Every real number is a number. -/
@[simp] theorem isNaN_eq (x : ℝ) : Scalar.isNaN x = false := by
  show (!decide (x = x)) = false
  simp

/-- The smaller of two real numbers. -/
@[simp] theorem min_eq (x y : ℝ) : Scalar.min x y = min x y := by
  unfold Scalar.min
  rw [isNaN_eq]
  simp only [Bool.false_eq_true, or_false]
  split_ifs with h
  · exact (min_eq_right h.le).symm
  · exact (min_eq_left (not_lt.mp h)).symm

/-- The larger of two real numbers. -/
@[simp] theorem max_eq (x y : ℝ) : Scalar.max x y = max x y := by
  unfold Scalar.max
  rw [isNaN_eq]
  simp only [Bool.false_eq_true, or_false]
  split_ifs with h
  · exact (max_eq_right h.le).symm
  · exact (max_eq_left (not_lt.mp h)).symm

/-- Real numbers are compared exactly. -/
theorem beq_eq (x y : ℝ) : (x == y) = decide (x = y) := rfl

/-- Values are added up from zero. -/
theorem sum_eq (values : List ℝ) : Scalar.sum values = values.sum := by
  rw [Scalar.sum, zero_eq, List.sum_eq_foldl]

end Exact

end SingingVoice
