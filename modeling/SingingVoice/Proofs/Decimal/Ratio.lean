import Mathlib
import SingingVoice.Decimal.Binary64

/-!
# Exact ratios

What the functions on ratios of naturals compute, said in rational numbers: `ratio` and `inUnits`
multiply and divide by powers of a base, `floorLog2`, `floorLog10` and `Decimal.magnitude` find the
power at or below a number, and `Tie.roundDiv` finds a whole number at most one half away, which is
the only one unless two are equally near.
-/

namespace SingingVoice

/-! ## Powers -/

namespace Binary64

variable {base num den n : Nat} {exponent : Int}

/-- A power whose exponent is not negative is a natural number. -/
theorem natPow_toNat (hexponent : 0 ≤ exponent) :
    ((Nat.pow base exponent.toNat : Nat) : ℚ) = (base : ℚ) ^ exponent := by
  obtain ⟨k, rfl⟩ := Int.eq_ofNat_of_zero_le hexponent
  simp

/-- A power whose exponent is negative is the inverse of one. -/
theorem natPow_neg_toNat (hexponent : ¬ 0 ≤ exponent) :
    ((Nat.pow base (-exponent).toNat : Nat) : ℚ) = ((base : ℚ) ^ exponent)⁻¹ := by
  rw [natPow_toNat (by omega), zpow_neg]

theorem natPow_pos (hbase : 0 < base) (k : Nat) : 0 < Nat.pow base k :=
  Nat.pow_pos hbase

theorem den_ratio_pos (hbase : 0 < base) : 0 < (ratio base n exponent).2 := by
  unfold ratio
  split
  · exact Nat.one_pos
  · exact natPow_pos hbase _

theorem ratio_eq (base n : Nat) (exponent : Int) :
    ((ratio base n exponent).1 : ℚ) / (ratio base n exponent).2 = n * (base : ℚ) ^ exponent := by
  unfold ratio
  split
  case isTrue h =>
    show ((n * Nat.pow base exponent.toNat : Nat) : ℚ) / (1 : Nat) = _
    rw [Nat.cast_mul, natPow_toNat h, Nat.cast_one, div_one]
  case isFalse h =>
    show (n : ℚ) / (Nat.pow base (-exponent).toNat : Nat) = _
    rw [natPow_neg_toNat h, div_inv_eq_mul]

theorem den_inUnits_pos (hbase : 0 < base) (hden : 0 < den) :
    0 < (inUnits base num den exponent).2 := by
  unfold inUnits
  split
  · exact Nat.mul_pos hden (natPow_pos hbase _)
  · exact hden

theorem inUnits_eq (base num den : Nat) (exponent : Int) :
    ((inUnits base num den exponent).1 : ℚ) / (inUnits base num den exponent).2 =
      num / den / (base : ℚ) ^ exponent := by
  unfold inUnits
  split
  case isTrue h =>
    show (num : ℚ) / ((den * Nat.pow base exponent.toNat : Nat) : ℚ) = _
    rw [Nat.cast_mul, natPow_toNat h, div_div]
  case isFalse h =>
    show ((num * Nat.pow base (-exponent).toNat : Nat) : ℚ) / den = _
    rw [Nat.cast_mul, natPow_neg_toNat h, div_eq_mul_inv, div_eq_mul_inv, div_eq_mul_inv]
    ring

theorem reaches_iff (hbase : 0 < base) (hden : 0 < den) :
    reaches base num den exponent ↔ (base : ℚ) ^ exponent ≤ num / den := by
  have hden' : (0 : ℚ) < den := by exact_mod_cast hden
  have hpow : (0 : ℚ) < (base : ℚ) ^ exponent := zpow_pos (by exact_mod_cast hbase) _
  rw [le_div_iff₀ hden']
  unfold reaches
  split
  case isTrue h =>
    rw [decide_eq_true_eq, ← Nat.cast_le (α := ℚ), Nat.cast_mul, natPow_toNat h, mul_comm]
  case isFalse h =>
    rw [decide_eq_true_eq, ← Nat.cast_le (α := ℚ), Nat.cast_mul, natPow_neg_toNat h,
      ← div_eq_mul_inv, le_div_iff₀ hpow, mul_comm]

/-! ## Powers below a number -/

/-- The number of binary digits of a natural number. -/
theorem log2_bounds (hn : 0 < n) :
    (2 : ℚ) ^ (n.log2 : ℤ) ≤ n ∧ (n : ℚ) < (2 : ℚ) ^ (n.log2 + 1 : ℤ) := by
  have hne : n ≠ 0 := Nat.pos_iff_ne_zero.mp hn
  constructor
  · exact_mod_cast Nat.log2_self_le hne
  · exact_mod_cast (Nat.log2_lt hne).mp (Nat.lt_succ_self n.log2)

/-- The exponent is that of the greatest power of two that is not above the ratio. -/
theorem floorLog2_bounds (hnum : 0 < num) (hden : 0 < den) :
    (2 : ℚ) ^ floorLog2 num den ≤ num / den ∧
      (num / den : ℚ) < (2 : ℚ) ^ (floorLog2 num den + 1) := by
  have hden' : (0 : ℚ) < den := by exact_mod_cast hden
  obtain ⟨hnumLow, hnumHigh⟩ := log2_bounds hnum
  obtain ⟨hdenLow, hdenHigh⟩ := log2_bounds hden
  set k : ℤ := num.log2 - den.log2 with hk
  have hlow : (2 : ℚ) ^ (k - 1) ≤ num / den := by
    have hexponent : k - 1 = num.log2 - (den.log2 + 1) := by omega
    rw [hexponent, zpow_sub₀ two_ne_zero]
    exact div_le_div₀ (by positivity) hnumLow hden' hdenHigh.le
  have hhigh : (num / den : ℚ) < (2 : ℚ) ^ (k + 1) := by
    have hexponent : k + 1 = num.log2 + 1 - den.log2 := by omega
    rw [hexponent, zpow_sub₀ two_ne_zero]
    exact div_lt_div₀ hnumHigh hdenLow (by positivity) (by positivity)
  show (2 : ℚ) ^ (if reaches 2 num den k then k else k - 1) ≤ num / den ∧
    (num / den : ℚ) < (2 : ℚ) ^ ((if reaches 2 num den k then k else k - 1) + 1)
  have hreaches : reaches 2 num den k ↔ (2 : ℚ) ^ k ≤ num / den :=
    reaches_iff Nat.two_pos hden
  by_cases h : (2 : ℚ) ^ k ≤ num / den
  · rw [if_pos (hreaches.mpr h)]
    exact ⟨h, hhigh⟩
  · rw [if_neg fun hr => h (hreaches.mp hr), sub_add_cancel]
    exact ⟨hlow, not_le.mp h⟩

/-- A power of two that is not above the ratio, while the next one is, has this exponent. -/
theorem floorLog2_eq (hnum : 0 < num) (hden : 0 < den) {k : ℤ} (hlow : (2 : ℚ) ^ k ≤ num / den)
    (hhigh : (num / den : ℚ) < (2 : ℚ) ^ (k + 1)) : floorLog2 num den = k := by
  obtain ⟨hlow', hhigh'⟩ := floorLog2_bounds hnum hden
  have h₁ : k < floorLog2 num den + 1 :=
    (zpow_lt_zpow_iff_right₀ one_lt_two).mp (hlow.trans_lt hhigh')
  have h₂ : floorLog2 num den < k + 1 :=
    (zpow_lt_zpow_iff_right₀ one_lt_two).mp (hlow'.trans_lt hhigh)
  omega

end Binary64

namespace Decimal

variable {n coefficient : Nat}

/-- The number of decimal digits of a natural number. -/
theorem digits_bounds (hn : 0 < n) :
    (10 : ℚ) ^ ((digits n).length - 1 : ℤ) ≤ n ∧ (n : ℚ) < (10 : ℚ) ^ ((digits n).length : ℤ) := by
  have hpos : 0 < (digits n).length := Nat.length_toDigits_pos
  constructor
  · obtain ⟨k, hk⟩ : ∃ k, (digits n).length = k + 1 := ⟨_, (Nat.succ_pred_eq_of_pos hpos).symm⟩
    rw [hk, Nat.cast_add, Nat.cast_one, add_sub_cancel_right]
    have hle : 10 ^ k ≤ n := by
      rcases Nat.eq_zero_or_pos k with rfl | hpos
      · exact hn
      · by_contra hlt
        have hlength := (Nat.length_toDigits_le_iff (by decide) hpos).mpr (not_le.mp hlt)
        rw [← digits, hk] at hlength
        omega
    exact_mod_cast hle
  · have hlt : n < 10 ^ (digits n).length :=
      (Nat.length_toDigits_le_iff (by decide) hpos).mp le_rfl
    exact_mod_cast hlt

/-- The magnitude is the exponent of the power of ten at or below a number. -/
theorem magnitude_bounds (hcoefficient : 0 < coefficient) (exponent : Int) :
    (10 : ℚ) ^ magnitude coefficient exponent ≤ coefficient * (10 : ℚ) ^ exponent ∧
      coefficient * (10 : ℚ) ^ exponent < (10 : ℚ) ^ (magnitude coefficient exponent + 1) := by
  obtain ⟨hlow, hhigh⟩ := digits_bounds hcoefficient
  have hten : (10 : ℚ) ≠ 0 := by norm_num
  have hpow : (0 : ℚ) < (10 : ℚ) ^ exponent := zpow_pos (by norm_num) _
  have hmagnitude : magnitude coefficient exponent =
      ((digits coefficient).length - 1 : ℤ) + exponent := by
    unfold magnitude
    omega
  have hnext : magnitude coefficient exponent + 1 = ((digits coefficient).length : ℤ) + exponent := by
    omega
  rw [hnext, hmagnitude, zpow_add₀ hten, zpow_add₀ hten]
  exact ⟨mul_le_mul_of_nonneg_right hlow hpow.le, mul_lt_mul_of_pos_right hhigh hpow⟩

end Decimal

/-- The power of ten is not above the ratio. -/
theorem Binary64.floorLog10_le {num den : Nat} (hnum : 0 < num) (hden : 0 < den) :
    (10 : ℚ) ^ floorLog10 num den ≤ num / den := by
  have hnum' : (0 : ℚ) < num := by exact_mod_cast hnum
  have hden' : (0 : ℚ) < den := by exact_mod_cast hden
  unfold floorLog10
  split
  case isTrue hle =>
    have hquotient : 0 < num / den := Nat.div_pos hle hden
    calc (10 : ℚ) ^ ((Decimal.digits (num / den)).length - 1 : ℤ)
        ≤ ((num / den : Nat) : ℚ) := (Decimal.digits_bounds hquotient).1
      _ ≤ num / den := Nat.cast_div_le
  case isFalse hlt =>
    have hquotient : 0 < den / num := Nat.div_pos (by omega) hnum
    have hlow : (10 : ℚ) ^ (-(Decimal.digits (den / num)).length : ℤ) ≤ num / den := by
      have hnat : den < 10 ^ (Decimal.digits (den / num)).length * num := by
        refine (Nat.div_lt_iff_lt_mul hnum).mp ?_
        exact (Nat.length_toDigits_le_iff (by decide) Nat.length_toDigits_pos).mp le_rfl
      rw [zpow_neg, zpow_natCast, le_div_iff₀ hden', inv_mul_le_iff₀ (by positivity)]
      exact_mod_cast hnat.le
    simp only
    split
    case isTrue hreaches => exact (reaches_iff (by decide) hden).mp hreaches
    case isFalse => exact hlow

/-! ## Rounding -/

namespace Tie

variable {tie : Tie} {num den k : Nat}

/-- The quotient and what is missing to the ratio. -/
theorem ratio_eq_div_add (num : Nat) (hden : 0 < den) :
    (num / den : ℚ) = (num / den : Nat) + (num % den : Nat) / (den : ℚ) := by
  have hden' : (den : ℚ) ≠ 0 := by exact_mod_cast hden.ne'
  have hnat : (num : ℚ) = den * (num / den : Nat) + (num % den : Nat) := by
    exact_mod_cast (Nat.div_add_mod num den).symm
  field_simp
  exact hnat

/-- What is missing is one half if it is half of the divisor. -/
theorem two_mul_mod_eq (hden : 0 < den) (hhalf : (num % den : Nat) / (den : ℚ) = 1 / 2) :
    2 * (num % den) = den := by
  have hden' : (den : ℚ) ≠ 0 := by exact_mod_cast hden.ne'
  rw [div_eq_div_iff hden' two_ne_zero, one_mul, mul_comm] at hhalf
  exact_mod_cast hhalf

/-- The rounded quotient is at most one half away. If it is one half away, and ties go to the even
neighbour, then it is even. -/
theorem roundDiv_spec (tie : Tie) (num : Nat) (hden : 0 < den) :
    |(num / den : ℚ) - tie.roundDiv num den| ≤ 1 / 2 ∧
      (|(num / den : ℚ) - tie.roundDiv num den| = 1 / 2 → tie = .even →
        tie.roundDiv num den % 2 = 0) := by
  have hden' : (0 : ℚ) < den := by exact_mod_cast hden
  have hrest : num % den < den := Nat.mod_lt num hden
  rw [ratio_eq_div_add num hden]
  unfold roundDiv
  dsimp only
  split
  case isTrue hup =>
    have hhalf : (den : ℚ) ≤ 2 * (num % den : Nat) := by
      have hle : den ≤ 2 * (num % den) := by omega
      exact_mod_cast hle
    have hdistance : ((num / den : Nat) : ℚ) + (num % den : Nat) / (den : ℚ) -
        ((num / den + 1 : Nat) : ℚ) = -(1 - (num % den : Nat) / (den : ℚ)) := by
      push_cast
      ring
    have hnonneg : (0 : ℚ) ≤ 1 - (num % den : Nat) / (den : ℚ) := by
      rw [sub_nonneg, div_le_one hden']
      exact_mod_cast hrest.le
    rw [hdistance, abs_neg, abs_of_nonneg hnonneg]
    constructor
    · rw [sub_le_comm, le_div_iff₀ hden']
      linarith
    · intro heq heven
      have hexact : 2 * (num % den) = den := two_mul_mod_eq hden (by linarith)
      have hodd : num / den % 2 = 1 := by
        rcases hup with hup | ⟨-, hup | hup⟩
        · omega
        · rw [heven] at hup
          cases hup
        · exact hup
      omega
  case isFalse hdown =>
    have hhalf : (2 : ℚ) * (num % den : Nat) ≤ den := by
      have hle : 2 * (num % den) ≤ den := by omega
      exact_mod_cast hle
    have hnonneg : (0 : ℚ) ≤ (num % den : Nat) / (den : ℚ) := by positivity
    rw [add_sub_cancel_left, abs_of_nonneg hnonneg]
    constructor
    · rw [div_le_iff₀ hden']
      linarith
    · intro heq heven
      have hexact : 2 * (num % den) = den := two_mul_mod_eq hden heq
      have hnot : ¬ (tie = .up ∨ num / den % 2 = 1) := fun h => hdown (.inr ⟨hexact, h⟩)
      omega

/-- Two whole numbers are both at most one half away from a number only if they are equal, since of
two different ones, which are then both one half away, one is odd. -/
theorem eq_of_near {x : ℚ} {a b : Nat} (ha : |x - a| ≤ 1 / 2) (hb : |x - b| ≤ 1 / 2)
    (hevenA : |x - a| = 1 / 2 → a % 2 = 0) (hevenB : |x - b| = 1 / 2 → b % 2 = 0) : a = b := by
  wlog hle : a ≤ b generalizing a b
  · exact (this hb ha hevenB hevenA (Nat.le_of_not_le hle)).symm
  by_contra hne
  have hstep : (a : ℚ) + 1 ≤ b := by
    have hlt : a + 1 ≤ b := by omega
    exact_mod_cast hlt
  have hlow := abs_le.mp ha
  have hhigh := abs_le.mp hb
  have hxa : x = a + 1 / 2 := by linarith
  have hxb : x = b - 1 / 2 := by linarith
  have ha₂ : a % 2 = 0 := hevenA (by rw [hxa]; norm_num)
  have hb₂ : b % 2 = 0 := hevenB (by rw [hxb]; norm_num)
  have hnext : b = a + 1 := by
    have hcast : (b : ℚ) = (a + 1 : Nat) := by
      push_cast
      linarith
    exact_mod_cast hcast
  omega

/-- A whole number at most one half away is the rounded quotient, if it is even or nearer. -/
theorem roundDiv_even_eq (hden : 0 < den) (hnear : |(num / den : ℚ) - k| ≤ 1 / 2)
    (htie : |(num / den : ℚ) - k| = 1 / 2 → k % 2 = 0) : Tie.even.roundDiv num den = k := by
  obtain ⟨hle, heven⟩ := roundDiv_spec .even num hden
  exact eq_of_near hle hnear (fun h => heven h rfl) htie

end Tie

end SingingVoice
