import SingingVoice.Proofs.Decimal.Ratio
import SingingVoice.Proofs.Word

/-!
# Numbers that round to a binary64 number

`Canonical mantissa exponent` says which mantissas and exponents the patterns of binary64 numbers
have, and `pattern` puts them together again (`pattern_of_ofBits`). A rational number rounds to such
a number if it lies in its rounding interval (`Rounds`), which is what `readsBack` tests. Every
ratio and every decimal in the interval is turned into the pattern of that number
(`nearest_of_rounds`, `ofDecimal_of_rounds`).
-/

namespace SingingVoice.Binary64

variable {negative : Bool} {mantissa num den coefficient : Nat} {exponent place : Int} {q : ℚ}

/-! ## Patterns -/

/-- The mantissa and the exponent of a positive binary64 number. -/
structure Canonical (mantissa : Nat) (exponent : Int) : Prop where
  pos : 0 < mantissa
  lt : mantissa < 2 ^ 53
  least : -1074 ≤ exponent
  greatest : exponent ≤ 971
  normal : exponent = -1074 ∨ 2 ^ 52 ≤ mantissa

/-- The pattern of a number. -/
def pattern (negative : Bool) (mantissa : Nat) (exponent : Int) : UInt64 :=
  UInt64.ofNat ((exponent + 1074).toNat * Word.count 52 + mantissa +
    if negative then Word.count 63 else 0)

/-- A pattern that is a number is that of its mantissa and exponent. -/
theorem pattern_of_ofBits {bits : UInt64} (h : ofBits bits = .finite negative mantissa exponent) :
    pattern negative mantissa exponent = bits ∧
      (mantissa = 0 ∧ exponent = -1074 ∨ Canonical mantissa exponent) := by
  have hbits : bits.toNat < 2 ^ 64 := bits.toNat_lt
  unfold ofBits at h
  simp only [Word.count_eq] at h
  have hpattern : ∀ biased fraction : Nat, bits.toNat / 2 ^ 52 % 2 ^ 11 = biased →
      bits.toNat % 2 ^ 52 = fraction →
      UInt64.ofNat (biased * 2 ^ 52 + fraction +
        if decide (bits.toNat / 2 ^ 63 = 1) then 2 ^ 63 else 0) = bits := by
    intro biased fraction hbiased hfraction
    have hsum : (biased * 2 ^ 52 + fraction +
        if decide (bits.toNat / 2 ^ 63 = 1) then 2 ^ 63 else 0) = bits.toNat := by
      by_cases hsign : bits.toNat / 2 ^ 63 = 1
      · rw [if_pos (decide_eq_true hsign)]
        omega
      · rw [if_neg (by rwa [decide_eq_true_eq])]
        omega
    rw [hsum, UInt64.ofNat_toNat]
  split at h
  case isTrue => split at h <;> cases h
  case isFalse hspecial =>
    split at h
    case isTrue hleast =>
      cases h
      refine ⟨?_, ?_⟩
      · exact hpattern 0 _ hleast rfl
      · rcases Nat.eq_zero_or_pos (bits.toNat % 2 ^ 52) with hzero | hpos
        · exact .inl ⟨hzero, rfl⟩
        · exact .inr ⟨hpos, by omega, by omega, by omega, .inl rfl⟩
    case isFalse hleast =>
      cases h
      set biased := bits.toNat / 2 ^ 52 % 2 ^ 11 with hbiased
      have hlt : biased < 2 ^ 11 := Nat.mod_lt _ (by decide)
      refine ⟨?_, .inr ⟨by omega, by omega, by omega, by omega, .inr (by omega)⟩⟩
      have hexponent : ((biased : Int) - 1075 + 1074).toNat + 1 = biased := by omega
      have hnat : ((biased : Int) - 1075 + 1074).toNat * 2 ^ 52 +
          (2 ^ 52 + bits.toNat % 2 ^ 52) = biased * 2 ^ 52 + bits.toNat % 2 ^ 52 := by
        omega
      unfold pattern
      rw [Word.count_eq, Word.count_eq, hnat]
      exact hpattern biased _ rfl rfl

/-! ## Rounding intervals -/

/-- A rational number lies in the rounding interval of a number. The bounds belong to it if the
mantissa is even. -/
def Rounds (mantissa : Nat) (exponent : Int) (q : ℚ) : Prop :=
  let (lower, upper) := roundingInterval mantissa exponent
  if mantissa % 2 = 0 then
    lower * (2 : ℚ) ^ (exponent - 2) ≤ q ∧ q ≤ upper * (2 : ℚ) ^ (exponent - 2)
  else lower * (2 : ℚ) ^ (exponent - 2) < q ∧ q < upper * (2 : ℚ) ^ (exponent - 2)

/-- A decimal reads back if its value lies in the rounding interval. -/
theorem readsBack_iff :
    readsBack mantissa exponent coefficient place ↔
      Rounds mantissa exponent (coefficient * (10 : ℚ) ^ place) := by
  have hden : (0 : ℚ) < (ratio 10 coefficient place).2 := by
    exact_mod_cast den_ratio_pos (by decide)
  have hunit : (0 : ℚ) < (ratio 2 1 (exponent - 2)).2 := by
    exact_mod_cast den_ratio_pos Nat.two_pos
  have hvalue := ratio_eq 10 coefficient place
  have hscale := ratio_eq 2 1 (exponent - 2)
  rw [Nat.cast_ofNat] at hvalue
  rw [Nat.cast_one, one_mul, Nat.cast_ofNat] at hscale
  unfold readsBack Rounds
  dsimp only
  set num := (ratio 10 coefficient place).1
  set den := (ratio 10 coefficient place).2
  set scale := (ratio 2 1 (exponent - 2)).1
  set unit := (ratio 2 1 (exponent - 2)).2
  rw [← hvalue]
  have hbound : ∀ bound : Nat,
      (bound * (2 : ℚ) ^ (exponent - 2)) = ((bound * scale * den : Nat) : ℚ) / (den * unit) := by
    intro bound
    rw [← hscale]
    push_cast
    field_simp
  have hq : (num / den : ℚ) = ((num * unit : Nat) : ℚ) / (den * unit) := by
    push_cast
    field_simp
  have hpos : (0 : ℚ) < den * unit := mul_pos hden hunit
  rw [hbound, hbound, hq]
  simp only [div_le_div_iff_of_pos_right hpos, div_lt_div_iff_of_pos_right hpos, Nat.cast_le,
    Nat.cast_lt]
  split <;> simp

/-- The lower bound, in quarters, is half a unit below the mantissa, or a quarter of one. -/
theorem lower_cases (mantissa : Nat) (exponent : Int) :
    ((roundingInterval mantissa exponent).1 = 4 * mantissa - 2 ∧
      ¬ (mantissa = 2 ^ 52 ∧ exponent ≠ -1074)) ∨
    ((roundingInterval mantissa exponent).1 = 4 * mantissa - 1 ∧
      mantissa = 2 ^ 52 ∧ exponent ≠ -1074) := by
  by_cases hpower : mantissa = 2 ^ 52 ∧ exponent ≠ -1074
  · exact .inr ⟨if_pos hpower, hpower⟩
  · exact .inl ⟨if_neg hpower, hpower⟩

/-- A number in the rounding interval is at most half a unit away, and less if the mantissa is odd.
It is at most a quarter of a unit below a mantissa that is a power of two. -/
theorem Rounds.spec (hcanonical : Canonical mantissa exponent) (h : Rounds mantissa exponent q) :
    |q / (2 : ℚ) ^ exponent - mantissa| ≤ 1 / 2 ∧
      (|q / (2 : ℚ) ^ exponent - mantissa| = 1 / 2 → mantissa % 2 = 0) ∧
      (mantissa = 2 ^ 52 → exponent ≠ -1074 →
        (mantissa : ℚ) - 1 / 4 ≤ q / (2 : ℚ) ^ exponent) := by
  have hunit : (0 : ℚ) < (2 : ℚ) ^ exponent := zpow_pos two_pos _
  have hquarter : (2 : ℚ) ^ (exponent - 2) = (2 : ℚ) ^ exponent / 4 := by
    rw [zpow_sub₀ two_ne_zero]
    norm_num
  have hpos := hcanonical.pos
  obtain ⟨t, rfl⟩ : ∃ t, q = t * (2 : ℚ) ^ exponent := ⟨q / 2 ^ exponent, by field_simp⟩
  rw [mul_div_cancel_right₀ t hunit.ne']
  have hbound : ∀ bound : Nat, bound * (2 : ℚ) ^ (exponent - 2) = bound / 4 * (2 : ℚ) ^ exponent := by
    intro bound
    rw [hquarter]
    ring
  unfold Rounds at h
  simp only [hbound, mul_le_mul_iff_of_pos_right hunit, mul_lt_mul_iff_of_pos_right hunit] at h
  have hupper : ((roundingInterval mantissa exponent).2 : ℚ) / 4 = mantissa + 1 / 2 := by
    show ((4 * mantissa + 2 : Nat) : ℚ) / 4 = _
    push_cast
    ring
  have hlower : (mantissa : ℚ) - 1 / 2 ≤ (roundingInterval mantissa exponent).1 / 4 ∧
      (mantissa = 2 ^ 52 → exponent ≠ -1074 →
        (mantissa : ℚ) - 1 / 4 ≤ (roundingInterval mantissa exponent).1 / 4) := by
    rcases lower_cases mantissa exponent with ⟨hlower, hpower⟩ | ⟨hlower, -⟩
    · rw [hlower, Nat.cast_sub (by omega)]
      push_cast
      exact ⟨by linarith, fun hm he => absurd ⟨hm, he⟩ hpower⟩
    · rw [hlower, Nat.cast_sub (by omega)]
      push_cast
      exact ⟨by linarith, fun _ _ => by linarith⟩
  obtain ⟨hlower, hpower⟩ := hlower
  rw [hupper] at h
  by_cases heven : mantissa % 2 = 0
  · rw [if_pos heven] at h
    refine ⟨?_, fun _ => heven, fun hm he => ?_⟩
    · rw [abs_le]
      constructor <;> linarith
    · linarith [hpower hm he]
  · rw [if_neg heven] at h
    have hlt : |t - mantissa| < 1 / 2 := by
      rw [abs_lt]
      constructor <;> linarith
    refine ⟨hlt.le, fun heq => absurd heq hlt.ne, fun hm he => ?_⟩
    linarith [hpower hm he]

/-! ## Nearest patterns -/

/-- The ratio in units of a power of two is rounded to a whole number that is near. -/
theorem roundTo_even_eq (hden : 0 < den) {k : Nat}
    (hnear : |(num / den : ℚ) / (2 : ℚ) ^ place - k| ≤ 1 / 2)
    (htie : |(num / den : ℚ) / (2 : ℚ) ^ place - k| = 1 / 2 → k % 2 = 0) :
    roundTo .even 2 num den place = k := by
  have hunits := inUnits_eq 2 num den place
  rw [Nat.cast_ofNat] at hunits
  rw [← hunits] at hnear htie
  exact Tie.roundDiv_even_eq (den_inUnits_pos Nat.two_pos hden) hnear htie

/-- A ratio near a number and not below its binade has the unit of that number. -/
theorem unit_eq_of_near (hcanonical : Canonical mantissa exponent) (hnum : 0 < num)
    (hden : 0 < den) (hnear : |(num / den : ℚ) / (2 : ℚ) ^ exponent - mantissa| ≤ 1 / 2)
    (hbinade : exponent = -1074 ∨ 2 ^ 52 ≤ (num / den : ℚ) / (2 : ℚ) ^ exponent) :
    max (floorLog2 num den - 52) (-1074) = exponent := by
  obtain ⟨-, hlt, hleast, -, -⟩ := hcanonical
  have hunit : (0 : ℚ) < (2 : ℚ) ^ exponent := zpow_pos two_pos _
  have hmantissa : (mantissa : ℚ) + 1 ≤ 2 ^ 53 := by exact_mod_cast hlt
  obtain ⟨-, hhigh⟩ := abs_le.mp hnear
  have hupper : (num / den : ℚ) < (2 : ℚ) ^ (53 + exponent) := by
    rw [zpow_add₀ two_ne_zero, ← div_lt_iff₀ hunit]
    norm_num
    linarith
  have hlog : floorLog2 num den < 53 + exponent :=
    (zpow_lt_zpow_iff_right₀ one_lt_two).mp ((floorLog2_bounds hnum hden).1.trans_lt hupper)
  rcases hbinade with hbinade | hbinade
  · omega
  · have hle : (2 : ℚ) ^ (52 + exponent) ≤ num / den := by
      rw [zpow_add₀ two_ne_zero, ← le_div_iff₀ hunit]
      exact_mod_cast hbinade
    have hlog' : 52 + exponent < floorLog2 num den + 1 :=
      (zpow_lt_zpow_iff_right₀ one_lt_two).mp (hle.trans_lt (floorLog2_bounds hnum hden).2)
    omega

/-- A ratio that rounds to a number and lies below its binade has units half as large. The number is
a power of two then, and the ratio is rounded up to it. -/
theorem round_up_of_below (hcanonical : Canonical mantissa exponent) (hnum : 0 < num)
    (hden : 0 < den) (h : Rounds mantissa exponent (num / den)) (hexponent : exponent ≠ -1074)
    (hbelow : (num / den : ℚ) / (2 : ℚ) ^ exponent < 2 ^ 52) :
    mantissa = 2 ^ 52 ∧ max (floorLog2 num den - 52) (-1074) = exponent - 1 ∧
      roundTo .even 2 num den (exponent - 1) = 2 ^ 53 := by
  obtain ⟨hnear, -, hpower⟩ := h.spec hcanonical
  obtain ⟨-, -, hleast, -, hnormal⟩ := hcanonical
  have hunit : (0 : ℚ) < (2 : ℚ) ^ exponent := zpow_pos two_pos _
  obtain ⟨hlow, -⟩ := abs_le.mp hnear
  have hm : mantissa = 2 ^ 52 := by
    have hle : (mantissa : ℚ) < (2 ^ 52 : Nat) + 1 := by
      push_cast
      linarith
    have hle' : mantissa < 2 ^ 52 + 1 := by exact_mod_cast hle
    omega
  have hquarter : (2 : ℚ) ^ 52 - 1 / 4 ≤ (num / den : ℚ) / (2 : ℚ) ^ exponent := by
    have hle := hpower hm hexponent
    rw [hm] at hle
    exact_mod_cast hle
  have hupper : (num / den : ℚ) < (2 : ℚ) ^ (51 + exponent + 1) := by
    rw [show 51 + exponent + 1 = 52 + exponent by omega, zpow_add₀ two_ne_zero,
      ← div_lt_iff₀ hunit]
    exact_mod_cast hbelow
  have hlower : (2 : ℚ) ^ (51 + exponent) ≤ num / den := by
    rw [zpow_add₀ two_ne_zero, ← le_div_iff₀ hunit]
    norm_num
    linarith
  refine ⟨hm, ?_, roundTo_even_eq hden ?_ fun _ => rfl⟩
  · rw [floorLog2_eq hnum hden hlower hupper]
    omega
  · have hhalf : (num / den : ℚ) / (2 : ℚ) ^ (exponent - 1) =
        2 * ((num / den : ℚ) / (2 : ℚ) ^ exponent) := by
      rw [zpow_sub₀ two_ne_zero]
      field_simp
    rw [hhalf, abs_le]
    push_cast
    constructor <;> linarith

/-- A ratio in the rounding interval of a number is turned into its pattern. -/
theorem nearest_of_rounds (hcanonical : Canonical mantissa exponent) (hnum : 0 < num)
    (hden : 0 < den) (h : Rounds mantissa exponent (num / den)) :
    nearest negative num den = pattern negative mantissa exponent := by
  obtain ⟨hnear, htie, -⟩ := h.spec hcanonical
  -- The exponent field and the mantissa are found, or a mantissa that carries into the exponent.
  have hsum : ∀ unit, unit = max (floorLog2 num den - 52) (-1074) →
      (unit + 1074).toNat * 2 ^ 52 + roundTo .even 2 num den unit =
        (exponent + 1074).toNat * 2 ^ 52 + mantissa := by
    rintro unit rfl
    by_cases hbinade : exponent = -1074 ∨ 2 ^ 52 ≤ (num / den : ℚ) / (2 : ℚ) ^ exponent
    · rw [unit_eq_of_near hcanonical hnum hden hnear hbinade, roundTo_even_eq hden hnear htie]
    · obtain ⟨hexponent, hbelow⟩ := not_or.mp hbinade
      obtain ⟨hm, hunit, hround⟩ :=
        round_up_of_below hcanonical hnum hden h hexponent (not_le.mp hbelow)
      have hleast := hcanonical.least
      rw [hunit, hround, hm]
      omega
  obtain ⟨-, hlt, hleast, hgreatest, -⟩ := hcanonical
  unfold nearest pattern
  rw [if_neg hnum.ne', Word.count_eq]
  dsimp only
  rw [hsum _ rfl, min_eq_left (by omega)]

/-! ## Decimals -/

/-- The numbers that round to a binary64 number are far from the decimals that are answered without
computing them. -/
theorem Rounds.magnitude_bounds (hcanonical : Canonical mantissa exponent)
    (hcoefficient : 0 < coefficient)
    (h : Rounds mantissa exponent (coefficient * (10 : ℚ) ^ place)) :
    -400 ≤ Decimal.magnitude coefficient place ∧ Decimal.magnitude coefficient place ≤ 400 := by
  obtain ⟨hlow, hhigh⟩ := Decimal.magnitude_bounds hcoefficient place
  obtain ⟨hnear, -, -⟩ := h.spec hcanonical
  obtain ⟨hpos, hlt, hleast, hgreatest, -⟩ := hcanonical
  set q : ℚ := coefficient * (10 : ℚ) ^ place
  have hunit : (0 : ℚ) < (2 : ℚ) ^ exponent := zpow_pos two_pos _
  obtain ⟨hbelow, habove⟩ := abs_le.mp hnear
  have hone : (1 : ℚ) ≤ mantissa := by exact_mod_cast hpos
  have hmantissa : (mantissa : ℚ) + 1 ≤ 2 ^ 53 := by exact_mod_cast hlt
  have hqt : q = q / (2 : ℚ) ^ exponent * (2 : ℚ) ^ exponent := by
    rw [div_mul_cancel₀ q hunit.ne']
  -- Eight to any power is nearer to one than ten to this power.
  have height : ∀ k : Nat, (2 : ℚ) ^ (3 * k : ℤ) ≤ (10 : ℚ) ^ (k : ℤ) := by
    intro k
    rw [zpow_mul, zpow_natCast, zpow_natCast]
    exact pow_le_pow_left₀ (by norm_num) (by norm_num) k
  have hupper : q ≤ (10 : ℚ) ^ (400 : ℤ) := by
    calc q = q / (2 : ℚ) ^ exponent * (2 : ℚ) ^ exponent := hqt
      _ ≤ (2 : ℚ) ^ (53 : ℤ) * (2 : ℚ) ^ exponent := by
        refine mul_le_mul_of_nonneg_right ?_ hunit.le
        rw [show (2 : ℚ) ^ (53 : ℤ) = 2 ^ 53 from rfl]
        linarith
      _ = (2 : ℚ) ^ (53 + exponent) := (zpow_add₀ two_ne_zero _ _).symm
      _ ≤ (2 : ℚ) ^ (3 * (400 : Nat) : ℤ) := zpow_le_zpow_right₀ one_le_two (by push_cast; omega)
      _ ≤ (10 : ℚ) ^ (400 : ℤ) := height 400
  have hlower : (10 : ℚ) ^ (-400 : ℤ) ≤ q := by
    calc (10 : ℚ) ^ (-400 : ℤ) = ((10 : ℚ) ^ (400 : ℤ))⁻¹ := zpow_neg _ _
      _ ≤ ((2 : ℚ) ^ (3 * (400 : Nat) : ℤ))⁻¹ := inv_anti₀ (zpow_pos two_pos _) (height 400)
      _ = (2 : ℚ) ^ (-(3 * (400 : Nat)) : ℤ) := (zpow_neg _ _).symm
      _ ≤ (2 : ℚ) ^ (-1 + exponent) := zpow_le_zpow_right₀ one_le_two (by push_cast; omega)
      _ = (2 : ℚ) ^ (-1 : ℤ) * (2 : ℚ) ^ exponent := zpow_add₀ two_ne_zero _ _
      _ ≤ q / (2 : ℚ) ^ exponent * (2 : ℚ) ^ exponent := by
        refine mul_le_mul_of_nonneg_right ?_ hunit.le
        norm_num
        linarith
      _ = q := hqt.symm
  have h₁ : (-400 : ℤ) < Decimal.magnitude coefficient place + 1 :=
    (zpow_lt_zpow_iff_right₀ (by norm_num)).mp (hlower.trans_lt hhigh)
  have h₂ : Decimal.magnitude coefficient place ≤ 400 :=
    (zpow_le_zpow_iff_right₀ (by norm_num)).mp (hlow.trans hupper)
  omega

/-- A decimal in the rounding interval of a number is turned into its pattern. -/
theorem ofDecimal_of_rounds (hcanonical : Canonical mantissa exponent)
    (hcoefficient : 0 < coefficient)
    (h : Rounds mantissa exponent (coefficient * (10 : ℚ) ^ place)) :
    ofDecimal (.finite negative coefficient place) = pattern negative mantissa exponent := by
  obtain ⟨hleast, hgreatest⟩ := h.magnitude_bounds hcanonical hcoefficient
  have hden : 0 < (ratio 10 coefficient place).2 := den_ratio_pos (by decide)
  have hvalue := ratio_eq 10 coefficient place
  rw [Nat.cast_ofNat] at hvalue
  have hnum : 0 < (ratio 10 coefficient place).1 := by
    have hq : (0 : ℚ) < coefficient * (10 : ℚ) ^ place :=
      mul_pos (by exact_mod_cast hcoefficient) (zpow_pos (by norm_num) _)
    rw [← hvalue, div_pos_iff_of_pos_right (by exact_mod_cast hden)] at hq
    exact_mod_cast hq
  rw [← hvalue] at h
  unfold ofDecimal
  dsimp only
  rw [if_neg hcoefficient.ne', if_neg (by omega), if_neg (by omega)]
  exact nearest_of_rounds hcanonical hnum hden h

/-- Zeros are turned into the patterns of zeros. -/
theorem ofDecimal_zero (negative : Bool) (place : Int) :
    ofDecimal (.finite negative 0 place) = pattern negative 0 (-1074) := by
  unfold ofDecimal
  cases negative <;> rfl

end SingingVoice.Binary64
