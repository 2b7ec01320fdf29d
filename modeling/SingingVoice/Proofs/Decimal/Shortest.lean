import SingingVoice.Decimal.Numeral
import SingingVoice.Proofs.Decimal.Nearest

/-!
# Shortest decimals

The search for the shortest decimal of a binary64 number always finds one, since of the decimals
with seventeen digits the nearest lies in the rounding interval. So every number is the one nearest
to its shortest decimal, and to every other decimal of the same value (`Double.ofDecimal_of_same`).
-/

namespace SingingVoice

/-! ## Values of decimals -/

/-- Two decimals stand for the same number, with coefficients that may differ by trailing zeros. -/
inductive Decimal.Same : Decimal → Decimal → Prop where
  | nan : Same .nan .nan
  | infinity (negative : Bool) : Same (.infinity negative) (.infinity negative)
  | finite {negative : Bool} {first second : Nat} {firstPlace secondPlace : Int} :
      (first : ℚ) * (10 : ℚ) ^ firstPlace = second * (10 : ℚ) ^ secondPlace →
      Same (.finite negative first firstPlace) (.finite negative second secondPlace)

namespace Binary64

variable {tie : Tie} {negative : Bool} {mantissa coefficient : Nat} {exponent place : Int} {q : ℚ}

/-- Dropping zeros does not change the value. -/
theorem normalize_go_eq (fuel coefficient : Nat) (place : Int) :
    ((normalize.go fuel coefficient place).1 : ℚ) *
        (10 : ℚ) ^ (normalize.go fuel coefficient place).2 =
      coefficient * (10 : ℚ) ^ place := by
  induction fuel generalizing coefficient place with
  | zero => rfl
  | succ fuel ih =>
    unfold normalize.go
    split
    case isTrue h =>
      have hten : coefficient = coefficient / 10 * 10 := by omega
      rw [ih, zpow_add₀ (by norm_num), zpow_one]
      conv_rhs => rw [hten]
      push_cast
      ring
    case isFalse => rfl

theorem normalize_eq (coefficient : Nat) (place : Int) :
    ((normalize coefficient place).1 : ℚ) * (10 : ℚ) ^ (normalize coefficient place).2 =
      coefficient * (10 : ℚ) ^ place :=
  normalize_go_eq _ coefficient place

/-! ## Rounding intervals -/

/-- The numbers that round to a positive number are positive. -/
theorem Rounds.pos (hcanonical : Canonical mantissa exponent) (h : Rounds mantissa exponent q) :
    0 < q := by
  obtain ⟨hnear, -, -⟩ := h.spec hcanonical
  have hunit : (0 : ℚ) < (2 : ℚ) ^ exponent := zpow_pos two_pos _
  have hone : (1 : ℚ) ≤ mantissa := by exact_mod_cast hcanonical.pos
  have hlow := (abs_le.mp hnear).1
  have hpos : 0 < q / (2 : ℚ) ^ exponent := by linarith
  exact (div_pos_iff_of_pos_right hunit).mp hpos

/-- A number that is near enough rounds to a binary64 number. -/
theorem rounds_of_near (hmantissa : 0 < mantissa)
    (hnear : |q / (2 : ℚ) ^ exponent - mantissa| < 1 / 2)
    (hpower : mantissa = 2 ^ 52 → |q / (2 : ℚ) ^ exponent - mantissa| < 1 / 4) :
    Rounds mantissa exponent q := by
  have hunit : (0 : ℚ) < (2 : ℚ) ^ (exponent - 2) := zpow_pos two_pos _
  have hquarter : q / (2 : ℚ) ^ exponent = q / (2 : ℚ) ^ (exponent - 2) / 4 := by
    rw [zpow_sub₀ two_ne_zero]
    field_simp
    norm_num
  set t : ℚ := q / (2 : ℚ) ^ (exponent - 2) with ht
  rw [hquarter] at hnear hpower
  have hqt : q = t * (2 : ℚ) ^ (exponent - 2) := by
    rw [ht, div_mul_cancel₀ q hunit.ne']
  have hlower : ((roundingInterval mantissa exponent).1 : ℚ) < t := by
    rcases lower_cases mantissa exponent with ⟨hlower, -⟩ | ⟨hlower, hm, -⟩
    · rw [hlower, Nat.cast_sub (by omega)]
      push_cast
      linarith [(abs_lt.mp hnear).1]
    · rw [hlower, Nat.cast_sub (by omega)]
      push_cast
      linarith [(abs_lt.mp (hpower hm)).1]
  have hupper : t < (roundingInterval mantissa exponent).2 := by
    show t < ((4 * mantissa + 2 : Nat) : ℚ)
    push_cast
    linarith [(abs_lt.mp hnear).2]
  unfold Rounds
  dsimp only
  rw [hqt]
  simp only [mul_le_mul_iff_of_pos_right hunit, mul_lt_mul_iff_of_pos_right hunit]
  split
  · exact ⟨hlower.le, hupper.le⟩
  · exact ⟨hlower, hupper⟩

/-! ## The search -/

/-- A grid point that is found reads back. -/
theorem readsBack_of_gridPoint? (h : gridPoint? tie mantissa exponent place = some coefficient) :
    readsBack mantissa exponent coefficient place := by
  unfold gridPoint? at h
  dsimp only at h
  have hfound := List.find?_some h
  exact hfound

/-- The point next to a number on a grid that is fine enough rounds to it. -/
theorem rounds_of_grid {point : Nat} (hcanonical : Canonical mantissa exponent)
    (hfine : (10 : ℚ) ^ place * 10 ^ 16 ≤ mantissa * (2 : ℚ) ^ exponent)
    (hpoint : |mantissa * (2 : ℚ) ^ exponent / (10 : ℚ) ^ place - point| ≤ 1 / 2) :
    Rounds mantissa exponent (point * (10 : ℚ) ^ place) := by
  have hunit : (0 : ℚ) < (2 : ℚ) ^ exponent := zpow_pos two_pos _
  have hgrid : (0 : ℚ) < (10 : ℚ) ^ place := zpow_pos (by norm_num) _
  have hlt : (mantissa : ℚ) < 2 ^ 53 := by exact_mod_cast hcanonical.lt
  have hstep : (10 : ℚ) ^ place / (2 : ℚ) ^ exponent ≤ mantissa / 10 ^ 16 := by
    rw [div_le_div_iff₀ hunit (by norm_num)]
    exact hfine
  have hdistance : |point * (10 : ℚ) ^ place / (2 : ℚ) ^ exponent - mantissa| ≤
      mantissa / (2 * 10 ^ 16) := by
    calc |point * (10 : ℚ) ^ place / (2 : ℚ) ^ exponent - mantissa|
        = |mantissa * (2 : ℚ) ^ exponent / (10 : ℚ) ^ place - point| *
            ((10 : ℚ) ^ place / (2 : ℚ) ^ exponent) := by
          rw [← abs_of_pos (div_pos hgrid hunit), ← abs_mul, ← abs_neg]
          congr 1
          field_simp
          ring
      _ ≤ 1 / 2 * (mantissa / 10 ^ 16) :=
          mul_le_mul hpoint hstep (div_pos hgrid hunit).le (by norm_num)
      _ = mantissa / (2 * 10 ^ 16) := by ring
  refine rounds_of_near hcanonical.pos (hdistance.trans_lt ?_) fun hpower => hdistance.trans_lt ?_
  · rw [div_lt_iff₀ (by norm_num)]
    linarith
  · rw [hpower]
    norm_num

/-- On a grid that is fine enough a point is found. -/
theorem exists_gridPoint (hcanonical : Canonical mantissa exponent)
    (hfine : (10 : ℚ) ^ place * 10 ^ 16 ≤ mantissa * (2 : ℚ) ^ exponent) :
    ∃ point, gridPoint? tie mantissa exponent place = some point := by
  have hden : 0 < (ratio 2 mantissa exponent).2 := den_ratio_pos Nat.two_pos
  have hvalue := ratio_eq 2 mantissa exponent
  unfold gridPoint?
  dsimp only
  set num := (ratio 2 mantissa exponent).1
  set den := (ratio 2 mantissa exponent).2
  have hunits := inUnits_eq 10 num den place
  rw [hvalue, Nat.cast_ofNat, Nat.cast_ofNat] at hunits
  have hunit : 0 < (inUnits 10 num den place).2 := den_inUnits_pos (by decide) hden
  obtain ⟨hpoint, -⟩ := Tie.roundDiv_spec tie (inUnits 10 num den place).1 hunit
  rw [hunits] at hpoint
  exact ⟨_, List.find?_cons_of_pos (readsBack_iff.mpr (rounds_of_grid hcanonical hfine hpoint))⟩

/-- The shortest decimal of a number lies in its rounding interval. -/
theorem exists_shortest (negative : Bool) (hcanonical : Canonical mantissa exponent) :
    ∃ coefficient place,
      shortest tie (.finite negative mantissa exponent) = .finite negative coefficient place ∧
      Rounds mantissa exponent (coefficient * (10 : ℚ) ^ place) := by
  have hden : 0 < (ratio 2 mantissa exponent).2 := den_ratio_pos Nat.two_pos
  have hvalue := ratio_eq 2 mantissa exponent
  rw [Nat.cast_ofNat] at hvalue
  have hnum : 0 < (ratio 2 mantissa exponent).1 := by
    have hq : (0 : ℚ) < mantissa * (2 : ℚ) ^ exponent :=
      mul_pos (by exact_mod_cast hcanonical.pos) (zpow_pos two_pos _)
    rw [← hvalue, div_pos_iff_of_pos_right (by exact_mod_cast hden)] at hq
    exact_mod_cast hq
  unfold shortest
  dsimp only
  rw [if_neg hcanonical.pos.ne']
  set num := (ratio 2 mantissa exponent).1
  set den := (ratio 2 mantissa exponent).2
  set top := floorLog10 num den
  -- Seventeen digits are enough.
  have hfine : (10 : ℚ) ^ (top - (16 : Nat)) * 10 ^ 16 ≤ mantissa * (2 : ℚ) ^ exponent := by
    rw [← hvalue, ← zpow_natCast, ← zpow_add₀ (by norm_num), sub_add_cancel]
    exact floorLog10_le hnum hden
  obtain ⟨point, hpoint⟩ :
      ∃ point, gridPoint? tie mantissa exponent (top - (16 : Nat)) = some point :=
    exists_gridPoint hcanonical hfine
  have hsome : ((List.range 17).findSome? fun extra : Nat =>
      (gridPoint? tie mantissa exponent (top - extra)).map fun c => (c, top - extra)).isSome := by
    rw [List.findSome?_isSome_iff]
    exact ⟨16, by simp, by rw [hpoint]; rfl⟩
  obtain ⟨⟨found, place⟩, hfound⟩ := Option.isSome_iff_exists.mp hsome
  obtain ⟨extra, -, hextra⟩ := List.exists_of_findSome?_eq_some hfound
  obtain ⟨_, hgrid, heq⟩ := Option.map_eq_some_iff.mp hextra
  cases heq
  rw [hfound]
  refine ⟨_, _, rfl, ?_⟩
  show Rounds mantissa exponent (((normalize found (top - extra)).1 : ℚ) *
    (10 : ℚ) ^ (normalize found (top - extra)).2)
  rw [normalize_eq]
  exact readsBack_iff.mp (readsBack_of_gridPoint? hgrid)

/-- A pattern that is an infinity has its exponent field full and no fraction. -/
theorem ofDecimal_of_infinity {bits : UInt64} (h : ofBits bits = .infinity negative) :
    ofDecimal (.infinity negative) = bits := by
  have hbits : bits.toNat < 2 ^ 64 := bits.toNat_lt
  unfold ofBits at h
  simp only [Word.count_eq] at h
  split at h
  case isTrue hspecial =>
    split at h
    case isTrue hfraction =>
      cases h
      unfold ofDecimal
      rw [← UInt64.toNat_inj]
      by_cases hsign : bits.toNat / 2 ^ 63 = 1
      · rw [if_pos (decide_eq_true hsign)]
        show 0xfff0000000000000 = bits.toNat
        omega
      · rw [if_neg (by rwa [decide_eq_true_eq])]
        show 0x7ff0000000000000 = bits.toNat
        omega
    case isFalse => cases h
  case isFalse => split at h <;> cases h

/-- A pattern that is a number is that of the number nearest to its shortest decimal, and to all
decimals of the same value. -/
theorem ofDecimal_of_same {bits : UInt64} {decimal : Decimal} (hnumber : ofBits bits ≠ .nan)
    (hsame : (shortest tie (ofBits bits)).Same decimal) : ofDecimal decimal = bits := by
  cases hbits : ofBits bits with
  | nan => exact absurd hbits hnumber
  | infinity negative =>
    rw [hbits] at hsame
    cases hsame with
    | infinity => exact ofDecimal_of_infinity hbits
  | finite negative mantissa exponent =>
    obtain ⟨hpattern, ⟨rfl, rfl⟩ | hcanonical⟩ := pattern_of_ofBits hbits
    · rw [hbits] at hsame
      cases hsame with
      | @finite _ _ second _ place hvalue =>
        rw [Nat.cast_zero, zero_mul, zero_eq_mul] at hvalue
        have hzero : second = 0 := by
          rcases hvalue with hvalue | hvalue
          · exact_mod_cast hvalue
          · exact absurd hvalue (zpow_ne_zero _ (by norm_num))
        rw [hzero, ofDecimal_zero, hpattern]
    · obtain ⟨first, firstPlace, hshortest, hrounds⟩ :
          ∃ first firstPlace,
            shortest tie (.finite negative mantissa exponent) = .finite negative first firstPlace ∧
            Rounds mantissa exponent (first * (10 : ℚ) ^ firstPlace) :=
        exists_shortest negative hcanonical
      rw [hbits, hshortest] at hsame
      cases hsame with
      | @finite _ _ second _ place hvalue =>
        rw [hvalue] at hrounds
        have hpos : 0 < second := by
          refine Nat.pos_of_ne_zero fun hzero => ?_
          have hq := hrounds.pos hcanonical
          rw [hzero, Nat.cast_zero, zero_mul] at hq
          exact lt_irrefl 0 hq
        rw [ofDecimal_of_rounds hcanonical hpos hrounds, hpattern]

end Binary64

namespace Double

/-- A number is not told from the patterns of no number. -/
theorem ofBits_ne_nan {x : Double} (hnumber : x.isNaN = false) :
    Binary64.ofBits x.bits ≠ .nan := by
  have hmask : (~~~signBit).toNat = 2 ^ 63 - 1 := rfl
  have hexponent : exponentBits.toNat = 2047 * 2 ^ 52 := rfl
  have hbound : x.bits.toNat % 2 ^ 63 ≤ 2047 * 2 ^ 52 := by
    rw [isNaN, decide_eq_false_iff_not, UInt64.lt_iff_toNat_lt, UInt64.toNat_and, hmask,
      Nat.and_two_pow_sub_one_eq_mod, hexponent, not_lt] at hnumber
    exact hnumber
  intro hnan
  unfold Binary64.ofBits at hnan
  simp only [Word.count_eq] at hnan
  split at hnan
  case isTrue hspecial =>
    split at hnan
    case isTrue => cases hnan
    case isFalse hfraction => omega
  case isFalse => split at hnan <;> cases hnan

/-- A number is the one nearest to its shortest decimal, and to all decimals of the same value. -/
theorem ofDecimal_of_same {x : Double} {tie : Tie} {decimal : Decimal} (hnumber : x.isNaN = false)
    (hsame : (Numeral.toDecimal tie x).Same decimal) : Numeral.ofDecimal decimal = x := by
  have hbits := Binary64.ofDecimal_of_same (ofBits_ne_nan hnumber) hsame
  exact congrArg Double.mk hbits

end Double

end SingingVoice
