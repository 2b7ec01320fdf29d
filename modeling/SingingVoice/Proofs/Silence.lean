import Mathlib
import SingingVoice.Double
import SingingVoice.Proofs.Exact.Scalar

/-!
# Adding to silence

A sample that is added to silence keeps its value: the sum is equal to it, or neither is a number
(`Scalar.NeutralSilence`). This holds of the real numbers and of double-precision numbers. A sum of
these may differ from the sample by its pattern: negative zero loses its sign, and what is no number
is made quiet.
-/

namespace SingingVoice

namespace Scalar

variable {α : Type} [Scalar α]

/-- Two scalars are equal, or neither is a number. -/
def Same (x y : α) : Prop :=
  (x == y) = true ∨ isNaN x = true ∧ isNaN y = true

/-- Adding to silence keeps values. -/
class NeutralSilence (α : Type) [Scalar α] : Prop where
  silence_add : ∀ x : α, Same (0.0 + x) x

end Scalar

instance : Scalar.NeutralSilence ℝ where
  silence_add x := by
    have hsum : (0.0 : ℝ) + x = x := by rw [Exact.zero_eq, zero_add]
    rw [hsum]
    exact .inl (decide_eq_true rfl)

/-- Real numbers are the same only if they are equal. -/
theorem Exact.eq_of_same {x y : ℝ} (h : Scalar.Same x y) : x = y := by
  rcases h with heq | ⟨hnan, -⟩
  · exact of_decide_eq_true heq
  · rw [Exact.isNaN_eq] at hnan
    contradiction

namespace Double

open Float.Model UnpackedFloat

/-! ## Patterns -/

/-- What a pattern stands for. -/
def value (x : Double) : UnpackedFloat :=
  unpack .binary64 x.bits.toBitVec

/-- A pattern is made of a sign, an exponent and a fraction. -/
theorem exists_components (pattern : BitVec 64) :
    ∃ (sign : Sign) (exponent : BitVec 11) (fraction : BitVec 52),
      pattern = packComponents .binary64 sign exponent fraction := by
  refine ⟨Sign.ofBitVec (@unpackSign .binary64 pattern), @unpackExponent .binary64 pattern,
    @unpackMantissa .binary64 pattern, ?_⟩
  have hsign : (Sign.ofBitVec (@unpackSign .binary64 pattern)).toBitVec =
      @unpackSign .binary64 pattern := by
    generalize @unpackSign .binary64 pattern = bit
    revert bit
    decide
  rw [packComponents, hsign]
  apply BitVec.eq_of_getLsbD_eq
  intro i hi
  change i < 64 at hi
  simp only [unpackSign, unpackExponent, unpackMantissa, BitVec.getLsbD_append, BitVec.getLsbD_cast,
    BitVec.getLsbD_extractLsb]
  grind

/-- A pattern stands for no number if its exponent is full and its fraction is not zero. -/
theorem unpack_eq_nan_iff (sign : Sign) (exponent : BitVec 11) (fraction : BitVec 52) :
    unpack .binary64 (packComponents .binary64 sign exponent fraction) = .notANumber ↔
      exponent = -1#11 ∧ fraction ≠ 0#52 := by
  simp only [UnpackedFloat.unpack, unpackExponent_packComponents, unpackMantissa_packComponents]
  split_ifs <;> simp_all

/-- The mantissa of a normal number has one bit more than its fraction. -/
theorem log2_normal (fraction : BitVec 52) :
    (1#1 ++ fraction).toNat = 2 ^ 52 + fraction.toNat ∧ (1#1 ++ fraction).toNat.log2 + 1 = 53 := by
  have hvalue : (1#1 ++ fraction).toNat = 2 ^ 52 + fraction.toNat := by
    rw [BitVec.toNat_append, ← Nat.shiftLeft_add_eq_or_of_lt fraction.isLt]
    rfl
  have hlt : (1#1 ++ fraction).toNat.log2 < 53 := (Nat.log2_lt (by omega)).mpr (by omega)
  have hle : 52 ≤ (1#1 ++ fraction).toNat.log2 := (Nat.le_log2 (by omega)).mpr (by omega)
  exact ⟨hvalue, by omega⟩

/-- The pattern of a number is found again from what it stands for. -/
theorem pack_unpack (pattern : BitVec 64) (h : unpack .binary64 pattern ≠ .notANumber) :
    pack .binary64 (unpack .binary64 pattern) = pattern := by
  obtain ⟨sign, exponent, fraction, rfl⟩ := exists_components pattern
  have hsign : Sign.ofBitVec sign.toBitVec = sign := by cases sign <;> rfl
  simp only [UnpackedFloat.unpack, unpackExponent_packComponents, unpackMantissa_packComponents,
    unpackSign_packComponents, hsign] at h ⊢
  by_cases hfull : exponent = -1#11
  · subst hfull
    by_cases hfraction : fraction = 0#52
    · subst hfraction
      simp [UnpackedFloat.pack, packedInfinity]
    · simp [hfraction] at h
  · have hexponent : exponent.toNat + 1 < 2048 := by
      have hne : exponent.toNat ≠ 2047 := fun h => hfull (BitVec.eq_of_toNat_eq h)
      omega
    by_cases hzero : exponent = 0#11
    · subst hzero
      by_cases hfraction : fraction = 0#52
      · subst hfraction
        simp [UnpackedFloat.pack, packedZero]
      -- a subnormal number, whose mantissa is shorter than that of a normal one
      · have hlog : fraction.toNat.log2 + 1 ≠ Format.binary64.mantissaBits := by
          have hne : fraction.toNat ≠ 0 := fun h => hfraction (BitVec.eq_of_toNat_eq h)
          have hlt := (Nat.log2_lt hne).mpr fraction.isLt
          simp only [Format.mantissaBits]
          omega
        simp [UnpackedFloat.pack, hfraction, Format.exponentBias, hlog]
    · obtain ⟨hvalue, hlog⟩ := log2_normal fraction
      have hlog' : (1#1 ++ fraction).toNat.log2 + 1 = Format.binary64.mantissaBits := hlog
      have hbiased : ((exponent.toNat : Int) - (Format.binary64.exponentBias + (52 : Nat)) +
          Format.binary64.exponentBias + (52 : Nat)).toNat = exponent.toNat := by
        omega
      have hfraction : BitVec.ofNat 52 (1#1 ++ fraction).toNat = fraction := by
        apply BitVec.eq_of_toNat_eq
        rw [BitVec.toNat_ofNat, hvalue]
        omega
      simp only [UnpackedFloat.pack, hfull, hzero, ↓reduceIte]
      rw [hbiased, if_neg (by omega), if_pos hlog', hfraction, BitVec.ofNat_toNat,
        BitVec.setWidth_eq]

/-- What a pattern stands for is kept when it is packed. -/
theorem unpack_pack_unpack (pattern : BitVec 64) :
    unpack .binary64 (pack .binary64 (unpack .binary64 pattern)) = unpack .binary64 pattern := by
  by_cases h : unpack .binary64 pattern = .notANumber
  · rw [h]
    rfl
  · rw [pack_unpack pattern h]

/-- Arithmetic is done with what patterns stand for. -/
theorem unpack_toFloat (x : Double) : x.toFloat.toModel.unpack = x.value :=
  unpack_pack_unpack _

/-! ## Comparisons -/

/-- Two numbers are compared by what they stand for. -/
theorem beq_eq (x y : Double) : (x == y) = x.value.beq y.value := by
  rw [← unpack_toFloat, ← unpack_toFloat]
  rfl

/-- A number is equal to itself. -/
theorem beq_self {value : UnpackedFloat} (h : value ≠ .notANumber) : value.beq value = true := by
  cases value with
  | notANumber => exact absurd rfl h
  | infinity sign => cases sign <;> rfl
  | zero sign => rfl
  | finite sign mantissa exponent => cases sign <;> simp [UnpackedFloat.beq, UnpackedFloat.compare]

/-- A pattern that stands for no number differs from itself. -/
theorem isNaN_of_value {x : Double} (h : x.value = .notANumber) : Scalar.isNaN x = true := by
  rw [Scalar.isNaN, beq_eq, h]
  rfl

/-- What is no number is none when it is made quiet. -/
theorem value_quiet {x : Double} (h : x.value = .notANumber) : x.quiet.value = .notANumber := by
  obtain ⟨sign, exponent, fraction, hbits⟩ := exists_components x.bits.toBitVec
  have hquiet : x.quiet.bits.toBitVec =
      packComponents .binary64 sign exponent (fraction ||| 0x8000000000000#52) := by
    have hor : packComponents .binary64 sign exponent fraction |||
        packComponents .binary64 .positive 0#11 0x8000000000000#52 =
          packComponents .binary64 sign exponent (fraction ||| 0x8000000000000#52) := by
      apply BitVec.eq_of_getLsbD_eq
      intro i hi
      simp only [packComponents, BitVec.getLsbD_append, BitVec.getLsbD_or, Sign.toBitVec]
      grind
    rw [← hor, ← hbits]
    rfl
  rw [value, hbits, unpack_eq_nan_iff] at h
  rw [value, hquiet, unpack_eq_nan_iff]
  refine ⟨h.1, fun hzero => ?_⟩
  have hbit := congrArg (BitVec.getLsbD · 51) hzero
  simp at hbit

/-! ## Sums -/

/-- The sum of silence and a number, before it is packed. -/
theorem toModel_silence_add (x : Double) :
    (Float.add (toFloat ⟨0⟩) x.toFloat).toModel =
      Float.Model.pack (UnpackedFloat.add .binary64 (.zero .positive) x.value) := by
  rw [← unpack_toFloat]
  rfl

/-- Silence and what is no number add up to what is none. -/
theorem silence_add_of_nan {x : Double} (h : x.value = .notANumber) :
    Scalar.isNaN ((0.0 : Double) + x) = true := by
  -- what is no number is told by that it differs from itself
  have hself :
      (Float.add (toFloat ⟨0⟩) x.toFloat == Float.add (toFloat ⟨0⟩) x.toFloat) = false := by
    show UnpackedFloat.beq (Float.add (toFloat ⟨0⟩) x.toFloat).toModel.unpack
      (Float.add (toFloat ⟨0⟩) x.toFloat).toModel.unpack = false
    rw [toModel_silence_add, h]
    rfl
  have hsum : (0.0 : Double) + x = if x.isNaN then x.quiet else invalid := by
    show map₂ Float.add ⟨0⟩ x = _
    simp only [map₂, hself, Bool.false_eq_true, ↓reduceIte]
    rfl
  rw [hsum]
  split
  · exact isNaN_of_value (value_quiet h)
  · exact isNaN_of_value rfl

/-- The sum of silence and a number stands for what is added up. -/
theorem value_silence_add {x : Double} {sum : UnpackedFloat}
    (hsum : UnpackedFloat.add .binary64 (.zero .positive) x.value = sum)
    (hnumber : sum ≠ .notANumber) (hkept : unpack .binary64 (pack .binary64 sum) = sum) :
    ((0.0 : Double) + x).value = sum := by
  have hmodel := toModel_silence_add x
  rw [hsum] at hmodel
  have hself : (Float.add (toFloat ⟨0⟩) x.toFloat == Float.add (toFloat ⟨0⟩) x.toFloat) = true := by
    show UnpackedFloat.beq (Float.add (toFloat ⟨0⟩) x.toFloat).toModel.unpack
      (Float.add (toFloat ⟨0⟩) x.toFloat).toModel.unpack = true
    rw [hmodel, show (Float.Model.pack sum).unpack = sum from hkept]
    exact beq_self hnumber
  have hpattern : (0.0 : Double) + x = ofFloat (Float.add (toFloat ⟨0⟩) x.toFloat) := by
    show map₂ Float.add ⟨0⟩ x = _
    simp only [map₂, hself, ↓reduceIte]
  rw [hpattern]
  show unpack .binary64 (Float.add (toFloat ⟨0⟩) x.toFloat).toModel.toBits.toBitVec = sum
  rw [hmodel]
  exact hkept

/-- A number that stays as it is when it is added to silence is equal to the sum. -/
theorem silence_add_beq {x : Double} (hnumber : x.value ≠ .notANumber)
    (hsum : UnpackedFloat.add .binary64 (.zero .positive) x.value = x.value) :
    ((0.0 : Double) + x == x) = true := by
  rw [beq_eq, value_silence_add hsum hnumber (unpack_pack_unpack _)]
  exact beq_self hnumber

end Double

instance : Scalar.NeutralSilence Double where
  silence_add x := by
    cases hvalue : x.value with
    | notANumber => exact .inr ⟨Double.silence_add_of_nan hvalue, Double.isNaN_of_value hvalue⟩
    | infinity sign =>
        refine .inl (Double.silence_add_beq ?_ ?_)
        · rw [hvalue]
          exact nofun
        · rw [hvalue]
          rfl
    -- the sum with either zero is the positive one, and the two are equal
    | zero sign =>
        have hsum : Float.Model.UnpackedFloat.add .binary64 (.zero .positive) x.value =
            .zero .positive := by
          rw [hvalue]
          cases sign <;> rfl
        refine .inl ?_
        rw [Double.beq_eq, Double.value_silence_add hsum nofun rfl, hvalue]
        rfl
    | finite sign mantissa exponent =>
        refine .inl (Double.silence_add_beq ?_ ?_)
        · rw [hvalue]
          exact nofun
        · rw [hvalue]
          rfl

end SingingVoice
