import SingingVoice.Proofs.Yin.Normalized

/-!
# Loudness

A factor on all samples is a factor on their amplitude, and its square is one on every difference.
The normalised differences are the same as before, so the search and the refinement go the same way,
and a frame that is not silent keeps its frequency (`pitch_ignores_loudness`).
-/

namespace SingingVoice.Yin

variable {g : ℝ} {samples : Array ℝ} {start window : ℕ}

/-- Samples with a factor. -/
noncomputable def scaled (g : ℝ) (samples : Array ℝ) : Array ℝ :=
  samples.map (g * ·)

/-- Samples with a factor, zero outside as before. -/
theorem getD_scaled (g : ℝ) (samples : Array ℝ) (i : ℕ) :
    (scaled g samples).getD i 0 = g * samples.getD i 0 := by
  rw [scaled, Array.getD_eq_getD_getElem?, Array.getD_eq_getD_getElem?, Array.getElem?_map]
  cases samples[i]? with
  | none => exact (mul_zero g).symm
  | some x => rfl

@[simp] theorem size_scaled (g : ℝ) (samples : Array ℝ) :
    (scaled g samples).size = samples.size :=
  Array.size_map

/-- A factor is one on the amplitude, without its sign. -/
theorem amplitudeAt_scaled (g : ℝ) (samples : Array ℝ) (start count : ℕ) :
    amplitudeAt (scaled g samples) start count = |g| * amplitudeAt samples start count := by
  rw [amplitudeAt_eq, amplitudeAt_eq]
  simp only [getD_scaled, mul_pow]
  rw [← Finset.mul_sum, mul_div_assoc, Real.sqrt_mul (sq_nonneg g), Real.sqrt_sq_eq_abs]

/-- A factor is one on every difference, squared. -/
theorem difference_scaled (g : ℝ) (samples : Array ℝ) (start window lag : ℕ) :
    difference (scaled g samples) start window lag =
      g ^ 2 * difference samples start window lag := by
  rw [difference_eq, difference_eq]
  simp only [getD_scaled, ← mul_sub, mul_pow]
  exact (Finset.mul_sum _ _ _).symm

/-- It is the same factor on differences together. -/
theorem accumulated_scaled (g : ℝ) (samples : Array ℝ) (start window lag : ℕ) :
    accumulated (scaled g samples) start window lag =
      g ^ 2 * accumulated samples start window lag := by
  rw [accumulated_eq, accumulated_eq]
  simp only [difference_scaled]
  exact (Finset.mul_sum _ _ _).symm

/-- A factor that is not zero changes no normalised difference. -/
theorem normalized_scaled (hg : g ≠ 0) :
    normalized (scaled g samples) start window = normalized samples start window := by
  have hsq : 0 < g ^ 2 := by positivity
  refine Array.ext_getElem? fun lag => ?_
  rw [getElem?_normalized, getElem?_normalized]
  refine if_congr Iff.rfl (congrArg some ?_) rfl
  rcases Nat.eq_zero_or_pos lag with rfl | hlag
  · rfl
  · rw [normalizedAt_eq hlag, normalizedAt_eq hlag, difference_scaled, accumulated_scaled,
      mul_assoc, mul_div_mul_left _ _ hsq.ne']
    simp only [mul_pos_iff_of_pos_left hsq]

/-- A factor that is not zero changes the frequency of no dip, only how loud the frame is. -/
theorem frameAt_scaled (hg : g ≠ 0) (yin : Yin ℝ) (samples : Array ℝ) (sampleRate start : ℕ) :
    yin.frameAt (scaled g samples) sampleRate start =
      ⟨if |g| * amplitudeAt samples start (yin.maxLag sampleRate) < silence ∨
          samples.size < start + 2 * yin.maxLag sampleRate then 0.0
        else yin.frequencyAt samples sampleRate start,
      |g| * amplitudeAt samples start (yin.maxLag sampleRate)⟩ := by
  rw [frameAt_eq, frequencyAt, frequencyAt, dip?, dip?, amplitudeAt_scaled, normalized_scaled hg,
    size_scaled]

/-- A factor on all samples is a factor on all amplitudes, without its sign, and changes the
frequency of no frame that is loud enough before and after. A factor of one or minus one changes no
frame at all. -/
theorem pitch_ignores_loudness (hg : g ≠ 0) (yin : Yin ℝ) (samples : Array ℝ) (sampleRate : ℕ) :
    (yin.estimate (scaled g samples) sampleRate).length =
        (yin.estimate samples sampleRate).length ∧
      (∀ (i : ℕ) (frame louder : Frame ℝ), (yin.estimate samples sampleRate)[i]? = some frame →
        (yin.estimate (scaled g samples) sampleRate)[i]? = some louder →
        louder.amplitude = |g| * frame.amplitude ∧
        (silence ≤ frame.amplitude → silence ≤ louder.amplitude →
          louder.frequency = frame.frequency)) ∧
      (|g| = 1 → yin.estimate (scaled g samples) sampleRate = yin.estimate samples sampleRate) := by
  refine ⟨?_, fun i frame louder hframe hlouder => ?_, fun hone => List.ext_getElem? fun i => ?_⟩
  · unfold estimate
    simp only [size_scaled, List.length_map]
  · obtain ⟨-, rfl⟩ := getElem?_estimate_eq_some_iff.mp hframe
    obtain ⟨-, rfl⟩ := getElem?_estimate_eq_some_iff.mp hlouder
    rw [frameAt_scaled hg, frameAt_eq]
    refine ⟨rfl, fun hloud hlouder => ?_⟩
    simp only [not_lt.mpr hloud, not_lt.mpr hlouder, false_or]
  · rw [getElem?_estimate, getElem?_estimate, size_scaled, frameAt_scaled hg, frameAt_eq, hone,
      one_mul]

/-- Samples that go up and down are turned over and made twice as loud. -/
theorem alternation_doubled :
    (-2 : ℝ) ≠ 0 ∧ ∃ frame louder : Frame ℝ,
      (pairwise.estimate alternation 600)[0]? = some frame ∧
      (pairwise.estimate (scaled (-2) alternation) 600)[0]? = some louder ∧
      frame.amplitude = 1 ∧ louder.amplitude = 2 ∧ louder.frequency = frame.frequency := by
  have hfactor : (-2 : ℝ) ≠ 0 := by norm_num
  have hsize : 0 * pairwise.step < alternation.size := by
    rw [Nat.zero_mul]
    decide
  have hframe : (pairwise.estimate alternation 600)[0]? =
      some (pairwise.frameAt alternation 600 (0 * pairwise.step)) :=
    getElem?_estimate_eq_some_iff.mpr ⟨hsize, rfl⟩
  have hlouder : (pairwise.estimate (scaled (-2) alternation) 600)[0]? =
      some (pairwise.frameAt (scaled (-2) alternation) 600 (0 * pairwise.step)) :=
    getElem?_estimate_eq_some_iff.mpr ⟨by rwa [size_scaled], rfl⟩
  obtain ⟨-, hframes, -⟩ := pitch_ignores_loudness hfactor pairwise alternation 600
  obtain ⟨hamplitude, hfrequency⟩ := hframes 0 _ _ hframe hlouder
  have hfull : (pairwise.frameAt alternation 600 (0 * pairwise.step)).amplitude = 1 := by
    rw [amplitude_frameAt, Nat.zero_mul, maxLag_pairwise, amplitudeAt_alternation]
  rw [hfull, mul_one, abs_neg, abs_two] at hamplitude
  refine ⟨hfactor, _, _, hframe, hlouder, hfull, hamplitude, hfrequency ?_ ?_⟩
  · exact silence_le_one.trans_eq hfull.symm
  · exact silence_le_one.trans (one_le_two.trans_eq hamplitude.symm)

end SingingVoice.Yin
