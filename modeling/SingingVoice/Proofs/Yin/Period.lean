import SingingVoice.Proofs.Yin.Normalized
import SingingVoice.Proofs.Yin.Search

/-!
# Periods

The difference of a periodic frame vanishes at its period, and nothing is below it there. So a
search that begins at or before a period takes a lag and does not go down beyond the period
(`period_found`).
-/

namespace SingingVoice.Yin

variable {samples : Array ℝ} {start window period lag : ℕ}

/-- So many samples from an index on come back after a period. -/
def Periodic (samples : Array ℝ) (start count period : ℕ) : Prop :=
  ∀ i, i + period < count → samples.getD (start + i + period) 0 = samples.getD (start + i) 0

/-- So many samples from an index on are all the same. -/
def Constant (samples : Array ℝ) (start count : ℕ) : Prop :=
  ∀ i < count, samples.getD (start + i) 0 = samples.getD start 0

/-- The difference of a periodic frame vanishes at the period. -/
theorem Periodic.difference_eq_zero (h : Periodic samples start (2 * window) period)
    (hperiod : period ≤ window) : difference samples start window period = 0 := by
  rw [difference_eq_zero_iff]
  intro i hi
  rw [← h i (by omega), Nat.add_right_comm]

/-- Periodic samples whose neighbours in the window are the same are all the same. -/
theorem Periodic.constant (h : Periodic samples start (2 * window) period) (hpos : 0 < period)
    (hperiod : period ≤ window)
    (hneighbours : ∀ i < window, samples.getD (start + i) 0 = samples.getD (start + 1 + i) 0) :
    Constant samples start (2 * window) := by
  -- by recursion: a sample is the one before it, or the one a period before it
  intro i hi
  induction i using Nat.strong_induction_on with
  | _ i ih =>
    rcases Nat.eq_zero_or_pos i with rfl | hipos
    · rfl
    · by_cases hwindow : i ≤ window
      · have hbefore := hneighbours (i - 1) (by omega)
        rw [show start + 1 + (i - 1) = start + i by omega] at hbefore
        rw [← hbefore]
        exact ih (i - 1) (by omega) (by omega)
      · have hbefore := h (i - period) (by omega)
        rw [show start + (i - period) + period = start + i by omega] at hbefore
        rw [hbefore]
        exact ih (i - period) (by omega) (by omega)

/-- At the period the normalised difference of a frame that is not constant vanishes. -/
theorem Periodic.normalizedAt_eq_zero (h : Periodic samples start (2 * window) period)
    (hvaries : ¬ Constant samples start (2 * window)) (hpos : 0 < period)
    (hperiod : period ≤ window) : normalizedAt samples start window period = 0 := by
  have hfirst : difference samples start window 1 ≠ 0 := fun hzero =>
    hvaries (h.constant hpos hperiod (difference_eq_zero_iff.mp hzero))
  have htotal : 0 < accumulated samples start window period :=
    lt_of_lt_of_le (lt_of_le_of_ne difference_nonneg hfirst.symm) (difference_le_accumulated hpos)
  rw [normalizedAt_eq hpos, if_pos htotal, h.difference_eq_zero hperiod, zero_mul, zero_div]

/-- A search that begins at or before a lag whose value is zero takes a lag, and does not go down
beyond it, if no value is negative. -/
theorem exists_firstDip?_le {threshold : ℝ} {values : Array ℝ} {limit : ℕ}
    (hthreshold : 0 < threshold) (hvalues : ∀ k < limit, 0 ≤ values.getD k 0.0)
    (hzero : values.getD period 0.0 = 0) (hlag : lag ≤ period) (hperiod : period < limit) :
    ∃ found, firstDip? threshold values limit lag = some found ∧ lag ≤ found ∧ found ≤ period := by
  have hbelow : values.getD period 0.0 < threshold := by rwa [hzero]
  rcases firstDip?_cases threshold values limit lag with
    ⟨-, hnone⟩ | ⟨first, found, hfound, haccepted⟩
  · exact absurd hbelow (hnone period hlag hperiod)
  · refine ⟨found, hfound, haccepted.le.trans haccepted.descended.le, ?_⟩
    have hfirst : first ≤ period :=
      not_lt.mp fun hlt => haccepted.before period hlag hlt hbelow
    refine not_lt.mp fun hlt => ?_
    -- the descent would have gone on to a value below zero
    have hfalling := haccepted.descended.falling period hfirst hlt
    have hnext := hvalues (period + 1) (by have := haccepted.descended.lt haccepted.lt; omega)
    rw [hzero] at hfalling
    exact absurd hfalling (not_lt.mpr hnext)

/-- A frame with a period in the range of lags is not missed, and its lag is not beyond the period.
The frame is inside the samples, loud enough and not constant. The search stops at a lag from the
least one to the period, so the frequency of this lag, before it is refined, is not below that of
the period. -/
theorem period_found {yin : Yin ℝ} {samples : Array ℝ} {sampleRate i period : ℕ}
    (hthreshold : 0 < yin.threshold)
    (hinside : i * yin.step + 2 * yin.maxLag sampleRate ≤ samples.size)
    (hloud : silence ≤ amplitudeAt samples (i * yin.step) (yin.maxLag sampleRate))
    (hvaries : ¬ Constant samples (i * yin.step) (2 * yin.maxLag sampleRate))
    (hperiodic : Periodic samples (i * yin.step) (2 * yin.maxLag sampleRate) period)
    (hleast : yin.minLag sampleRate ≤ period) (hmost : period < yin.maxLag sampleRate) :
    ∃ lag, yin.dip? samples sampleRate (i * yin.step) = some lag ∧
      yin.minLag sampleRate ≤ lag ∧ lag ≤ period ∧
      (sampleRate : ℝ) / period ≤ sampleRate / lag ∧
      (yin.estimate samples sampleRate)[i]? = some
        ⟨sampleRate / refine (normalized samples (i * yin.step) (yin.maxLag sampleRate)) lag,
          amplitudeAt samples (i * yin.step) (yin.maxLag sampleRate)⟩ := by
  have htwo : 2 ≤ yin.minLag sampleRate := two_le_minLag yin sampleRate
  have hvalues : ∀ k < yin.maxLag sampleRate,
      0 ≤ (normalized samples (i * yin.step) (yin.maxLag sampleRate)).getD k 0.0 := by
    intro k hk
    rw [getD_normalized hk.le]
    exact normalizedAt_nonneg
  have hzero : (normalized samples (i * yin.step) (yin.maxLag sampleRate)).getD period 0.0 = 0 := by
    rw [getD_normalized hmost.le]
    exact hperiodic.normalizedAt_eq_zero hvaries (by omega) hmost.le
  obtain ⟨lag, hfound, hlag, hle⟩ :=
    exists_firstDip?_le hthreshold hvalues hzero hleast hmost
  refine ⟨lag, hfound, hlag, hle, ?_, ?_⟩
  · have hpos : (0 : ℝ) < lag := by exact_mod_cast (by omega : 0 < lag)
    gcongr
  · have hin : ¬ (amplitudeAt samples (i * yin.step) (yin.maxLag sampleRate) < silence ∨
        samples.size < i * yin.step + 2 * yin.maxLag sampleRate) := by
      rw [not_or]
      exact ⟨not_lt.mpr hloud, not_lt.mpr hinside⟩
    rw [getElem?_estimate, if_pos (by omega), frameAt_eq, if_neg hin, frequencyAt, dip?, hfound]
    rfl

/-! ## A range of several lags -/

/-- An analysis that at 600 samples per second looks at the lags from two samples to five. -/
noncomputable def wide : Yin ℝ :=
  ⟨(100 : ℕ), (300 : ℕ), 256, 0.8⟩

theorem minLag_wide : wide.minLag 600 = 2 := by
  rw [minLag_eq]
  norm_num [wide]

theorem maxLag_wide : wide.maxLag 600 = 6 := by
  rw [maxLag_eq]
  norm_num [wide]

/-- Samples that go up for two and down for two, as many as such an analysis compares. -/
noncomputable def squareWave : Array ℝ :=
  #[1, 1, -1, -1, 1, 1, -1, -1, 1, 1, -1, -1]

theorem amplitudeAt_squareWave : amplitudeAt squareWave 0 6 = 1 := by
  rw [amplitudeAt_eq, ← Real.sqrt_one]
  congr 1
  norm_num [Finset.sum_range_succ, squareWave]

/-- At two samples the square wave is the other way round, and at four it comes back. -/
theorem difference_squareWave :
    difference squareWave 0 6 1 = 12 ∧ difference squareWave 0 6 2 = 24 ∧
      difference squareWave 0 6 3 = 12 ∧ difference squareWave 0 6 4 = 0 := by
  refine ⟨?_, ?_, ?_, ?_⟩ <;> norm_num [difference_eq, Finset.sum_range_succ, squareWave]

theorem normalizedAt_squareWave :
    normalizedAt squareWave 0 6 2 = 4 / 3 ∧ normalizedAt squareWave 0 6 3 = 3 / 4 ∧
      normalizedAt squareWave 0 6 4 = 0 := by
  obtain ⟨hfirst, hsecond, hthird, hfourth⟩ := difference_squareWave
  refine ⟨?_, ?_, ?_⟩ <;>
    norm_num [normalizedAt_eq, accumulated_eq, Finset.sum_range_succ, hfirst, hsecond, hthird,
      hfourth]

/-- A search in the square wave that does not stop beyond the period passes over the first lag,
takes the next and goes down from there to the period. -/
theorem search_squareWave {first found : ℕ}
    (h : Accepted wide.threshold (normalized squareWave 0 6) 6 2 first found) (hfound : found ≤ 4) :
    first = 3 ∧ found = 4 := by
  obtain ⟨hsecond, hthird, hfourth⟩ := normalizedAt_squareWave
  have hvalue : ∀ lag ≤ 6,
      (normalized squareWave 0 6).getD lag 0.0 = normalizedAt squareWave 0 6 lag :=
    fun lag hlag => getD_normalized hlag
  have hpassed : first ≠ 2 := by
    rintro rfl
    have hbelow := h.below
    rw [hvalue 2 (by decide), hsecond] at hbelow
    norm_num [wide] at hbelow
  have htaken : first ≤ 3 := by
    refine not_lt.mp fun hlt => h.before 3 (by decide) hlt ?_
    rw [hvalue 3 (by decide), hthird]
    norm_num [wide]
  have hdown : found ≠ 3 := by
    rintro rfl
    refine h.descended.stops (by decide) ?_
    rw [hvalue 4 (by decide), hvalue 3 (by decide), hfourth, hthird]
    norm_num
  have hfirst := h.le
  have hdescended := h.descended.le
  omega

/-- A square wave has the period four. The search for it begins at two samples, takes the lag of
three and goes down to the period, which is not the last lag. -/
theorem square_wave_found :
    let start := 0 * wide.step
    let limit := wide.maxLag 600
    0 < wide.threshold ∧ start + 2 * limit ≤ squareWave.size ∧
      silence ≤ amplitudeAt squareWave start limit ∧ ¬ Constant squareWave start (2 * limit) ∧
      Periodic squareWave start (2 * limit) 4 ∧ wide.minLag 600 < 4 ∧ 4 + 1 < limit ∧
      Accepted wide.threshold (normalized squareWave start limit) limit (wide.minLag 600) 3 4 ∧
      wide.dip? squareWave 600 start = some 4 := by
  intro start limit
  have hstart : start = 0 := Nat.zero_mul _
  have hlimit : limit = 6 := maxLag_wide
  have hthreshold : 0 < wide.threshold := by norm_num [wide]
  have hinside : start + 2 * limit ≤ squareWave.size := by
    rw [hstart, hlimit]
    exact le_rfl
  have hloud : silence ≤ amplitudeAt squareWave start limit := by
    rw [hstart, hlimit, amplitudeAt_squareWave]
    exact silence_le_one
  have hvaries : ¬ Constant squareWave start (2 * limit) := by
    rw [hstart, hlimit]
    intro h
    have hthird := h 2 (by decide)
    norm_num [squareWave] at hthird
  have hperiodic : Periodic squareWave start (2 * limit) 4 := by
    rw [hstart, hlimit]
    intro i hi
    have hi : i < 8 := by omega
    interval_cases i <;> rfl
  have hleast : wide.minLag 600 = 2 := minLag_wide
  obtain ⟨lag, hfound, -, hle, -⟩ :=
    period_found hthreshold hinside hloud hvaries hperiodic (by omega) (by omega)
  have haccepted : ∃ first, Accepted wide.threshold (normalized squareWave start limit) limit
      (wide.minLag 600) first lag := accepted_of_firstDip? hfound
  obtain ⟨first, haccepted⟩ := haccepted
  have hsearch : Accepted wide.threshold (normalized squareWave 0 6) 6 2 first lag := by
    rwa [hstart, hlimit, hleast] at haccepted
  obtain ⟨rfl, rfl⟩ := search_squareWave hsearch hle
  exact ⟨hthreshold, hinside, hloud, hvaries, hperiodic, by omega, by omega, haccepted, hfound⟩

end SingingVoice.Yin
