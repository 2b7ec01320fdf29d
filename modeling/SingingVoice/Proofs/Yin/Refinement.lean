import SingingVoice.Proofs.Yin.Normalized
import SingingVoice.Proofs.Yin.Search

/-!
# Refined lags

A lag is refined to the vertex of the parabola through its value and the two beside it. The vertex
is at most half a sample away exactly where the value in the middle is not between the others
(`abs_vertex_le_half_iff`). A search only stops at such a value inside its range; at the two ends of
the range the values may go on falling beyond it, and then the refined lag and the frequency leave
their ranges (`refined_within_half_iff`).
-/

namespace SingingVoice.Yin

/-! ## The vertex of a parabola -/

/-- How much three values bend: nothing if they are on a line. -/
def bend (before here after : ℝ) : ℝ :=
  before - here + (after - here)

/-- How far the vertex of the parabola through three values is from the middle one, where values on
a line have it in the middle. -/
noncomputable def vertex (before here after : ℝ) : ℝ :=
  if |bend before here after| < 2.220446049250313e-16 then 0
  else 0.5 * (before - after) / bend before here after

variable {before here after : ℝ}

/-- The vertex is at most half a unit away, unless the values rise or fall through the middle one.
-/
theorem abs_vertex_le_half_iff :
    |vertex before here after| ≤ 1 / 2 ↔
      |bend before here after| < 2.220446049250313e-16 ∨
        0 ≤ (before - here) * (after - here) := by
  unfold vertex
  split_ifs with hflat
  · simp only [hflat, true_or, iff_true, abs_zero]
    norm_num
  · have hpos : 0 < |bend before here after| :=
      lt_of_lt_of_le (by norm_num) (not_lt.mp hflat)
    have hhalf : |(0.5 : ℝ)| = 1 / 2 := by norm_num [abs_of_pos]
    have hquotient : |0.5 * (before - after) / bend before here after| ≤ 1 / 2 ↔
        |before - after| ≤ |bend before here after| := by
      rw [abs_div, abs_mul, hhalf, div_le_iff₀ hpos]
      constructor <;> intro h <;> linarith
    -- the two squares differ by four times the product
    rw [hquotient, ← sq_le_sq, or_iff_right hflat, bend]
    constructor <;> intro h <;> nlinarith

/-- A lag with a value on either side is refined to the vertex. -/
theorem refine_eq {values : Array ℝ} {lag : ℕ} (hpos : 0 < lag) (hlag : lag + 1 < values.size) :
    refine values lag = lag +
      vertex (values.getD (lag - 1) 0.0) (values.getD lag 0.0) (values.getD (lag + 1) 0.0) := by
  have hinside : ¬ (lag = 0 ∨ values.size ≤ lag + 1) := by omega
  unfold refine
  rw [if_neg hinside]
  dsimp only
  generalize values.getD (lag - 1) 0.0 = before, values.getD lag 0.0 = here,
    values.getD (lag + 1) 0.0 = after
  have htwo : (2.0 : ℝ) = 2 := by norm_num
  have hbend : before - 2.0 * here + after = bend before here after := by
    rw [htwo, bend]
    ring
  rw [hbend, Exact.ofNat_eq, vertex]
  show (if |bend before here after| < 2.220446049250313e-16 then (lag : ℝ) else _) = _
  split_ifs
  · rw [add_zero]
  · rfl

/-! ## Slopes at the ends of the range -/

/-- The search stopped at an end of its range where the values, which are not on a line, go on
falling beyond it. -/
def OnSlope (values : Array ℝ) (lowest limit lag : ℕ) : Prop :=
  2.220446049250313e-16 ≤
    |bend (values.getD (lag - 1) 0.0) (values.getD lag 0.0) (values.getD (lag + 1) 0.0)| ∧
  (lag = lowest ∧ values.getD (lag - 1) 0.0 < values.getD lag 0.0 ∧
      values.getD lag 0.0 < values.getD (lag + 1) 0.0 ∨
    lag + 1 = limit ∧ values.getD (lag + 1) 0.0 < values.getD lag 0.0 ∧
      values.getD lag 0.0 < values.getD (lag - 1) 0.0)

variable {values : Array ℝ} {threshold : ℝ} {limit lowest first lag : ℕ}

/-- After the first lag of its range a search does not stop where the value before is below. -/
theorem Accepted.eq_of_rising (h : Accepted threshold values limit lowest first lag)
    (hrising : values.getD (lag - 1) 0.0 < values.getD lag 0.0) : lag = lowest := by
  rcases h.descended.eq_or_falling with rfl | ⟨-, hfalling⟩
  · by_contra hne
    have hlt : lowest < lag := lt_of_le_of_ne h.le (Ne.symm hne)
    exact h.before (lag - 1) (by omega) (by omega) (hrising.trans h.below)
  · exact absurd hrising hfalling.not_gt

/-- Before the last lag of its range a search does not stop where the value after is below. -/
theorem Accepted.eq_of_falling (h : Accepted threshold values limit lowest first lag)
    (hfalling : values.getD (lag + 1) 0.0 < values.getD lag 0.0) : lag + 1 = limit := by
  have hlt := h.descended.lt h.lt
  by_contra hne
  exact h.descended.stops (by omega) hfalling

/-- The lag that a search stops at is moved by more than half a sample exactly on a slope. -/
theorem Accepted.moved_iff (h : Accepted threshold values limit lowest first lag)
    (hlowest : 0 < lowest) (hlimit : limit < values.size) :
    |refine values lag - lag| ≤ 1 / 2 ↔ ¬ OnSlope values lowest limit lag := by
  have hpos : 0 < lag := hlowest.trans_le (h.le.trans h.descended.le)
  have hlast := h.descended.lt h.lt
  rw [refine_eq hpos (by omega), add_sub_cancel_left, abs_vertex_le_half_iff, OnSlope, not_and_or,
    not_le]
  refine or_congr_right ?_
  rw [← not_lt, mul_neg_iff]
  simp only [sub_pos, sub_neg]
  refine not_congr ⟨?_, ?_⟩
  · rintro (⟨hbefore, hafter⟩ | ⟨hbefore, hafter⟩)
    · exact .inr ⟨h.eq_of_falling hafter, hafter, hbefore⟩
    · exact .inl ⟨h.eq_of_rising hbefore, hbefore, hafter⟩
  · rintro (⟨-, hbefore, hafter⟩ | ⟨-, hafter, hbefore⟩)
    · exact .inr ⟨hbefore, hafter⟩
    · exact .inl ⟨hbefore, hafter⟩

/-! ## Frequencies -/

/-- A quotient is between two others exactly where its divisor is between theirs. -/
theorem div_mem_Icc_iff {rate low high x : ℝ} (hrate : 0 < rate) (hlow : 0 < low)
    (hhigh : 0 < high) : rate / x ∈ Set.Icc (rate / high) (rate / low) ↔ x ∈ Set.Icc low high := by
  constructor
  · rintro ⟨hleast, hmost⟩
    have hx : 0 < x := (div_pos_iff_of_pos_left hrate).mp ((div_pos hrate hhigh).trans_le hleast)
    exact ⟨(div_le_div_iff_of_pos_left hrate hx hlow).mp hmost,
      (div_le_div_iff_of_pos_left hrate hhigh hx).mp hleast⟩
  · rintro ⟨hleast, hmost⟩
    have hx : 0 < x := hlow.trans_le hleast
    exact ⟨(div_le_div_iff_of_pos_left hrate hhigh hx).mpr hmost,
      (div_le_div_iff_of_pos_left hrate hx hlow).mpr hleast⟩

/-- The frequencies of the lags that are searched, the least of which may be half a sample shorter.
-/
def band (yin : Yin ℝ) (sampleRate : ℕ) : Set ℝ :=
  Set.Icc (sampleRate / yin.maxLag sampleRate) (sampleRate / (yin.minLag sampleRate - 0.5))

/-- How the lag that a search stops at becomes the frequency of the frame. -/
structure Refined (yin : Yin ℝ) (samples : Array ℝ) (sampleRate start lag : ℕ) (frequency : ℝ) :
    Prop where
  /-- The search stops at the lag. -/
  found : yin.dip? samples sampleRate start = some lag
  /-- The lag is not below the range that is searched. -/
  least : yin.minLag sampleRate ≤ lag
  /-- It is not above the range. -/
  most : lag < yin.maxLag sampleRate
  /-- The frequency is that of the refined lag. -/
  quotient : frequency =
    sampleRate / refine (normalized samples start (yin.maxLag sampleRate)) lag
  /-- The lag is moved by half a sample at most exactly if it is not on a slope. -/
  moved_iff : |refine (normalized samples start (yin.maxLag sampleRate)) lag - lag| ≤ 1 / 2 ↔
    ¬ OnSlope (normalized samples start (yin.maxLag sampleRate)) (yin.minLag sampleRate)
      (yin.maxLag sampleRate) lag
  /-- Then the frequency is positive and in the band. -/
  inside : ¬ OnSlope (normalized samples start (yin.maxLag sampleRate)) (yin.minLag sampleRate)
    (yin.maxLag sampleRate) lag → 0 < frequency ∧ frequency ∈ yin.band sampleRate
  /-- On a slope, as elsewhere, it is in the band exactly if the refined lag is in the range. -/
  mem_band_iff : frequency ∈ yin.band sampleRate ↔
    refine (normalized samples start (yin.maxLag sampleRate)) lag ∈
      Set.Icc ((yin.minLag sampleRate : ℝ) - 0.5) (yin.maxLag sampleRate)

variable {yin : Yin ℝ} {samples : Array ℝ} {sampleRate start : ℕ}

/-- A lag that a search stops at is refined so. -/
theorem refined_of_dip? (hrate : 0 < sampleRate)
    (hdip : yin.dip? samples sampleRate start = some lag) :
    Refined yin samples sampleRate start lag
      (sampleRate / refine (normalized samples start (yin.maxLag sampleRate)) lag) := by
  obtain ⟨first, haccepted⟩ := accepted_of_firstDip? hdip
  have htwo := two_le_minLag yin sampleRate
  have hleast := haccepted.le.trans haccepted.descended.le
  have hmost := haccepted.descended.lt haccepted.lt
  have hmoved := haccepted.moved_iff (by omega) (by rw [size_normalized]; omega)
  have htwo' : (2 : ℝ) ≤ yin.minLag sampleRate := by exact_mod_cast htwo
  have hleast' : (yin.minLag sampleRate : ℝ) ≤ lag := by exact_mod_cast hleast
  have hmost' : (lag : ℝ) + 1 ≤ yin.maxLag sampleRate := by exact_mod_cast hmost
  have hrate' : (0 : ℝ) < sampleRate := by exact_mod_cast hrate
  have hhalf : (0.5 : ℝ) = 1 / 2 := by norm_num
  have hband := div_mem_Icc_iff (x := refine (normalized samples start (yin.maxLag sampleRate)) lag)
    hrate' (by linarith : (0 : ℝ) < yin.minLag sampleRate - 0.5)
    (by linarith : (0 : ℝ) < yin.maxLag sampleRate)
  refine ⟨hdip, hleast, hmost, rfl, hmoved, fun hflat => ?_, hband⟩
  obtain ⟨hdown, hup⟩ := abs_le.mp (hmoved.mpr hflat)
  exact ⟨div_pos hrate' (by linarith), hband.mpr ⟨by linarith, by linarith⟩⟩

/-- A frame without a lag has the frequency zero. Any other has the frequency of the lag that the
search stops at, refined by half a sample at most and so in the band of the lags that are searched,
unless the lag is on a slope at an end of the range. On a slope the lag is always moved further, and
the frequency may be outside the band, even negative. -/
theorem refined_within_half_iff (hrate : 0 < sampleRate) {i : ℕ} {frame : Frame ℝ}
    (hframe : (yin.estimate samples sampleRate)[i]? = some frame) :
    (frame.frequency = 0 ∧ (frame.amplitude < silence ∨
        samples.size < i * yin.step + 2 * yin.maxLag sampleRate ∨
        yin.dip? samples sampleRate (i * yin.step) = none)) ∨
      ∃ lag, Refined yin samples sampleRate (i * yin.step) lag frame.frequency := by
  obtain ⟨-, rfl⟩ := getElem?_estimate_eq_some_iff.mp hframe
  rw [frameAt_eq]
  dsimp only
  split_ifs with hout
  · exact .inl ⟨Exact.zero_eq, hout.imp_right .inl⟩
  · cases hdip : yin.dip? samples sampleRate (i * yin.step) with
    | none =>
        rw [frequencyAt, hdip]
        exact .inl ⟨Exact.zero_eq, .inr (.inr rfl)⟩
    | some lag =>
        rw [frequencyAt, hdip]
        exact .inr ⟨lag, refined_of_dip? hrate hdip⟩

/-! ## A range of one lag -/

/-- The search takes the one lag if its value is below the threshold. -/
theorem dip?_pairwise (hbelow : normalizedAt samples 0 3 2 < 3 / 4) :
    pairwise.dip? samples 600 0 = some 2 := by
  have hvalue : (normalized samples 0 3).getD 2 0.0 < pairwise.threshold := by
    rw [getD_normalized (by decide)]
    refine hbelow.trans_eq ?_
    norm_num [pairwise]
  rw [dip?, minLag_pairwise, maxLag_pairwise]
  rcases firstDip?_cases pairwise.threshold (normalized samples 0 3) 3 2 with
    ⟨-, hnone⟩ | ⟨first, found, hfound, haccepted⟩
  · exact absurd hvalue (hnone 2 le_rfl (by decide))
  · have hle := haccepted.le.trans haccepted.descended.le
    have hlt := haccepted.descended.lt haccepted.lt
    obtain rfl : found = 2 := by omega
    exact hfound

/-- The frame of six loud samples has the frequency of the one lag. -/
theorem estimate_pairwise (hsize : samples.size = 6) (hloud : 1 ≤ amplitudeAt samples 0 3)
    (hbelow : normalizedAt samples 0 3 2 < 3 / 4) :
    (pairwise.estimate samples 600)[0]? = some ⟨600 / (2 + vertex (normalizedAt samples 0 3 1)
      (normalizedAt samples 0 3 2) (normalizedAt samples 0 3 3)), amplitudeAt samples 0 3⟩ := by
  have hin : ¬ (amplitudeAt samples 0 3 < silence ∨ samples.size < 0 + 2 * 3) := by
    rw [not_or, not_lt, hsize]
    exact ⟨silence_le_one.trans hloud, by decide⟩
  rw [getElem?_estimate, Nat.zero_mul, if_pos (by omega), frameAt_eq, frequencyAt,
    dip?_pairwise hbelow, maxLag_pairwise, if_neg hin, Option.elim_some,
    refine_eq (by decide) (by rw [size_normalized]; decide), getD_normalized (by decide),
    getD_normalized (by decide), getD_normalized (by decide)]
  norm_num

/-- Samples that go up and down have a value of zero at the lag of two samples, which is below its
neighbours. It is not on a slope, and the frequency is in the band. -/
theorem alternation_in_band :
    0 < 600 ∧ ∃ frame, (pairwise.estimate alternation 600)[0]? = some frame ∧
      0 < frame.frequency ∧ frame.frequency ∈ pairwise.band 600 := by
  have hvalues : normalizedAt alternation 0 3 1 = 1 ∧ normalizedAt alternation 0 3 2 = 0 ∧
      normalizedAt alternation 0 3 3 = 3 / 2 := by
    refine ⟨?_, ?_, ?_⟩ <;>
      norm_num [normalizedAt_eq, accumulated_eq, difference_eq, Finset.sum_range_succ, alternation]
  have hbelow : normalizedAt alternation 0 3 2 < 3 / 4 := by
    rw [hvalues.2.1]
    norm_num
  have hframe := estimate_pairwise rfl amplitudeAt_alternation.ge hbelow
  refine ⟨by decide, _, hframe, ?_⟩
  rcases refined_within_half_iff (by decide) hframe with ⟨hzero, -⟩ | ⟨lag, hrefined⟩
  · rw [hvalues.1, hvalues.2.1, hvalues.2.2] at hzero
    norm_num [vertex, bend] at hzero
  · have hlag : lag = 2 := by
      have hleast := hrefined.least
      have hmost := hrefined.most
      rw [minLag_pairwise] at hleast
      rw [maxLag_pairwise] at hmost
      omega
    refine hrefined.inside ?_
    rw [hlag, maxLag_pairwise, Nat.zero_mul]
    rintro ⟨-, ⟨-, hbefore, -⟩ | ⟨-, hafter, -⟩⟩
    · rw [getD_normalized (by decide), getD_normalized (by decide), hvalues.2.1] at hbefore
      exact absurd (hvalues.1.symm.trans_lt hbefore) (by norm_num)
    · rw [getD_normalized (by decide), getD_normalized (by decide), hvalues.2.1] at hafter
      exact absurd (hvalues.2.2.symm.trans_lt hafter) (by norm_num)

/-- The values of these samples fall through the lag of two samples on a line that hardly bends, so
that its vertex is far before them. The refined lag is negative, and so is the frequency. -/
theorem slope_has_negative_frequency :
    let samples : Array ℝ := #[1, -1, 1, 0, -1, 0]
    0 < pairwise.low ∧ pairwise.low < pairwise.high ∧ pairwise.dip? samples 600 0 = some 2 ∧
      refine (normalized samples 0 (pairwise.maxLag 600)) 2 = -(23 / 6) ∧
      ∃ frame : Frame ℝ, (pairwise.estimate samples 600)[0]? = some frame ∧
        frame.frequency = -(3600 / 23) ∧ frame.frequency ∉ pairwise.band 600 := by
  intro samples
  have hvalues : normalizedAt samples 0 3 1 = 1 ∧ normalizedAt samples 0 3 2 = 5 / 7 ∧
      normalizedAt samples 0 3 3 = 3 / 8 := by
    refine ⟨?_, ?_, ?_⟩ <;>
      norm_num [normalizedAt_eq, accumulated_eq, difference_eq, Finset.sum_range_succ, samples]
  have hloud : 1 ≤ amplitudeAt samples 0 3 := by
    rw [amplitudeAt_eq]
    refine Real.le_sqrt_of_sq_le ?_
    norm_num [Finset.sum_range_succ, samples]
  have hbelow : normalizedAt samples 0 3 2 < 3 / 4 := by
    rw [hvalues.2.1]
    norm_num
  have hvertex : vertex 1 (5 / 7) (3 / 8) = -(35 / 6) := by
    norm_num [vertex, bend, abs_of_neg]
  have hframe := estimate_pairwise rfl hloud hbelow
  rw [hvalues.1, hvalues.2.1, hvalues.2.2, hvertex] at hframe
  refine ⟨by norm_num [pairwise], by norm_num [pairwise], dip?_pairwise hbelow, ?_, _, hframe,
    by norm_num, fun hband => ?_⟩
  · rw [maxLag_pairwise, refine_eq (by decide) (by rw [size_normalized]; decide),
      getD_normalized (by decide), getD_normalized (by decide), getD_normalized (by decide),
      hvalues.1, hvalues.2.1, hvalues.2.2, hvertex]
    norm_num
  · have hleast := hband.1
    rw [maxLag_pairwise] at hleast
    norm_num at hleast

end SingingVoice.Yin
