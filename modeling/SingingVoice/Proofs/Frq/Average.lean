import Mathlib
import SingingVoice.Frq.Basic
import SingingVoice.Proofs.Exact.Scalar

/-!
# The average of a frequency map as weights

In exact arithmetic the mean of the moving averages of the voiced frequencies is a weighted mean of
these frequencies. The weight of a frequency is decided by the number of windows that cover its
place (`windowsOver`), and so by the number of voiced frames alone (`average_weighs_voiced`).
-/

namespace SingingVoice.Frq

variable {frames : List (Frame ℝ)} {values : List ℝ} {size count i : ℕ}

/-! ## Windows -/

/-- How many of the windows of `size` consecutive places among `count` cover place `i`. -/
def windowsOver (size count i : ℕ) : ℕ :=
  min (min (i + 1) (count - i)) (min size (count + 1 - size))

/-- The windows that cover a place are counted by their first places. -/
theorem card_windowsOver (hi : i < count) :
    ((Finset.range (count + 1 - size)).filter fun start => start ≤ i ∧ i < start + size).card =
      windowsOver size count i := by
  have hstarts : ((Finset.range (count + 1 - size)).filter
      fun start => start ≤ i ∧ i < start + size) =
        Finset.Ico (i + 1 - size) (min (i + 1) (count + 1 - size)) := by
    ext start
    simp only [Finset.mem_filter, Finset.mem_range, Finset.mem_Ico]
    omega
  rw [hstarts, Nat.card_Ico, windowsOver]
  omega

/-- As many windows cover a place as its mirror image. -/
theorem windowsOver_reflect (hi : i < count) :
    windowsOver size count (count - 1 - i) = windowsOver size count i := by
  unfold windowsOver
  omega

/-- A sum over a list by places. -/
theorem sum_eq_sum_range (values : List ℝ) :
    values.sum = ∑ i ∈ Finset.range values.length, values.getD i 0 := by
  rw [Finset.sum_range, ← Fin.sum_univ_getElem]
  simp

/-- The sum over a window is the sum over the places that it covers. -/
theorem sum_window {start : ℕ} (hstart : start + size ≤ values.length) :
    ((values.drop start).take size).sum =
      ∑ i ∈ Finset.range values.length,
        if start ≤ i ∧ i < start + size then values.getD i 0 else 0 := by
  have hlength : ((values.drop start).take size).length = size := by simp; omega
  have hplaces : (Finset.range values.length).filter (fun i => start ≤ i ∧ i < start + size) =
      Finset.Ico start (start + size) := by
    ext i
    simp only [Finset.mem_filter, Finset.mem_range, Finset.mem_Ico]
    omega
  rw [← Finset.sum_filter, hplaces, Finset.sum_Ico_eq_sum_range, Nat.add_sub_cancel_left,
    sum_eq_sum_range, hlength]
  refine Finset.sum_congr rfl fun i hi => ?_
  have hi' := Finset.mem_range.mp hi
  simp [List.getD_eq_getElem?_getD, List.getElem?_drop, hi']

/-- The sums over all windows together have every value as often as windows cover its place. -/
theorem sum_windows (hsize : size ≤ values.length) :
    ((windows size values).map List.sum).sum =
      ∑ i ∈ Finset.range values.length, windowsOver size values.length i * values.getD i 0 := by
  have hwindow : ∀ start ∈ Finset.range (values.length + 1 - size),
      ((values.drop start).take size).sum = ∑ i ∈ Finset.range values.length,
        if start ≤ i ∧ i < start + size then values.getD i 0 else 0 := by
    intro start hstart
    have hstart' := Finset.mem_range.mp hstart
    exact sum_window (by omega)
  calc ((windows size values).map List.sum).sum
      = ∑ start ∈ Finset.range (values.length + 1 - size),
          ((values.drop start).take size).sum := by
        rw [windows, List.map_map]
        rfl
    _ = ∑ i ∈ Finset.range values.length, ∑ start ∈ Finset.range (values.length + 1 - size),
          if start ≤ i ∧ i < start + size then values.getD i 0 else 0 := by
        rw [Finset.sum_congr rfl hwindow, Finset.sum_comm]
    _ = ∑ i ∈ Finset.range values.length, windowsOver size values.length i * values.getD i 0 := by
        refine Finset.sum_congr rfl fun i hi => ?_
        rw [← Finset.sum_filter, Finset.sum_const, card_windowsOver (Finset.mem_range.mp hi),
          nsmul_eq_mul]

/-- The windows over all places together are their number times their size. -/
theorem sum_windowsOver (hsize : size ≤ count) :
    ∑ i ∈ Finset.range count, (windowsOver size count i : ℝ) = size * (count + 1 - size : ℕ) := by
  have hlength : size ≤ (List.replicate count (1 : ℝ)).length := by simpa using hsize
  have hones := sum_windows hlength
  have hwindows : (windows size (List.replicate count (1 : ℝ))).map List.sum =
      List.replicate (count + 1 - size) (size : ℝ) := by
    rw [windows, List.map_map, List.length_replicate, List.eq_replicate_iff]
    refine ⟨by simp, fun total htotal => ?_⟩
    obtain ⟨start, hstart, rfl⟩ := List.mem_map.mp htotal
    have hstart' := List.mem_range.mp hstart
    have hmin : min size (count - start) = size := by omega
    simp [List.take_replicate, List.drop_replicate, hmin]
  rw [hwindows, List.sum_replicate, nsmul_eq_mul, List.length_replicate] at hones
  rw [mul_comm, hones]
  refine Finset.sum_congr rfl fun i hi => ?_
  simp [List.getD_eq_getElem?_getD, Finset.mem_range.mp hi]

/-! ## Weights -/

/-- The weight in the average of the value at place `i` of `count`. -/
noncomputable def averageWeight (count i : ℕ) : ℝ :=
  if count < averageWindow then 1 / count
  else windowsOver averageWindow count i / (averageWindow * (count + 1 - averageWindow : ℕ))

/-- No weight is negative. -/
theorem averageWeight_nonneg (count i : ℕ) : 0 ≤ averageWeight count i := by
  unfold averageWeight
  split <;> positivity

/-- The weights are one together. -/
theorem sum_averageWeight (hcount : 0 < count) :
    ∑ i ∈ Finset.range count, averageWeight count i = 1 := by
  unfold averageWeight
  split_ifs with hfew
  · have hne : (count : ℝ) ≠ 0 := by exact_mod_cast hcount.ne'
    rw [Finset.sum_const, Finset.card_range, nsmul_eq_mul, mul_one_div_cancel hne]
  · have hsize : averageWindow ≤ count := not_lt.mp hfew
    have hpos : 0 < averageWindow * (count + 1 - averageWindow) :=
      Nat.mul_pos (by decide) (by omega)
    rw [← Finset.sum_div, sum_windowsOver hsize]
    exact div_self (by exact_mod_cast hpos.ne')

/-- Places that mirror each other have the same weight. -/
theorem averageWeight_reflect (hi : i < count) :
    averageWeight count (count - 1 - i) = averageWeight count i := by
  rw [averageWeight, averageWeight, windowsOver_reflect hi]

/-- The weights of at least six values. -/
theorem averageWeight_of_many (hcount : 6 ≤ count) (i : ℕ) :
    averageWeight count i =
      (min (min (i + 1) (count - i)) (min 6 (count - 5)) : ℕ) / (6 * (count - 5) : ℕ) := by
  have hmany : ¬ count < averageWindow := not_lt.mpr hcount
  rw [averageWeight, if_neg hmany, Nat.cast_mul]
  rfl

/-! ## The average -/

/-- The mean of values in exact arithmetic. -/
theorem mean_eq (values : List ℝ) : mean values = values.sum / values.length := by
  rw [mean, Exact.sum_eq, Exact.ofNat_eq]

/-- The mean of the means of all windows has the sums over the windows. -/
theorem mean_windows (hsize : size ≤ values.length) :
    mean ((windows size values).map mean) =
      ((windows size values).map List.sum).sum / (size * (values.length + 1 - size : ℕ)) := by
  have hmeans : (windows size values).map mean =
      (windows size values).map fun window => window.sum * (size : ℝ)⁻¹ := by
    refine List.map_congr_left fun window hwindow => ?_
    obtain ⟨start, hstart, rfl⟩ := List.mem_map.mp hwindow
    have hstart' := List.mem_range.mp hstart
    have hlength : ((values.drop start).take size).length = size := by simp; omega
    rw [mean_eq, hlength, div_eq_mul_inv]
  have hcount : (windows size values).length = values.length + 1 - size := by simp [windows]
  rw [mean_eq, List.length_map, hcount, hmeans, List.sum_map_mul_right, ← div_eq_mul_inv, div_div]

/-- The frequencies of the frames that have one, in order. -/
noncomputable def voicedFrequencies (frames : List (Frame ℝ)) : List ℝ :=
  (frames.map Frame.frequency).filter (0 < ·)

/-- The voiced frames are those with a frequency. -/
theorem map_filter_isVoiced (frames : List (Frame ℝ)) :
    (frames.filter Frame.isVoiced).map Frame.frequency = voicedFrequencies frames := by
  rw [voicedFrequencies, List.filter_map]
  congr 1
  refine List.filter_congr fun frame _ => decide_eq_decide.mpr ?_
  rw [Exact.zero_eq]

/-- Only the frequencies of the voiced frames decide the average. -/
theorem frameAverage_congr {frames other : List (Frame ℝ)}
    (h : voicedFrequencies other = voicedFrequencies frames) :
    frameAverage other = frameAverage frames := by
  rw [frameAverage, frameAverage, map_filter_isVoiced, map_filter_isVoiced, h]

/-- Fewer voiced frequencies than a window are averaged alike. -/
theorem frameAverage_of_few (hfew : (voicedFrequencies frames).length < averageWindow) :
    frameAverage frames =
      (voicedFrequencies frames).sum / (voicedFrequencies frames).length := by
  rw [frameAverage, map_filter_isVoiced]
  split_ifs with hnone
  · rw [List.isEmpty_iff.mp hnone, Exact.zero_eq]
    simp
  · exact mean_eq _

/-- At least as many voiced frequencies as a window are averaged over the windows. -/
theorem frameAverage_of_many (hmany : averageWindow ≤ (voicedFrequencies frames).length) :
    frameAverage frames = ((windows averageWindow (voicedFrequencies frames)).map List.sum).sum /
      (averageWindow * ((voicedFrequencies frames).length + 1 - averageWindow : ℕ)) := by
  have hsome : ¬ (voicedFrequencies frames).isEmpty = true := by
    rw [List.isEmpty_iff_length_eq_zero]
    exact (Nat.lt_of_lt_of_le (by decide) hmany).ne'
  rw [frameAverage, map_filter_isVoiced]
  rw [if_neg hsome, if_neg (not_lt.mpr hmany), mean_windows hmany]

/-- The average is a weighted mean of the voiced frequencies. -/
theorem frameAverage_eq_sum (frames : List (Frame ℝ)) :
    frameAverage frames = ∑ i ∈ Finset.range (voicedFrequencies frames).length,
      averageWeight (voicedFrequencies frames).length i * (voicedFrequencies frames).getD i 0 := by
  rcases lt_or_ge (voicedFrequencies frames).length averageWindow with hfew | hmany
  · rw [frameAverage_of_few hfew, sum_eq_sum_range, Finset.sum_div]
    refine Finset.sum_congr rfl fun i _ => ?_
    rw [averageWeight, if_pos hfew]
    ring
  · rw [frameAverage_of_many hmany, sum_windows hmany, Finset.sum_div]
    refine Finset.sum_congr rfl fun i _ => ?_
    rw [averageWeight, if_neg (not_lt.mpr hmany)]
    ring

/-- The voiced frequencies of one list of frames after another. -/
@[simp] theorem voicedFrequencies_append (front back : List (Frame ℝ)) :
    voicedFrequencies (front ++ back) = voicedFrequencies front ++ voicedFrequencies back := by
  simp [voicedFrequencies]

/-- Frames without a frequency have none. -/
theorem voicedFrequencies_unvoiced (h : ∀ frame ∈ frames, ¬ 0 < frame.frequency) :
    voicedFrequencies frames = [] := by
  simpa [voicedFrequencies, List.filter_eq_nil_iff] using h

/-- The average does not leave the range of the voiced frequencies. -/
theorem frameAverage_between (hsome : voicedFrequencies frames ≠ []) {low high : ℝ}
    (h : ∀ value ∈ voicedFrequencies frames, low ≤ value ∧ value ≤ high) :
    low ≤ frameAverage frames ∧ frameAverage frames ≤ high := by
  rw [frameAverage_eq_sum]
  refine (convex_Icc low high).sum_mem (fun i _ => averageWeight_nonneg _ i)
    (sum_averageWeight (List.length_pos_iff.mpr hsome)) fun i hi => ?_
  rw [List.getD_eq_getElem _ _ (Finset.mem_range.mp hi)]
  exact h _ (List.getElem_mem _)

/-- The average does not depend on the direction of time. -/
theorem frameAverage_reverse (frames : List (Frame ℝ)) :
    frameAverage frames.reverse = frameAverage frames := by
  have hvoiced : voicedFrequencies frames.reverse = (voicedFrequencies frames).reverse := by
    simp [voicedFrequencies]
  rw [frameAverage_eq_sum, frameAverage_eq_sum, hvoiced, List.length_reverse,
    ← Finset.sum_range_reflect]
  refine Finset.sum_congr rfl fun i hi => ?_
  have hi' := Finset.mem_range.mp hi
  rw [averageWeight_reflect hi', List.getD_reverse _ (by omega)]
  congr 2
  omega

/-- How the average of frames comes from the frequencies of the voiced ones. -/
structure Weighed (frames : List (Frame ℝ)) : Prop where
  /-- Other frames with these voiced frequencies have the same average. -/
  voiced : ∀ other, voicedFrequencies other = voicedFrequencies frames →
    frameAverage other = frameAverage frames
  /-- In particular, frames without a frequency may be put in anywhere, and be left out. -/
  unvoiced : ∀ front middle back : List (Frame ℝ), frames = front ++ back →
    (∀ frame ∈ middle, ¬ 0 < frame.frequency) →
    frameAverage (front ++ middle ++ back) = frameAverage frames
  /-- Without a voiced frame the average is zero. -/
  none : voicedFrequencies frames = [] → frameAverage frames = 0
  /-- Fewer than six voiced frequencies have their mean as average. -/
  few : 0 < (voicedFrequencies frames).length → (voicedFrequencies frames).length < 6 →
    frameAverage frames = (voicedFrequencies frames).sum / (voicedFrequencies frames).length
  /-- At least six are weighed by the number of runs of six that they are in. -/
  many : 6 ≤ (voicedFrequencies frames).length →
    let count := (voicedFrequencies frames).length
    frameAverage frames = ∑ i : Fin count, (voicedFrequencies frames)[i] *
      (min (min (i + 1) (count - i)) (min 6 (count - 5)) : ℕ) / (6 * (count - 5) : ℕ)
  /-- These weights are one together. -/
  weights : ∀ count : ℕ, 6 ≤ count →
    ∑ i : Fin count, ((min (min (i + 1) (count - i)) (min 6 (count - 5)) : ℕ) : ℝ) /
      (6 * (count - 5) : ℕ) = 1
  /-- The average lies between the smallest and the largest voiced frequency. -/
  between : voicedFrequencies frames ≠ [] → ∀ low high : ℝ,
    (∀ value ∈ voicedFrequencies frames, low ≤ value ∧ value ≤ high) →
    low ≤ frameAverage frames ∧ frameAverage frames ≤ high
  /-- Where all voiced frequencies are the same, it is this one. -/
  constant : voicedFrequencies frames ≠ [] → ∀ value : ℝ,
    (∀ value' ∈ voicedFrequencies frames, value' = value) → frameAverage frames = value
  /-- It stays the same if the frames are reversed. -/
  reversed : frameAverage frames.reverse = frameAverage frames

/-- In exact arithmetic the average of frames is a fixed weighting of the voiced frequencies. Frames
that are not voiced have no part in it. Fewer than six voiced frequencies have equal weights. Of
more, those at the edges weigh less, as they are in fewer of the runs of six. The weights are not
negative and one together, so the average lies among the voiced frequencies, and they are the same
from both ends. -/
theorem average_weighs_voiced (frames : List (Frame ℝ)) : Weighed frames where
  voiced other := frameAverage_congr
  unvoiced front middle back hframes hmiddle := by
    refine frameAverage_congr ?_
    rw [hframes]
    simp [voicedFrequencies_unvoiced hmiddle]
  none hnone := by
    rw [frameAverage_eq_sum, hnone]
    simp
  few _ := frameAverage_of_few
  many hmany := by
    intro count
    rw [frameAverage_eq_sum, Finset.sum_range]
    refine Finset.sum_congr rfl fun i _ => ?_
    rw [averageWeight_of_many hmany, List.getD_eq_getElem _ _ i.isLt]
    show _ = (voicedFrequencies frames)[i.val] * _ / _
    ring
  weights count hcount := by
    have hpos : 0 < count := by omega
    have hsum := sum_averageWeight hpos
    rw [Finset.sum_range] at hsum
    simpa only [averageWeight_of_many hcount] using hsum
  between hsome low high := frameAverage_between hsome
  constant hsome value hvalue := by
    obtain ⟨hlow, hhigh⟩ := frameAverage_between hsome fun value' hvalue' =>
      ⟨(hvalue value' hvalue').ge, (hvalue value' hvalue').le⟩
    exact le_antisymm hhigh hlow
  reversed := frameAverage_reverse frames

end SingingVoice.Frq
