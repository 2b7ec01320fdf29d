import Mathlib
import SingingVoice.Proofs.Exact.Scalar
import SingingVoice.Proofs.Yin.Frames

/-!
# Normalised differences

The normalised differences of a frame, lag by lag: `normalizedAt` is the one at a lag, and
`getElem?_normalized` finds it in the array that the search looks at. In exact arithmetic amplitudes
and differences come from sums of squares, so that no normalised difference is negative
(`normalizedAt_nonneg`), and the range of lags from a quotient that is rounded outwards.
-/

namespace SingingVoice.Yin

/-! ## One lag -/

section Lags

variable {α : Type} [Scalar α]

/-- The differences at the lags from one up to `lag`, added up. -/
def accumulated (samples : Array α) (start window lag : Nat) : α :=
  lag.fold (fun i _ total => total + difference samples start window (i + 1)) 0.0

/-- The difference `d` at a lag, divided by the mean of the differences up to it. -/
def normalize (d total : α) (lag : Nat) : α :=
  if (0.0 : α) < total then d * Scalar.ofNat lag / total else 1.0

/-- The normalised difference at a lag. -/
def normalizedAt (samples : Array α) (start window lag : Nat) : α :=
  if lag = 0 then 1.0
  else normalize (difference samples start window lag) (accumulated samples start window lag) lag

variable {samples : Array α} {start window lag : Nat}

/-- One more difference is added up. -/
theorem accumulated_succ :
    accumulated samples start window (lag + 1) =
      accumulated samples start window lag + difference samples start window (lag + 1) :=
  Nat.fold_succ lag _ _

/-- Every difference is divided by the mean of those up to it. -/
theorem getElem?_normalizeFrom (differences : List α) (lag : Nat) (running : α) (i : Nat) :
    (normalizeFrom lag running differences)[i]? = differences[i]?.map fun d =>
      normalize d ((differences.take (i + 1)).foldl (· + ·) running) (lag + i) := by
  induction differences generalizing lag running i with
  | nil => rfl
  | cons d rest ih =>
      cases i with
      | zero => rfl
      | succ i =>
          have hlag : lag + 1 + i = lag + (i + 1) := by omega
          rw [normalizeFrom, List.getElem?_cons_succ, List.getElem?_cons_succ, ih, hlag]
          rfl

/-- The first differences as a list are added up like those at the lags. -/
theorem foldl_differences (count : Nat) :
    ((List.range count).map fun i => difference samples start window (i + 1)).foldl (· + ·) 0.0 =
      accumulated samples start window count := by
  induction count with
  | zero => rfl
  | succ count ih =>
      rw [List.range_succ, List.map_append, List.foldl_append, ih, accumulated_succ]
      rfl

/-- The values that are searched are the normalised differences at the lags up to the window. -/
theorem getElem?_normalized (samples : Array α) (start window lag : Nat) :
    (normalized samples start window)[lag]? =
      if lag ≤ window then some (normalizedAt samples start window lag) else none := by
  rw [normalized, List.getElem?_toArray]
  cases lag with
  | zero => rfl
  | succ i =>
      rw [List.getElem?_cons_succ, getElem?_normalizeFrom, List.getElem?_map, ← List.map_take,
        List.take_range, foldl_differences]
      split_ifs with hlag
      · have hmin : min (i + 1) window = i + 1 := min_eq_left hlag
        rw [List.getElem?_range hlag, hmin, Nat.add_comm 1 i]
        rfl
      · rw [List.getElem?_eq_none (by simpa using hlag)]
        rfl

/-- The value at a lag that is searched is the normalised difference there. -/
theorem getD_normalized (hlag : lag ≤ window) :
    (normalized samples start window).getD lag 0.0 = normalizedAt samples start window lag := by
  rw [Array.getD_eq_getD_getElem?, getElem?_normalized, if_pos hlag, Option.getD_some]

/-- There is a value for every lag up to the window. -/
@[simp] theorem size_normalized : (normalized samples start window).size = window + 1 := by
  refine Nat.le_antisymm (Array.getElem?_eq_none_iff.mp ?_) (Nat.lt_of_not_le fun hsize => ?_)
  · rw [getElem?_normalized, if_neg (Nat.not_succ_le_self window)]
  · have hnone := Array.getElem?_eq_none_iff.mpr hsize
    rw [getElem?_normalized, if_pos le_rfl] at hnone
    exact absurd hnone (Option.some_ne_none _)

end Lags

/-! ## Exact values -/

variable {samples : Array ℝ} {start window lag : ℕ}

/-- Numbers that are added up from zero are a sum. -/
theorem fold_eq_sum (count : ℕ) (f : ℕ → ℝ) :
    count.fold (fun i _ total => total + f i) (0.0 : ℝ) = ∑ i ∈ Finset.range count, f i := by
  induction count with
  | zero => exact Exact.zero_eq
  | succ count ih => rw [Nat.fold_succ, ih, Finset.sum_range_succ]

/-- The energy is the sum of the squares. -/
theorem energy_eq (samples : Array ℝ) (start count : ℕ) :
    energy samples start count =
      ∑ i ∈ Finset.range count, samples.getD (start + i) 0 ^ 2 := by
  rw [energy, fold_eq_sum]
  simp only [Exact.zero_eq, sq]

/-- The amplitude of a frame is the root of the mean of the squares. -/
theorem amplitudeAt_eq (samples : Array ℝ) (start count : ℕ) :
    amplitudeAt samples start count =
      √((∑ i ∈ Finset.range count, samples.getD (start + i) 0 ^ 2) / count) := by
  rw [amplitudeAt, energy_eq, Exact.ofNat_eq]
  rfl

/-- The difference at a lag is the sum of the squared distances. -/
theorem difference_eq (samples : Array ℝ) (start window lag : ℕ) :
    difference samples start window lag = ∑ i ∈ Finset.range window,
      (samples.getD (start + i) 0 - samples.getD (start + lag + i) 0) ^ 2 := by
  rw [difference, fold_eq_sum]
  simp only [Exact.zero_eq, sq]

/-- The differences up to a lag are added up without rounding. -/
theorem accumulated_eq (samples : Array ℝ) (start window lag : ℕ) :
    accumulated samples start window lag =
      ∑ i ∈ Finset.range lag, difference samples start window (i + 1) :=
  fold_eq_sum lag _

/-- No difference is negative. -/
theorem difference_nonneg : 0 ≤ difference samples start window lag := by
  rw [difference_eq]
  positivity

/-- The difference at a lag is zero exactly where all samples come back after the lag. -/
theorem difference_eq_zero_iff :
    difference samples start window lag = 0 ↔
      ∀ i < window, samples.getD (start + i) 0 = samples.getD (start + lag + i) 0 := by
  rw [difference_eq, Finset.sum_eq_zero_iff_of_nonneg fun i _ => sq_nonneg _]
  simp [sub_eq_zero]

/-- Differences together are at least as large as the first. -/
theorem difference_le_accumulated (hlag : 0 < lag) :
    difference samples start window 1 ≤ accumulated samples start window lag := by
  rw [accumulated_eq]
  exact Finset.single_le_sum (f := fun i => difference samples start window (i + 1))
    (fun i _ => difference_nonneg) (Finset.mem_range.mpr hlag)

/-- The exact normalised difference at a positive lag. -/
theorem normalizedAt_eq (hlag : 0 < lag) :
    normalizedAt samples start window lag =
      if 0 < accumulated samples start window lag then
        difference samples start window lag * lag / accumulated samples start window lag
      else 1 := by
  have hone : (1.0 : ℝ) = 1 := by norm_num
  rw [normalizedAt, if_neg hlag.ne', normalize, Exact.zero_eq, Exact.ofNat_eq, hone]

/-- No normalised difference is negative. -/
theorem normalizedAt_nonneg : 0 ≤ normalizedAt samples start window lag := by
  rcases Nat.eq_zero_or_pos lag with rfl | hlag
  · norm_num [normalizedAt]
  · rw [normalizedAt_eq hlag]
    have hdifference : 0 ≤ difference samples start window lag := difference_nonneg
    split_ifs <;> positivity

/-! ## The range of lags -/

/-- The least lag is that of the highest frequency, rounded down, but at least two. -/
theorem minLag_eq (yin : Yin ℝ) (sampleRate : ℕ) :
    yin.minLag sampleRate = max ⌊(sampleRate : ℝ) / yin.high⌋₊ 2 := by
  show max ⌊(⌊(sampleRate : ℝ) / yin.high⌋ : ℝ)⌋₊ 2 = _
  rw [← Int.floor_toNat, Int.floor_intCast, Int.floor_toNat]

/-- The lags end with that of the lowest frequency, rounded up. -/
theorem maxLag_eq (yin : Yin ℝ) (sampleRate : ℕ) :
    yin.maxLag sampleRate = ⌈(sampleRate : ℝ) / yin.low⌉₊ := by
  show ⌊(⌈(sampleRate : ℝ) / yin.low⌉ : ℝ)⌋₊ = _
  rw [← Int.floor_toNat, Int.floor_intCast, Int.ceil_toNat]

/-- A search begins at two samples or later. -/
theorem two_le_minLag (yin : Yin ℝ) (sampleRate : ℕ) : 2 ≤ yin.minLag sampleRate :=
  le_max_right _ _

/-! ## A range of one lag -/

/-- An analysis that at 600 samples per second looks at the lag of two samples only. -/
noncomputable def pairwise : Yin ℝ :=
  ⟨200, 300, 256, 0.75⟩

theorem minLag_pairwise : pairwise.minLag 600 = 2 := by
  rw [minLag_eq]
  norm_num [pairwise]

theorem maxLag_pairwise : pairwise.maxLag 600 = 3 := by
  rw [maxLag_eq]
  norm_num [pairwise]

/-- Samples that go up and down, as many as such an analysis compares. -/
noncomputable def alternation : Array ℝ :=
  #[1, -1, 1, -1, 1, -1]

theorem amplitudeAt_alternation : amplitudeAt alternation 0 3 = 1 := by
  rw [amplitudeAt_eq, ← Real.sqrt_one]
  congr 1
  norm_num [Finset.sum_range_succ, alternation]

/-- The full amplitude is not silent. -/
theorem silence_le_one : (silence : ℝ) ≤ 1 := by
  norm_num [silence]

end SingingVoice.Yin
