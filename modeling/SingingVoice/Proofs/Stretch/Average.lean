import Mathlib
import SingingVoice.Proofs.Stretch.Grains

/-!
# Stretching as averaging

In exact arithmetic every sample of a segment that is stretched with grains is an average of samples
of the same channel (`stretch_averages`). The share of each frame of the input is decided by the
numbers of frames alone. No share is negative and together they are one, since every frame of the
result is covered by a grain and no grain has a weight of zero (`weight_pos`, `coverage_pos`).
-/

namespace SingingVoice.Stretch

variable {frames target grain frame : Nat}

/-! ## Weights -/

/-- In exact arithmetic no frame of a grain has a weight of zero. -/
theorem weight_pos {i : Nat} (hi : i < grain) : 0 < (weight grain i : ℝ) := by
  have hgrain : (0 : ℝ) < grain := by exact_mod_cast Nat.zero_lt_of_lt hi
  have hphase : ((i : ℝ) + 1 / 2) / grain < 1 := by
    have hle : (i : ℝ) + 1 ≤ grain := by exact_mod_cast hi
    rw [div_lt_one hgrain]
    linarith
  have hphase' : 0 < ((i : ℝ) + 1 / 2) / grain := by positivity
  have hangle : weight grain i =
      (1 / 2 - 1 / 2 * Real.cos (2 * Real.pi * (((i : ℝ) + 1 / 2) / grain)) : ℝ) := by
    show (0.5 - 0.5 * Real.cos (2.0 * Real.pi * (((i : ℝ) + 0.5) / grain)) : ℝ) = _
    norm_num
  have hcos : Real.cos (2 * Real.pi * (((i : ℝ) + 1 / 2) / grain)) < 1 := by
    refine lt_of_le_of_ne (Real.cos_le_one _) fun hone => ?_
    have hpi := Real.pi_pos
    rw [Real.cos_eq_one_iff_of_lt_of_lt (by nlinarith) (by nlinarith)] at hone
    have hpos : 0 < 2 * Real.pi * (((i : ℝ) + 1 / 2) / grain) := by positivity
    exact hpos.ne' hone
  rw [hangle]
  linarith

/-- The weight that a grain has at a frame of the result. -/
noncomputable def weightAt (grain frame k : Nat) : ℝ :=
  weight grain (frame - k * (grain / 2))

/-- The weights of the grains that cover a frame together. -/
noncomputable def coverage (grain frame : Nat) : ℝ :=
  ((covering grain (grain / 2) frame).map (weightAt grain frame)).sum

/-- Grains that cover a frame have a positive weight there. -/
theorem weightAt_pos (hhop : 0 < grain / 2) {k : Nat} (hk : k ∈ covering grain (grain / 2) frame) :
    0 < weightAt grain frame k := by
  rw [mem_covering hhop] at hk
  exact weight_pos (by omega)

/-- Every frame is covered with a positive weight. -/
theorem coverage_pos (hhop : 0 < grain / 2) : 0 < coverage grain frame := by
  refine List.sum_pos _ ?_ ?_
  · intro w hw
    obtain ⟨k, hk, rfl⟩ := List.mem_map.mp hw
    exact weightAt_pos hhop hk
  · rw [ne_eq, List.map_eq_nil_iff]
    exact covering_ne_nil hhop (Nat.div_le_self _ _)

/-! ## Shares -/

/-- The share that a frame of the input has in a frame of the result. -/
noncomputable def share (frames target grain frame source : Nat) : ℝ :=
  ((covering grain (grain / 2) frame).map fun k =>
    if sourceFrame ℝ frames target grain frame k = source then weightAt grain frame k else 0).sum /
      coverage grain frame

/-- No share is negative. -/
theorem share_nonneg (hhop : 0 < grain / 2) (source : Nat) :
    0 ≤ share frames target grain frame source := by
  refine div_nonneg (List.sum_nonneg ?_) (coverage_pos hhop).le
  intro w hw
  obtain ⟨k, hk, rfl⟩ := List.mem_map.mp hw
  split
  · exact (weightAt_pos hhop hk).le
  · exact le_rfl

/-- A sum over grains of what they bring from their frames of the input is one over these frames. -/
theorem sum_by_source {grains : List Nat} {source : Nat → Nat} (w x : Nat → ℝ)
    (hsource : ∀ k ∈ grains, source k < frames) :
    (grains.map fun k => x (source k) * w k).sum =
      ∑ i ∈ Finset.range frames,
        (grains.map fun k => if source k = i then w k else 0).sum * x i := by
  induction grains with
  | nil => simp
  | cons k rest ih =>
      have hk : source k ∈ Finset.range frames := Finset.mem_range.mpr (hsource k List.mem_cons_self)
      have hrest := ih fun k' hk' => hsource k' (List.mem_cons_of_mem k hk')
      simp only [List.map_cons, List.sum_cons, add_mul, Finset.sum_add_distrib, ite_mul, zero_mul,
        Finset.sum_ite_eq, hk, if_true, hrest]
      ring

/-- What the grains that cover a frame bring to it, divided by their weights, is an average. -/
theorem sum_div_coverage (hhop : 0 < grain / 2) (hgrain : grain ≤ frames) (x : Nat → ℝ) :
    ((covering grain (grain / 2) frame).map fun k =>
        x (sourceFrame ℝ frames target grain frame k) * weightAt grain frame k).sum /
          coverage grain frame =
      ∑ source ∈ Finset.range frames, share frames target grain frame source * x source := by
  rw [sum_by_source _ _ fun k hk => sourceFrame_lt hgrain hhop hk, Finset.sum_div]
  refine Finset.sum_congr rfl fun source _ => ?_
  rw [share]
  ring

/-- The shares of all frames of the input are one together. -/
theorem sum_share (hhop : 0 < grain / 2) (hgrain : grain ≤ frames) :
    ∑ source ∈ Finset.range frames, share frames target grain frame source = 1 := by
  have h : _ = ∑ source ∈ Finset.range frames, share frames target grain frame source * 1 :=
    sum_div_coverage hhop hgrain fun _ => 1
  simp only [one_mul, mul_one] at h
  rw [← h]
  exact div_self (coverage_pos hhop).ne'

/-- An average by shares does not leave the range of what is averaged. -/
theorem sum_share_between (hhop : 0 < grain / 2) (hgrain : grain ≤ frames) {x : Nat → ℝ}
    {low high : ℝ} (hx : ∀ source < frames, low ≤ x source ∧ x source ≤ high) :
    let average := ∑ source ∈ Finset.range frames, share frames target grain frame source * x source
    low ≤ average ∧ average ≤ high :=
  (convex_Icc low high).sum_mem (fun source _ => share_nonneg hhop source) (sum_share hhop hgrain)
    fun source hsource => hx source (Finset.mem_range.mp hsource)

/-- The average by shares of what is the same everywhere is the same. -/
theorem sum_share_constant (hhop : 0 < grain / 2) (hgrain : grain ≤ frames) {x : Nat → ℝ} {y : ℝ}
    (hx : ∀ source < frames, x source = y) :
    ∑ source ∈ Finset.range frames, share frames target grain frame source * x source = y := by
  obtain ⟨hlow, hhigh⟩ := sum_share_between hhop hgrain fun source hsource =>
    ⟨(hx source hsource).ge, (hx source hsource).le⟩
  exact le_antisymm hhigh hlow

/-! ## Stretched samples -/

/-- Grains added up in exact arithmetic. -/
theorem gathered_eq (segment : Segment ℝ) (target grain : Nat) (grains : List Nat)
    (frame channel : Nat) :
    gathered segment target grain grains frame channel =
      ((grains.map fun k =>
          segment.sample (sourceFrame ℝ segment.frames target grain frame k) channel *
            weightAt grain frame k).sum,
        (grains.map (weightAt grain frame)).sum) := by
  have hrun : ∀ total sum : ℝ, grains.foldl
      (fun (total, sum) k =>
        let w := weight grain (frame - k * (grain / 2))
        (total + segment.sample (sourceFrame ℝ segment.frames target grain frame k) channel * w,
          sum + w))
      (total, sum) =
        (total + (grains.map fun k =>
            segment.sample (sourceFrame ℝ segment.frames target grain frame k) channel *
              weightAt grain frame k).sum,
          sum + (grains.map (weightAt grain frame)).sum) := by
    induction grains with
    | nil => simp
    | cons k rest ih =>
        intro total sum
        rw [List.foldl_cons, ih, List.map_cons, List.map_cons, List.sum_cons, List.sum_cons,
          ← add_assoc, ← add_assoc]
        rfl
  rw [gathered, hrun, Exact.zero_eq, zero_add, zero_add]

/-- A sample of a segment stretched with grains is an average of the samples of its channel. -/
theorem sample_ola_eq_sum (segment : Segment ℝ) (hhop : 0 < grain / 2)
    (hgrain : grain ≤ segment.frames) {channel : Nat} (hframe : frame < target)
    (hchannel : channel < segment.format.frameSize) :
    (ola segment target grain).sample frame channel =
      ∑ source ∈ Finset.range segment.frames,
        share segment.frames target grain frame source * segment.sample source channel := by
  have hsums := gathered_eq segment target grain (covering grain (grain / 2) frame) frame channel
  -- the weights are positive together, so no division is left out
  have hcoverage : 0 < (gathered segment target grain (covering grain (grain / 2) frame) frame
      channel).2 := by
    rw [hsums]
    exact coverage_pos hhop
  rw [sample_ola segment hhop hframe hchannel, normalized, Exact.zero_eq, if_pos hcoverage, hsums]
  exact sum_div_coverage hhop hgrain fun source => segment.sample source channel

/-- In exact arithmetic a segment that is stretched with grains, which is one of at least a grain
brought to another number of frames, is an average of itself. The weights in a grain are positive.
Every frame of the result is covered by a grain, so the weights there are positive together. Each
frame of the input has a share in it, none of them negative and all together one, which depends on
no sample, and the samples of every channel are averaged by these shares. So no sample leaves the
range of its channel, a constant channel stays as it is, and no channel depends on another. -/
theorem stretch_averages {segment : Segment ℝ} {ms : ℝ} (htarget : 0 < segment.format.framesIn ms)
    (hchanged : segment.format.framesIn ms ≠ segment.frames)
    (hgrain : grainFrames (α := ℝ) segment.format ≤ segment.frames) :
    let target := segment.format.framesIn ms
    let grain := grainFrames (α := ℝ) segment.format
    let result := segment.stretch ms .ola
    (∀ i < grain, 0 < (weight grain i : ℝ)) ∧ result.frames = target ∧ ∀ frame < target,
      (∃ k, k * (grain / 2) ≤ frame ∧ frame < k * (grain / 2) + grain) ∧ 0 < coverage grain frame ∧
      (∀ source < segment.frames, 0 ≤ share segment.frames target grain frame source) ∧
      ∑ source ∈ Finset.range segment.frames, share segment.frames target grain frame source = 1 ∧
      ∀ channel < segment.format.frameSize,
        result.sample frame channel = ∑ source ∈ Finset.range segment.frames,
          share segment.frames target grain frame source * segment.sample source channel ∧
        (∀ low high : ℝ, (∀ source < segment.frames,
            low ≤ segment.sample source channel ∧ segment.sample source channel ≤ high) →
          low ≤ result.sample frame channel ∧ result.sample frame channel ≤ high) ∧
        (∀ x : ℝ, (∀ source < segment.frames, segment.sample source channel = x) →
          result.sample frame channel = x) ∧
        ∀ other : Segment ℝ, other.format = segment.format → other.frames = segment.frames →
          (∀ source < segment.frames,
            other.sample source channel = segment.sample source channel) →
          (other.stretch ms .ola).sample frame channel = result.sample frame channel := by
  intro target grain result
  have hhop : 0 < grain / 2 := Nat.div_pos (two_le_grainFrames _) Nat.two_pos
  have hresult : result = ola segment target grain := stretch_eq_ola htarget hchanged hgrain
  refine ⟨fun i => weight_pos, ?_, ?_⟩
  · rw [hresult]
    exact Segment.frames_of_size (size_ola segment target grain)
  · intro frame hframe
    refine ⟨?_, coverage_pos hhop, fun source _ => share_nonneg hhop source,
      sum_share hhop hgrain, ?_⟩
    · obtain ⟨k, hk⟩ := List.exists_mem_of_ne_nil _ (covering_ne_nil hhop (Nat.div_le_self grain 2))
      exact ⟨k, (mem_covering hhop).mp hk⟩
    · intro channel hchannel
      have hsample := sample_ola_eq_sum segment hhop hgrain hframe hchannel
      rw [← hresult] at hsample
      refine ⟨hsample, ?_, ?_, ?_⟩
      · intro low high hinput
        rw [hsample]
        exact sum_share_between hhop hgrain hinput
      · intro x hinput
        rw [hsample]
        exact sum_share_constant hhop hgrain hinput
      · intro other hformat hframes hinput
        exact sample_stretch_congr htarget hchanged hgrain hformat hframes hchannel hinput hframe

/-- Three stereo frames are stretched to five. The left channel stays between zero and two, and the
right one, which is constantly one, stays so. -/
theorem constant_channel_kept :
    let segment : Segment ℝ := ⟨#[0, 1, 2, 1, 1, 1], ⟨50, .stereo⟩⟩
    0 < segment.format.framesIn (100 : ℝ) ∧
    segment.format.framesIn (100 : ℝ) ≠ segment.frames ∧
    grainFrames (α := ℝ) segment.format ≤ segment.frames ∧
    (segment.stretch 100 .ola).frames = 5 ∧
    ∀ frame < 5, 0 ≤ (segment.stretch 100 .ola).sample frame 0 ∧
      (segment.stretch 100 .ola).sample frame 0 ≤ 2 ∧
      (segment.stretch 100 .ola).sample frame 1 = 1 := by
  intro segment
  have hframes : segment.frames = 3 := Segment.frames_of_size rfl
  have htarget : segment.format.framesIn (100 : ℝ) = 5 := by
    rw [Format.framesIn_eq_floor]
    norm_num [segment, Nat.floor_eq_iff]
  have hpos : 0 < segment.format.framesIn (100 : ℝ) := by omega
  have hchanged : segment.format.framesIn (100 : ℝ) ≠ segment.frames := by omega
  have hgrain : grainFrames (α := ℝ) segment.format ≤ segment.frames := by
    rw [hframes]
    exact (grainFrames_of_fifty .stereo).trans_le (by decide)
  obtain ⟨-, hlength, hsamples⟩ := stretch_averages hpos hchanged hgrain
  rw [htarget] at hlength hsamples
  refine ⟨hpos, hchanged, hgrain, hlength, fun frame hframe => ?_⟩
  obtain ⟨-, -, -, -, hchannels⟩ := hsamples frame hframe
  obtain ⟨-, hbetween, -⟩ := hchannels 0 (by decide)
  obtain ⟨-, -, hconstant, -⟩ := hchannels 1 (by decide)
  have hleft := hbetween 0 2 fun source hsource => by
    rw [hframes] at hsource
    interval_cases source <;> norm_num [segment, Segment.sample, Format.frameSize, Channels.count]
  refine ⟨hleft.1, hleft.2, hconstant 1 fun source hsource => ?_⟩
  rw [hframes] at hsource
  interval_cases source <;> norm_num [segment, Segment.sample, Format.frameSize, Channels.count]

end SingingVoice.Stretch
