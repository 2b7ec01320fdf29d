import Mathlib
import SingingVoice.Proofs.Segment.Fading
import SingingVoice.Stretch

/-!
# Grains

Which grains cover a frame of a stretched segment, and where they are read. A grain is read within
the input (`sourceFrame_lt`), every frame is covered (`covering_ne_nil`), and a sample of the result
is made of the grains that cover its frame (`sample_ola`).
-/

namespace SingingVoice.Stretch

variable {α : Type} [Scalar α] {frames target grain hop frame k : Nat}

/-- A grain has at least two frames. -/
theorem two_le_grainFrames (format : Format) : 2 ≤ grainFrames (α := α) format :=
  Nat.le_max_right _ _

/-- At fifty frames per second a grain has two frames. -/
theorem grainFrames_of_fifty (channels : Channels) :
    grainFrames (α := ℝ) ⟨50, channels⟩ = 2 := by
  have hframes : Format.framesIn ⟨50, channels⟩ (grainLength : ℝ) = 2 := by
    rw [Format.framesIn_eq_floor]
    norm_num [grainLength, Nat.floor_eq_iff]
  rw [grainFrames, hframes]
  rfl

/-! ## Covering grains -/

/-- The grains that cover a frame begin no later than it and end after it. -/
theorem mem_covering (hhop : 0 < hop) :
    k ∈ covering grain hop frame ↔ k * hop ≤ frame ∧ frame < k * hop + grain := by
  have hlast : k < frame / hop + 1 ↔ k * hop ≤ frame := by
    rw [Nat.lt_succ_iff, Nat.le_div_iff_mul_le hhop]
  have hfirst : (frame + hop - grain) / hop ≤ k ↔ frame < k * hop + grain := by
    rw [← Nat.lt_succ_iff, Nat.div_lt_iff_lt_mul hhop, Nat.succ_mul]
    omega
  have hle : (frame + hop - grain) / hop ≤ frame / hop + 1 := by
    rw [← Nat.add_div_right frame hhop]
    exact Nat.div_le_div_right (Nat.sub_le _ _)
  rw [covering, List.mem_range'_1, Nat.add_sub_cancel' hle, hlast, hfirst]
  exact and_comm

/-- If grains do not begin further apart than they are long, every frame is covered. -/
theorem covering_ne_nil (hhop : 0 < hop) (hgrain : hop ≤ grain) :
    covering grain hop frame ≠ [] := by
  have hmem : frame / hop ∈ covering grain hop frame := by
    rw [mem_covering hhop]
    have hbegin := Nat.div_mul_le_self frame hop
    have hend : frame < frame / hop * hop + hop := Nat.lt_div_mul_add hhop
    omega
  exact List.ne_nil_of_mem hmem

/-- The grains that cover a frame are those among enough of them that begin no later than it and end
after it. -/
theorem filter_covering (grain : Nat) {count : Nat} (hhop : 0 < hop)
    (hframe : frame < count * hop) :
    (List.range count).filter (fun k => k * hop ≤ frame ∧ frame < k * hop + grain) =
      covering grain hop frame := by
  refine List.Pairwise.eq_of_mem_iff (r := (· < ·)) (List.pairwise_lt_range.filter _)
    (List.sortedLT_range' _ _ Nat.one_ne_zero).pairwise fun k => ?_
  rw [List.mem_filter, List.mem_range, decide_eq_true_eq, mem_covering hhop]
  refine ⟨And.right, fun h => ⟨?_, h⟩⟩
  exact Nat.lt_of_mul_lt_mul_right (Nat.lt_of_le_of_lt h.1 hframe)

/-! ## Where grains are read -/

variable (α) in
/-- The frame of the input that a grain brings to a frame of the result. -/
def sourceFrame (frames target grain frame k : Nat) : Nat :=
  readPosition (α := α) frames target grain (k * (grain / 2)) + (frame - k * (grain / 2))

/-- A grain is read so that it ends with the input at the latest. -/
theorem readPosition_add_lt (hgrain : grain ≤ frames) (position : Nat) {i : Nat} (hi : i < grain) :
    readPosition (α := α) frames target grain position + i < frames := by
  have hle : readPosition (α := α) frames target grain position ≤ frames - grain :=
    Nat.min_le_right _ _
  omega

/-- A grain brings a frame of the input to each frame that it covers. -/
theorem sourceFrame_lt (hgrain : grain ≤ frames) (hhop : 0 < grain / 2)
    (hk : k ∈ covering grain (grain / 2) frame) :
    sourceFrame α frames target grain frame k < frames := by
  rw [mem_covering hhop] at hk
  exact readPosition_add_lt hgrain _ (by omega)

/-! ## Samples -/

/-- Grains added up at a frame and a channel of the result: their samples times their weights, and
their weights. -/
def gathered (segment : Segment α) (target grain : Nat) (grains : List Nat) (frame channel : Nat) :
    α × α :=
  grains.foldl
    (fun (total, sum) k =>
      let w := weight grain (frame - k * (grain / 2))
      (total + segment.sample (sourceFrame α segment.frames target grain frame k) channel * w,
        sum + w))
    (0.0, 0.0)

/-- What grains have added up to, divided by their weights if these are positive. -/
def normalized (sums : α × α) : α :=
  if (0.0 : α) < sums.2 then sums.1 / sums.2 else sums.1

/-- The samples of a segment stretched with grains, one after another. -/
theorem ola_eq (segment : Segment α) (target grain : Nat) :
    ola segment target grain =
      ⟨Array.ofFn fun i : Fin (target * segment.format.frameSize) =>
        olaSample segment target grain (Array.ofFn fun i : Fin grain => weight grain i.val)
          (i.val / segment.format.frameSize) (i.val % segment.format.frameSize), segment.format⟩ :=
  Segment.ofSamples_of_size Array.size_ofFn

/-- The number of samples of a segment stretched with grains. -/
theorem size_ola (segment : Segment α) (target grain : Nat) :
    (ola segment target grain).samples.size = target * segment.format.frameSize := by
  rw [ola_eq]
  exact Array.size_ofFn

/-- A sample of a stretched segment is that of the grains that cover its frame, added up and divided
by their weights. -/
theorem olaSample_eq (segment : Segment α) (hhop : 0 < grain / 2) (frame channel : Nat) :
    olaSample segment target grain (Array.ofFn fun i : Fin grain => weight grain i.val) frame
        channel =
      normalized
        (gathered segment target grain (covering grain (grain / 2) frame) frame channel) := by
  have hsums : (covering grain (grain / 2) frame).foldl
      (fun (sums : α × α) k =>
        let inside := frame - k * (grain / 2)
        let source := readPosition (α := α) segment.frames target grain (k * (grain / 2)) + inside
        let w := (Array.ofFn fun i : Fin grain => weight grain i.val).getD inside 0.0
        (sums.1 + segment.samples.getD (source * segment.format.frameSize + channel) 0.0 * w,
          sums.2 + w))
      (0.0, 0.0) =
        gathered segment target grain (covering grain (grain / 2) frame) frame channel := by
    refine List.foldl_ext _ _ _ fun sums k hk => ?_
    rw [mem_covering hhop] at hk
    have hinside : frame - k * (grain / 2) < grain := by omega
    have hweight : (Array.ofFn fun i : Fin grain => (weight grain i.val : α)).getD
        (frame - k * (grain / 2)) 0.0 = weight grain (frame - k * (grain / 2)) := by
      simp [Array.getD_eq_getD_getElem?, hinside]
    simp only [hweight]
    rfl
  exact congrArg normalized hsums

/-- The samples of a segment stretched with grains. -/
theorem sample_ola (segment : Segment α) (hhop : 0 < grain / 2) {channel : Nat}
    (hframe : frame < target) (hchannel : channel < segment.format.frameSize) :
    (ola segment target grain).sample frame channel =
      normalized
        (gathered segment target grain (covering grain (grain / 2) frame) frame channel) := by
  have hplace : frame * segment.format.frameSize + channel < target * segment.format.frameSize :=
    (frame_index_lt_iff hchannel).mpr hframe
  have hchannel' : (frame * segment.format.frameSize + channel) % segment.format.frameSize =
      channel := by
    rw [Nat.mul_add_mod', Nat.mod_eq_of_lt hchannel]
  rw [← olaSample_eq segment hhop, ola_eq]
  simp only [Segment.sample, Array.getD_eq_getD_getElem?, Array.getElem?_ofFn, hplace,
    ↓reduceDIte, Option.getD_some, Segment.frame_of_place hchannel, hchannel']

/-- Segments of one length that agree in a channel are stretched to segments that agree in it. -/
theorem sample_ola_congr {segment other : Segment α} (hformat : other.format = segment.format)
    (hframes : other.frames = segment.frames) (hhop : 0 < grain / 2)
    (hgrain : grain ≤ segment.frames) {channel : Nat} (hchannel : channel < segment.format.frameSize)
    (hinput : ∀ source < segment.frames,
      other.sample source channel = segment.sample source channel)
    (hframe : frame < target) :
    (ola other target grain).sample frame channel =
      (ola segment target grain).sample frame channel := by
  rw [sample_ola segment hhop hframe hchannel,
    sample_ola other hhop hframe (hformat.symm ▸ hchannel)]
  refine congrArg normalized (List.foldl_ext _ _ _ fun sums k hk => ?_)
  rw [hframes, hinput _ (sourceFrame_lt hgrain hhop hk)]

/-- A segment of at least a grain is stretched with grains to every number of frames but none and
its own. -/
theorem stretch_eq_ola {segment : Segment α} {ms : α}
    (htarget : 0 < segment.format.framesIn ms)
    (hchanged : segment.format.framesIn ms ≠ segment.frames)
    (hgrain : grainFrames (α := α) segment.format ≤ segment.frames) :
    segment.stretch ms .ola =
      ola segment (segment.format.framesIn ms) (grainFrames (α := α) segment.format) := by
  have htwo := two_le_grainFrames (α := α) segment.format
  have hempty : ¬ segment.isEmpty = true := by
    intro hempty
    have hsize : segment.samples.size = 0 := Array.isEmpty_iff_size_eq_zero.mp hempty
    have hframes : segment.frames = 0 := by rw [Segment.frames, hsize, Nat.zero_div]
    omega
  have hola : ¬ StretchMode.ola = .loop := by decide
  unfold Segment.stretch
  dsimp only
  rw [if_neg (by rw [not_or]; exact ⟨htarget.ne', hempty⟩), if_neg hchanged,
    if_neg (by rw [not_or]; exact ⟨hola, Nat.not_lt.mpr hgrain⟩)]

/-- Segments of one length that agree in a channel are stretched with grains to segments that agree
in it. -/
theorem sample_stretch_congr {segment other : Segment α} {ms : α}
    (htarget : 0 < segment.format.framesIn ms)
    (hchanged : segment.format.framesIn ms ≠ segment.frames)
    (hgrain : grainFrames (α := α) segment.format ≤ segment.frames)
    (hformat : other.format = segment.format) (hframes : other.frames = segment.frames)
    {channel : Nat} (hchannel : channel < segment.format.frameSize)
    (hinput : ∀ source < segment.frames,
      other.sample source channel = segment.sample source channel)
    (hframe : frame < segment.format.framesIn ms) :
    (other.stretch ms .ola).sample frame channel =
      (segment.stretch ms .ola).sample frame channel := by
  have hhop : 0 < grainFrames (α := α) segment.format / 2 :=
    Nat.div_pos (two_le_grainFrames _) Nat.two_pos
  have hother : other.stretch ms .ola =
      ola other (other.format.framesIn ms) (grainFrames (α := α) other.format) := by
    refine stretch_eq_ola ?_ ?_ ?_
    · rwa [hformat]
    · rwa [hformat, hframes]
    · rwa [hformat, hframes]
  rw [hother, stretch_eq_ola htarget hchanged hgrain, hformat]
  exact sample_ola_congr hformat hframes hhop hgrain hchannel hinput hframe

end SingingVoice.Stretch
