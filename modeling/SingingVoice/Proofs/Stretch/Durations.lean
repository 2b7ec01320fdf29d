import Mathlib
import SingingVoice.Proofs.Segment.Overlays
import SingingVoice.Proofs.Segment.Sizes
import SingingVoice.Proofs.Silence
import SingingVoice.Proofs.Stretch.OverlapAdd
import SingingVoice.Resampling.Sinc

/-!
# Durations of stretched segments

A segment is stretched to exactly the number of frames that is asked for, in its format, whichever
way this is done (`stretch_fills_duration`). If it is repeated, it is an overlay of silence with it,
in which its frames follow each other again and again (`sample_loopFill`).
-/

namespace SingingVoice

namespace Segment

variable {α : Type} [Scalar α] {segment : Segment α}

/-! ## Repeated segments -/

/-- A repeated segment is silence to which it has been added again and again. -/
theorem loopFill_eq (segment : Segment α) (ms : α) :
    segment.loopFill ms = (silence segment.format ms).mixedIn segment
      (Repetition.loop.positions 0 segment.frames (silence segment.format ms).frames) :=
  freeze_mixAll (whole_frames_silentFrames _ _) _

/-- A repeated segment fills the duration. -/
theorem size_loopFill (segment : Segment α) (ms : α) :
    (segment.loopFill ms).samples.size =
      segment.format.framesIn ms * (segment.loopFill ms).format.frameSize := by
  rw [loopFill_eq, size_mixedIn]
  exact Array.size_replicate

/-- A repeated segment keeps its format. -/
@[simp] theorem format_loopFill (segment : Segment α) (ms : α) :
    (segment.loopFill ms).format = segment.format := by
  rw [loopFill_eq]
  rfl

/-- The frames of a repeated segment follow each other again and again, added to silence. -/
theorem sample_loopFill (hwhole : segment.WholeFrames) (hframes : 0 < segment.frames) {ms : α}
    {frame channel : Nat} (hframe : frame < segment.format.framesIn ms)
    (hchannel : channel < segment.format.frameSize) :
    (segment.loopFill ms).sample frame channel =
      0.0 + segment.sample (frame % segment.frames) channel := by
  have hsilence : (silence segment.format ms).WholeFrames := whole_frames_silentFrames _ _
  have hformat : segment.format = (silence segment.format ms).format := rfl
  have hfits : Repetition.loop.Fits 0 segment.frames := nofun
  have hframe' : frame < (silence segment.format ms).frames := by
    rw [silence, frames_silentFrames]
    exact hframe
  have hsample := (overlaid_mixedIn hsilence hwhole hformat hfits).sample_eq hframes hframe' hchannel
  rw [if_pos ⟨Nat.zero_le _, trivial⟩, Nat.sub_zero, silence, sample_silentFrames] at hsample
  rw [loopFill_eq]
  exact hsample

/-- A repeated segment is the overlay of silence with it, if zero milliseconds last no frame. -/
theorem overlayRepeat_silence [Resampler α] (segment : Segment α) (ms : α)
    (hstart : segment.format.framesIn (0.0 : α) = 0) :
    (silence segment.format ms).overlayRepeat segment 0.0 .loop = .ok (segment.loopFill ms) := by
  have hconform : segment.conform (silence segment.format ms).format = .ok segment :=
    conform_self rfl
  have hstart' : (silence segment.format ms).format.framesIn (0.0 : α) = 0 := hstart
  rw [overlayRepeat, hconform, hstart']
  rfl

/-! ## Stretched segments -/

open Stretch in
/-- What is left of a segment that is stretched to a number of milliseconds. -/
structure Stretched [Resampler α] (segment : Segment α) (ms : α) (mode : StretchMode)
    (result : Segment α) : Prop where
  /-- It has the format of the segment. -/
  format : result.format = segment.format
  /-- It is made of whole frames. -/
  whole : result.WholeFrames
  /-- It is as long as asked. -/
  frames : result.frames = segment.format.framesIn ms
  /-- A segment that is as long as asked stays as it is. -/
  unchanged : segment.format.framesIn ms = segment.frames → result = segment
  /-- A segment without samples becomes silence. -/
  silent : segment.isEmpty = true → result = silence segment.format ms
  /-- In the loop mode, and if the segment is shorter than a grain, its frames follow each other
  again and again. -/
  repeated : segment.format.framesIn ms ≠ segment.frames → 0 < segment.frames →
    mode = .loop ∨ segment.frames < grainFrames (α := α) segment.format →
    ∀ frame < result.frames, ∀ channel < segment.format.frameSize,
      Scalar.Same (result.sample frame channel) (segment.sample (frame % segment.frames) channel)
  /-- This is the overlay of silence with the segment, which cannot fail, and every repetition
  starts within the silence. -/
  overlaid : segment.format.framesIn ms ≠ segment.frames → 0 < segment.frames →
    0 < segment.format.framesIn ms →
    mode = .loop ∨ segment.frames < grainFrames (α := α) segment.format →
    (∀ position ∈ Repetition.loop.positions 0 segment.frames (segment.format.framesIn ms),
      position < segment.format.framesIn ms) ∧
    (segment.format.framesIn (0.0 : α) = 0 →
      (silence segment.format ms).overlayRepeat segment 0.0 .loop = .ok result)
  /-- In the other mode, a segment of at least a grain becomes what a loop leaves that adds grains
  up in buffers and in which every access is checked, if the buffers can be counted in words. -/
  overlapAdded : segment.format.framesIn ms ≠ segment.frames → 0 < segment.format.framesIn ms →
    mode = .ola → grainFrames (α := α) segment.format ≤ segment.frames →
    (segment.format.framesIn ms + grainFrames (α := α) segment.format) * segment.format.frameSize <
      Word.count 64 →
    overlapAdd? segment (segment.format.framesIn ms) (grainFrames (α := α) segment.format) =
      some result
  /-- Every frame of a grain is read within the input and written within the buffers. -/
  within : grainFrames (α := α) segment.format ≤ segment.frames →
    let target := segment.format.framesIn ms
    let grain := grainFrames (α := α) segment.format
    ∀ position < target, ∀ i < grain,
      readPosition (α := α) segment.frames target grain position + i < segment.frames ∧
        position + i < target + grain

/-- A segment of whole frames without a frame is silence without a frame. -/
theorem eq_silentFrames (hwhole : segment.WholeFrames) (hframes : segment.frames = 0) :
    segment = silentFrames segment.format 0 := by
  have hsamples : segment.samples = #[] :=
    Array.isEmpty_iff.mp ((isEmpty_iff_frames hwhole).mpr hframes)
  rw [silentFrames, Nat.zero_mul, Array.replicate_zero, ← hsamples]

/-- Stretching gives silence if there is nothing to stretch or no time to fill. Else it changes
nothing, repeats the segment or adds up grains. -/
theorem stretch_cases (hwhole : segment.WholeFrames) (ms : α) (mode : StretchMode) :
    (segment.format.framesIn ms = 0 ∨ segment.frames = 0) ∧
      segment.stretch ms mode = silence segment.format ms ∨
    (0 < segment.format.framesIn ms ∧ 0 < segment.frames) ∧
      (segment.format.framesIn ms = segment.frames ∧ segment.stretch ms mode = segment ∨
        segment.format.framesIn ms ≠ segment.frames ∧
          ((mode = .loop ∨ segment.frames < Stretch.grainFrames (α := α) segment.format) ∧
              segment.stretch ms mode = segment.loopFill ms ∨
            (mode = .ola ∧ Stretch.grainFrames (α := α) segment.format ≤ segment.frames) ∧
              segment.stretch ms mode = Stretch.ola segment (segment.format.framesIn ms)
                (Stretch.grainFrames (α := α) segment.format))) := by
  unfold stretch
  simp only [isEmpty_iff_frames hwhole]
  cases mode <;> grind

/-- A stretched segment is made of as many whole frames as are asked for, in its format. -/
theorem frames_stretch (hwhole : segment.WholeFrames) (ms : α) (mode : StretchMode) :
    (segment.stretch ms mode).format = segment.format ∧ (segment.stretch ms mode).WholeFrames ∧
      (segment.stretch ms mode).frames = segment.format.framesIn ms := by
  obtain ⟨-, hresult⟩ | ⟨-, ⟨hsame, hresult⟩ | ⟨-, ⟨-, hresult⟩ | ⟨-, hresult⟩⟩⟩ :=
    stretch_cases hwhole ms mode
  all_goals rw [hresult]
  · exact ⟨rfl, whole_frames_silentFrames _ _, frames_silentFrames _ _⟩
  · exact ⟨rfl, hwhole, hsame.symm⟩
  · exact ⟨format_loopFill segment ms, whole_frames_of_size (size_loopFill segment ms),
      frames_of_size (size_loopFill segment ms)⟩
  · exact ⟨rfl, whole_frames_of_size (Stretch.size_ola segment _ _),
      frames_of_size (Stretch.size_ola segment _ _)⟩

/-- In the other mode, a segment of at least a grain is not repeated. -/
theorem not_repeated {mode : StretchMode} (hmode : mode = .ola)
    (hgrain : Stretch.grainFrames (α := α) segment.format ≤ segment.frames) :
    ¬ (mode = .loop ∨ segment.frames < Stretch.grainFrames (α := α) segment.format) := by
  rintro (hloop | hshort)
  · rw [hloop] at hmode
    contradiction
  · exact Nat.not_le.mpr hshort hgrain

/-- Grains are read within the input and written within the buffers, whatever they leave. -/
theorem grain_within (segment : Segment α) (ms : α)
    (hgrain : Stretch.grainFrames (α := α) segment.format ≤ segment.frames) :
    let target := segment.format.framesIn ms
    let grain := Stretch.grainFrames (α := α) segment.format
    ∀ position < target, ∀ i < grain,
      Stretch.readPosition (α := α) segment.frames target grain position + i < segment.frames ∧
        position + i < target + grain := by
  intro target grain position hposition i hi
  exact ⟨Stretch.readPosition_add_lt hgrain position hi, Nat.add_lt_add hposition hi⟩

section Cases

variable [Resampler α] {ms : α} {mode : StretchMode}

/-- Silence, of a segment without a frame or for no frame. -/
theorem stretched_silence (hwhole : segment.WholeFrames)
    (hnone : segment.format.framesIn ms = 0 ∨ segment.frames = 0) :
    Stretched segment ms mode (silence segment.format ms) where
  format := rfl
  whole := whole_frames_silentFrames _ _
  frames := frames_silentFrames _ _
  unchanged hsame := by
    have hframes : segment.frames = 0 := by omega
    rw [silence, hsame, hframes, ← eq_silentFrames hwhole hframes]
  silent _ := rfl
  repeated _ hframes _ frame hframe := by
    rw [silence, frames_silentFrames] at hframe
    omega
  overlaid _ hframes htarget := by omega
  overlapAdded _ htarget _ hgrain := by
    have htwo := Stretch.two_le_grainFrames (α := α) segment.format
    omega
  within := grain_within segment ms

/-- The segment itself, if it is as long as asked. -/
theorem stretched_self (hwhole : segment.WholeFrames) (hframes : 0 < segment.frames)
    (hsame : segment.format.framesIn ms = segment.frames) : Stretched segment ms mode segment where
  format := rfl
  whole := hwhole
  frames := hsame.symm
  unchanged _ := rfl
  silent hempty := absurd ((isEmpty_iff_frames hwhole).mp hempty) hframes.ne'
  repeated hchanged := absurd hsame hchanged
  overlaid hchanged := absurd hsame hchanged
  overlapAdded hchanged := absurd hsame hchanged
  within := grain_within segment ms

/-- The segment repeated, in the loop mode and if it is shorter than a grain. -/
theorem stretched_loopFill [Scalar.NeutralSilence α] (hwhole : segment.WholeFrames)
    (hframes : 0 < segment.frames) (hchanged : segment.format.framesIn ms ≠ segment.frames)
    (hrepeated : mode = .loop ∨ segment.frames < Stretch.grainFrames (α := α) segment.format) :
    Stretched segment ms mode (segment.loopFill ms) where
  format := format_loopFill segment ms
  whole := whole_frames_of_size (size_loopFill segment ms)
  frames := frames_of_size (size_loopFill segment ms)
  unchanged hsame := absurd hsame hchanged
  silent hempty := absurd ((isEmpty_iff_frames hwhole).mp hempty) hframes.ne'
  repeated _ _ _ frame hframe channel hchannel := by
    rw [frames_of_size (size_loopFill segment ms)] at hframe
    -- adding to silence may change the pattern of a sample, but not its value
    rw [sample_loopFill hwhole hframes hframe hchannel]
    exact Scalar.NeutralSilence.silence_add _
  overlaid _ _ _ _ :=
    ⟨fun _ => Repetition.lt_of_mem_positions hframes, overlayRepeat_silence segment ms⟩
  overlapAdded _ _ hmode hgrain := absurd hrepeated (not_repeated hmode hgrain)
  within := grain_within segment ms

/-- Grains added up, of a segment of at least one in the other mode. -/
theorem stretched_ola (hwhole : segment.WholeFrames) (hframes : 0 < segment.frames)
    (hchanged : segment.format.framesIn ms ≠ segment.frames) (hmode : mode = .ola)
    (hgrain : Stretch.grainFrames (α := α) segment.format ≤ segment.frames) :
    Stretched segment ms mode (Stretch.ola segment (segment.format.framesIn ms)
      (Stretch.grainFrames (α := α) segment.format)) where
  format := rfl
  whole := whole_frames_of_size (Stretch.size_ola segment _ _)
  frames := frames_of_size (Stretch.size_ola segment _ _)
  unchanged hsame := absurd hsame hchanged
  silent hempty := absurd ((isEmpty_iff_frames hwhole).mp hempty) hframes.ne'
  repeated _ _ hrepeated := absurd hrepeated (not_repeated hmode hgrain)
  overlaid _ _ _ hrepeated := absurd hrepeated (not_repeated hmode hgrain)
  overlapAdded _ _ _ _ hwords :=
    Stretch.overlapAdd?_eq_some hwhole (Stretch.two_le_grainFrames _) hgrain hwords
  within := grain_within segment ms

end Cases

/-- A segment of whole frames can be stretched to every number of milliseconds, in both modes. It
fills them exactly, in its format. It stays as it is if it does so already, and becomes silence if
it is empty. Otherwise it is repeated, so that its frames follow each other again and again, or
grains of it are added up within the input and within the buffers. -/
theorem stretch_fills_duration [Resampler α] [Scalar.NeutralSilence α]
    (hwhole : segment.WholeFrames) (ms : α) (mode : StretchMode) :
    Stretched segment ms mode (segment.stretch ms mode) := by
  obtain ⟨hnone, hresult⟩ | ⟨⟨htarget, hframes⟩, ⟨hsame, hresult⟩ |
    ⟨hchanged, ⟨hrepeated, hresult⟩ | ⟨⟨hmode, hgrain⟩, hresult⟩⟩⟩ := stretch_cases hwhole ms mode
  all_goals rw [hresult]
  · exact stretched_silence hwhole hnone
  · exact stretched_self hwhole hframes hsame
  · exact stretched_loopFill hwhole hframes hchanged hrepeated
  · exact stretched_ola hwhole hframes hchanged hmode hgrain

/-- Three frames are repeated to fill eight, and stretched to fill five with grains of two. -/
theorem three_frames_stretched :
    let brief : Segment ℝ := ⟨#[1, 2, 3], .mono 1000⟩
    let slow : Segment ℝ := ⟨#[1, 2, 3], .mono 50⟩
    brief.WholeFrames ∧ (brief.stretch 8 .loop).frames = 8 ∧
    (∀ frame < 8, (brief.stretch 8 .loop).sample frame 0 = brief.sample (frame % 3) 0) ∧
    slow.WholeFrames ∧ (slow.stretch 100 .ola).frames = 5 ∧
    Stretch.overlapAdd? slow 5 2 = some (slow.stretch 100 .ola) := by
  intro brief slow
  have hbrief : brief.WholeFrames := whole_frames_of_size (rfl : _ = 3 * 1)
  have hslow : slow.WholeFrames := whole_frames_of_size (rfl : _ = 3 * 1)
  have hbriefFrames : brief.frames = 3 := frames_of_size rfl
  have hslowFrames : slow.frames = 3 := frames_of_size rfl
  have height : brief.format.framesIn (8 : ℝ) = 8 := Format.framesIn_of_thousand 8
  have hfive : slow.format.framesIn (100 : ℝ) = 5 := by
    rw [Format.framesIn_eq_floor]
    norm_num [slow, Format.mono, Nat.floor_eq_iff]
  have hgrain : Stretch.grainFrames (α := ℝ) slow.format = 2 := Stretch.grainFrames_of_fifty .mono
  have hrepeated := stretch_fills_duration hbrief 8 .loop
  have hadded := stretch_fills_duration hslow 100 .ola
  have hlength : (brief.stretch 8 .loop).frames = 8 := hrepeated.frames.trans height
  refine ⟨hbrief, hlength, fun frame hframe => ?_, hslow, hadded.frames.trans hfive, ?_⟩
  · rw [← hbriefFrames]
    refine Exact.eq_of_same (hrepeated.repeated ?_ ?_ (.inl rfl) frame ?_ 0 (by decide))
    all_goals omega
  · rw [← hfive, ← hgrain]
    refine hadded.overlapAdded ?_ ?_ rfl ?_ ?_
    · omega
    · omega
    · omega
    · rw [hfive, hgrain]
      decide

end Segment

end SingingVoice
