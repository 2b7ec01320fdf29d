import SingingVoice.Proofs.Segment.Conformity
import SingingVoice.Proofs.Segment.Frames
import SingingVoice.Segment.Join
import SingingVoice.Voicebank.Sample

/-!
# Parts of segments

How many frames slices, silence and joined segments have. The parts of a sample are whole frames in
the format of its audio.
-/

namespace SingingVoice

namespace Segment

variable {α : Type}

/-- A partial frame at the end of samples is left out. -/
theorem size_ofSamples (format : Format) (samples : Array α) :
    (ofSamples format samples).samples.size =
      samples.size / format.frameSize * format.frameSize := by
  simp only [ofSamples, Array.size_extract, Nat.sub_zero]
  exact Nat.min_eq_left (Nat.div_mul_le_self _ _)

/-- A partial frame at the end of samples does not count. -/
theorem frames_ofSamples (format : Format) (samples : Array α) :
    (ofSamples format samples).frames = samples.size / format.frameSize :=
  frames_of_size (size_ofSamples format samples)

/-- A segment of given samples is made of whole frames. -/
theorem whole_frames_ofSamples (format : Format) (samples : Array α) :
    (ofSamples format samples).WholeFrames :=
  whole_frames_of_size (size_ofSamples format samples)

/-- The samples of a slice between frames of a segment. -/
theorem sliceFrames_of_le {segment : Segment α} {first last : Nat} (hfirst : first ≤ last)
    (hlast : last ≤ segment.frames) :
    segment.sliceFrames first last =
      ⟨segment.samples.extract (first * segment.format.frameSize)
        (last * segment.format.frameSize), segment.format⟩ := by
  rw [sliceFrames, Nat.min_eq_left hlast, Nat.min_eq_left hfirst]

/-- The number of samples of a slice. -/
theorem size_sliceFrames (segment : Segment α) (start stop : Nat) :
    (segment.sliceFrames start stop).samples.size =
      (min stop segment.frames - min start (min stop segment.frames)) *
        segment.format.frameSize := by
  have hle : min stop segment.frames * segment.format.frameSize ≤ segment.samples.size :=
    Nat.le_trans (Nat.mul_le_mul_right _ (Nat.min_le_right _ _)) (Nat.div_mul_le_self _ _)
  simp only [sliceFrames, Array.size_extract]
  rw [Nat.min_eq_left hle, Nat.sub_mul]

/-- A slice is made of whole frames. -/
theorem whole_frames_sliceFrames (segment : Segment α) (start stop : Nat) :
    (segment.sliceFrames start stop).WholeFrames :=
  whole_frames_of_size (segment.size_sliceFrames start stop)

/-- The number of frames of a slice. -/
theorem frames_sliceFrames (segment : Segment α) (start stop : Nat) :
    (segment.sliceFrames start stop).frames =
      min stop segment.frames - min start (min stop segment.frames) :=
  frames_of_size (segment.size_sliceFrames start stop)

/-- One segment after another has the frames of both. -/
theorem frames_concat {first second : Segment α} (hwhole : first.WholeFrames)
    (hformat : second.format = first.format) :
    (first.concat second).frames = first.frames + second.frames := by
  rw [concat, frames_ofSamples, Array.size_append, hwhole, Nat.mul_comm,
    Nat.mul_add_div first.format.frameSize_pos, frames, frames, hformat]

variable [Scalar α]

/-- Silence has as many frames as it is made of. -/
theorem frames_silentFrames (format : Format) (count : Nat) :
    (silentFrames format count : Segment α).frames = count :=
  frames_of_size Array.size_replicate

/-- Silence is made of whole frames. -/
theorem whole_frames_silentFrames (format : Format) (count : Nat) :
    (silentFrames format count : Segment α).WholeFrames :=
  whole_frames_of_size Array.size_replicate

/-- Every sample of silence is zero. -/
theorem sample_silentFrames (format : Format) (count frame channel : Nat) :
    (silentFrames format count : Segment α).sample frame channel = 0.0 := by
  simp only [sample, silentFrames, Array.getD_eq_getD_getElem?, Array.getElem?_replicate]
  split <;> rfl

/-- Without a crossfade, segments of one format are put one after another. -/
theorem append_of_format [Resampler α] {first second : Segment α} {ms : α}
    (hformat : second.format = first.format) (hms : ms ≤ 0.0) :
    first.append second ms = .ok (first.concat second) := by
  unfold append
  rw [conform_self hformat]
  exact if_pos hms

end Segment

namespace Sample

variable {α : Type} [Scalar α] {sample : Sample α} {audio consonant vowel : Segment α}

/-- Audio is cut where the vowel starts and stops, or where the audio ends, and something is left
between the two. -/
theorem slice_eq_ok (h : sample.slice audio = .ok (consonant, vowel)) :
    ¬ sample.offset < 0.0 ∧ ¬ sample.consonant < 0.0 ∧
      let length : α := Scalar.ofNat audio.length
      let start := Scalar.min (sample.vowelRegion length).1 length
      let stop := Scalar.min (sample.vowelRegion length).2 length
      ¬ stop ≤ start ∧ consonant = audio.slice (some sample.offset) (some start) ∧
        vowel = audio.slice (some start) (some stop) := by
  unfold slice at h
  split at h
  · cases h
  · rename_i hoffset
    split at h
    · cases h
    · rename_i hconsonant
      dsimp only at h
      split at h
      · cases h
      · rename_i hvowel
        cases h
        exact ⟨hoffset, hconsonant, hvowel, rfl, rfl⟩

/-- The parts of a sample are whole frames in the format of the audio. -/
theorem parts_of_slice (h : sample.slice audio = .ok (consonant, vowel)) :
    (consonant.format = audio.format ∧ consonant.WholeFrames) ∧
      (vowel.format = audio.format ∧ vowel.WholeFrames) := by
  obtain ⟨-, -, -, rfl, rfl⟩ := slice_eq_ok h
  exact ⟨⟨rfl, Segment.whole_frames_sliceFrames _ _ _⟩,
    ⟨rfl, Segment.whole_frames_sliceFrames _ _ _⟩⟩

end Sample

end SingingVoice
