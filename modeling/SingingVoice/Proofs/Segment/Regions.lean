import Mathlib
import SingingVoice.Proofs.Exact.Duration
import SingingVoice.Proofs.Segment.Parts

/-!
# Regions of segments

A region of a segment is a run of its frames, in their order and nothing else (`Segment.Region`).
Slices are regions (`region_sliceFrames`), and a slice with the one that begins where it ends is the
slice of both (`concat_sliceFrames`). In exact arithmetic a slice between two times is the region
between their frames, both cut to the segment (`region_slice`).
-/

namespace SingingVoice.Segment

variable {α : Type}

/-- A slice begins and ends within the segment. -/
theorem sliceFrames_cut (segment : Segment α) {first last : Nat} (h : first ≤ last) :
    segment.sliceFrames first last =
      segment.sliceFrames (min first segment.frames) (min last segment.frames) := by
  have hfirst : min first (min last segment.frames) = min first segment.frames := by omega
  have hle : min first segment.frames ≤ min last segment.frames := min_le_min_right _ h
  rw [sliceFrames_of_le hle (Nat.min_le_right _ _), sliceFrames]
  simp only [hfirst]

/-- Two slices, the second from where the first ends, are one slice together. -/
theorem concat_sliceFrames {segment : Segment α} {first middle last : Nat} (hfirst : first ≤ middle)
    (hlast : middle ≤ last) (hframes : last ≤ segment.frames) :
    (segment.sliceFrames first middle).concat (segment.sliceFrames middle last) =
      segment.sliceFrames first last := by
  have hsize := segment.size_sliceFrames first last
  rw [sliceFrames_of_le (hfirst.trans hlast) hframes] at hsize ⊢
  rw [sliceFrames_of_le hfirst (hlast.trans hframes), sliceFrames_of_le hlast hframes, concat,
    Array.extract_append_extract, Nat.min_eq_left (Nat.mul_le_mul_right _ hfirst),
    Nat.max_eq_right (Nat.mul_le_mul_right _ hlast)]
  exact ofSamples_of_size hsize

variable [Scalar α]

/-- A segment is the region of another from a frame on and up to a frame: these frames in their
order, and nothing else. -/
structure Region (segment : Segment α) (first last : Nat) (part : Segment α) : Prop where
  first_le : first ≤ last
  last_le : last ≤ segment.frames
  format : part.format = segment.format
  whole : part.WholeFrames
  frames : part.frames = last - first
  samples : ∀ frame < last - first, ∀ channel < segment.format.frameSize,
    part.sample frame channel = segment.sample (first + frame) channel

/-- A slice between frames of a segment is the region between them. -/
theorem region_sliceFrames {segment : Segment α} {first last : Nat} (hfirst : first ≤ last)
    (hlast : last ≤ segment.frames) :
    segment.Region first last (segment.sliceFrames first last) where
  first_le := hfirst
  last_le := hlast
  format := rfl
  whole := segment.whole_frames_sliceFrames first last
  frames := by
    rw [frames_sliceFrames, Nat.min_eq_left hlast, Nat.min_eq_left hfirst]
  samples := by
    intro frame hframe channel hchannel
    have hend : last * segment.format.frameSize ≤ segment.samples.size :=
      Nat.le_trans (Nat.mul_le_mul_right _ hlast) (Nat.div_mul_le_self _ _)
    have hinside : frame * segment.format.frameSize + channel <
        last * segment.format.frameSize - first * segment.format.frameSize := by
      rw [← Nat.sub_mul]
      exact (frame_index_lt_iff hchannel).mpr hframe
    have hplace : first * segment.format.frameSize + (frame * segment.format.frameSize + channel) =
        (first + frame) * segment.format.frameSize + channel := by
      rw [Nat.add_mul, Nat.add_assoc]
    rw [sliceFrames_of_le hfirst hlast]
    simp only [sample, Array.getD_eq_getD_getElem?, Array.getElem?_extract, Nat.min_eq_left hend,
      if_pos hinside, hplace]

/-- A slice between any frames is the region between them, both of which are cut to the segment. -/
theorem region_sliceFrames_cut (segment : Segment α) (start stop : Nat) :
    segment.Region (min start (min stop segment.frames)) (min stop segment.frames)
      (segment.sliceFrames start stop) := by
  have hfirst : min start (min stop segment.frames) ≤ min stop segment.frames := min_le_right _ _
  have hlast : min stop segment.frames ≤ segment.frames := min_le_right _ _
  have hcut : segment.sliceFrames (min start (min stop segment.frames)) (min stop segment.frames) =
      segment.sliceFrames start stop := sliceFrames_of_le hfirst hlast
  exact hcut ▸ region_sliceFrames hfirst hlast

/-- The samples of a slice, both ends of which are cut to the segment. -/
theorem sample_sliceFrames {segment : Segment α} {start stop frame channel : Nat}
    (hframe : frame < (segment.sliceFrames start stop).frames)
    (hchannel : channel < segment.format.frameSize) :
    (segment.sliceFrames start stop).sample frame channel =
      segment.sample (min start (min stop segment.frames) + frame) channel := by
  have hregion := segment.region_sliceFrames_cut start stop
  exact hregion.samples frame (hregion.frames ▸ hframe) channel hchannel

/-- In exact arithmetic a slice between two times, the first not after the second, is the slice
between their frames. Both are cut to the segment. -/
theorem slice_eq_sliceFrames (segment : Segment ℝ) {start stop : ℝ} (h : start ≤ stop) :
    segment.slice (some start) (some stop) =
      segment.sliceFrames (min (segment.format.framesIn start) segment.frames)
        (min (segment.format.framesIn stop) segment.frames) :=
  segment.sliceFrames_cut (segment.format.framesIn_mono h)

/-- In exact arithmetic a slice between two times is the region between their frames. -/
theorem region_slice (segment : Segment ℝ) {start stop : ℝ} (h : start ≤ stop) :
    segment.Region (min (segment.format.framesIn start) segment.frames)
      (min (segment.format.framesIn stop) segment.frames)
      (segment.slice (some start) (some stop)) := by
  rw [slice_eq_sliceFrames segment h]
  exact region_sliceFrames (min_le_min_right _ (segment.format.framesIn_mono h)) (min_le_right _ _)

/-- In exact arithmetic two slices, the second from when the first ends, are one slice together. -/
theorem concat_slice (segment : Segment ℝ) {start middle stop : ℝ} (hstart : start ≤ middle)
    (hstop : middle ≤ stop) :
    (segment.slice (some start) (some middle)).concat (segment.slice (some middle) (some stop)) =
      segment.slice (some start) (some stop) := by
  rw [slice_eq_sliceFrames segment hstart, slice_eq_sliceFrames segment hstop,
    slice_eq_sliceFrames segment (hstart.trans hstop)]
  exact concat_sliceFrames (min_le_min_right _ (segment.format.framesIn_mono hstart))
    (min_le_min_right _ (segment.format.framesIn_mono hstop)) (min_le_right _ _)

end SingingVoice.Segment
