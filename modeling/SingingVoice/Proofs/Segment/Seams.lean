import SingingVoice.Double
import SingingVoice.Proofs.Segment.Joined
import SingingVoice.Proofs.Segment.Regions
import SingingVoice.Resampling.Sinc

/-!
# Seams

Cutting and joining are inverse (`cuts_and_joins_inverse`), whatever the arithmetic of times is: all
that a time decides is a frame, and every frame is cut to the segment. Without a crossfade segments
of one format form a monoid, in which a join has its two parts on either side of the seam.
-/

namespace SingingVoice.Segment

variable {α : Type}

/-! ## Joins without a crossfade -/

section Joins

variable {first second third : Segment α}

/-- Segments of whole frames in one format are joined sample after sample. -/
theorem concat_eq (hfirst : first.WholeFrames) (hsecond : second.WholeFrames)
    (hformat : second.format = first.format) :
    first.concat second = ⟨first.samples ++ second.samples, first.format⟩ := by
  have hsize : (first.samples ++ second.samples).size =
      (first.frames + second.frames) * first.format.frameSize := by
    rw [Array.size_append, hfirst, hsecond, hformat, Nat.add_mul]
  exact ofSamples_of_size hsize

/-- It does not matter which seam is made first. -/
theorem concat_assoc (hfirst : first.WholeFrames) (hsecond : second.WholeFrames)
    (hthird : third.WholeFrames) (hformat : second.format = first.format)
    (hformat' : third.format = second.format) :
    (first.concat second).concat third = first.concat (second.concat third) := by
  have hleft : (first.concat second).WholeFrames := whole_frames_ofSamples _ _
  have hright : (second.concat third).WholeFrames := whole_frames_ofSamples _ _
  rw [concat_eq hleft hthird (hformat'.trans hformat), concat_eq hfirst hright hformat,
    concat_eq hfirst hsecond hformat, concat_eq hsecond hthird hformat', Array.append_assoc]

/-- The segment without samples is made of whole frames. -/
theorem whole_frames_empty (format : Format) : (empty format : Segment α).WholeFrames :=
  whole_frames_of_size (Nat.zero_mul _).symm

/-- Nothing before a segment changes nothing. -/
theorem empty_concat (hfirst : first.WholeFrames) : (empty first.format).concat first = first := by
  rw [concat_eq (whole_frames_empty _) hfirst rfl]
  show (⟨#[] ++ first.samples, first.format⟩ : Segment α) = first
  rw [Array.empty_append]

/-- Nothing after a segment changes nothing. -/
theorem concat_empty (hfirst : first.WholeFrames) : first.concat (empty first.format) = first := by
  rw [concat_eq hfirst (whole_frames_empty _) rfl]
  show (⟨first.samples ++ #[], first.format⟩ : Segment α) = first
  rw [Array.append_empty]

/-- What a join has after its seam is the second segment. -/
theorem sliceFrames_concat_last (hfirst : first.WholeFrames) (hsecond : second.WholeFrames)
    (hformat : second.format = first.format) :
    (first.concat second).sliceFrames first.frames (first.concat second).frames = second := by
  have hframes := frames_concat hfirst hformat
  rw [sliceFrames_of_le (by omega) (Nat.le_refl _), hframes, concat_eq hfirst hsecond hformat]
  dsimp only
  have hend : (first.frames + second.frames) * first.format.frameSize =
      first.samples.size + second.samples.size := by
    rw [hfirst, hsecond, hformat, Nat.add_mul]
  rw [hend, ← hfirst, Array.extract_append_right, Array.extract_size, ← hformat]

end Joins

variable [Scalar α]

/-! ## Cuts at a time -/

/-- What a segment has up to a time. -/
theorem slice_before (segment : Segment α) (ms : α) :
    segment.slice none (some ms) =
      segment.sliceFrames 0 (min (segment.format.framesIn ms) segment.frames) :=
  (segment.sliceFrames_min_frames _).symm

/-- What a segment has from a time on. -/
theorem slice_after (segment : Segment α) (ms : α) :
    segment.slice (some ms) none =
      segment.sliceFrames (min (segment.format.framesIn ms) segment.frames) segment.frames := by
  show segment.sliceFrames (segment.format.framesIn ms) segment.frames = _
  simp only [sliceFrames, Nat.min_self, Nat.min_assoc]

/-- A part that is cut out is made of whole frames. -/
theorem whole_frames_slice (segment : Segment α) (start? stop? : Option α) :
    (segment.slice start? stop?).WholeFrames :=
  segment.whole_frames_sliceFrames _ _

/-- A segment that is cut at a time is made of the two parts. -/
theorem concat_slices {segment : Segment α} (hwhole : segment.WholeFrames) (ms : α) :
    (segment.slice none (some ms)).concat (segment.slice (some ms) none) = segment := by
  rw [slice_before, slice_after,
    concat_sliceFrames (Nat.zero_le _) (Nat.min_le_right _ _) (Nat.le_refl _),
    sliceFrames_frames hwhole]

/-- A join is cut at a time that has the frames of the first segment into the two segments. -/
theorem slices_concat {first second : Segment α} (hfirst : first.WholeFrames)
    (hsecond : second.WholeFrames) (hformat : second.format = first.format) {ms : α}
    (hms : first.format.framesIn ms = first.frames) :
    (first.concat second).slice none (some ms) = first ∧
      (first.concat second).slice (some ms) none = second := by
  have hframes := frames_concat hfirst hformat
  have hcut : min ((first.concat second).format.framesIn ms) (first.concat second).frames =
      first.frames := by
    show min (first.format.framesIn ms) _ = _
    omega
  rw [slice_before, slice_after, hcut]
  exact ⟨sliceFrames_concat hfirst second, sliceFrames_concat_last hfirst hsecond hformat⟩

variable [Resampler α]

/-- Cuts and joins undo each other, in any arithmetic and so at every time, also one that is
negative, past the end, infinite or not a number. A segment that is cut in two is made of the parts,
sample after sample. A slice of a slice is one slice. Joins without a crossfade of segments in one
format do not depend on which seam is made first, the empty segment changes nothing on either side,
and a join that is cut at its seam, by frames or by a time of so many frames, falls into the
segments that it was made of. -/
theorem cuts_and_joins_inverse :
    (∀ segment : Segment α, segment.WholeFrames → ∀ ms : α,
      (segment.slice none (some ms)).samples ++ (segment.slice (some ms) none).samples =
          segment.samples ∧
        (segment.slice none (some ms)).concat (segment.slice (some ms) none) = segment) ∧
    (∀ (segment : Segment α) (first last first' last' : Nat),
      (segment.sliceFrames first last).sliceFrames first' last' =
        segment.sliceFrames (first + first') (min (first + last') last)) ∧
    ∀ (format : Format) (first second third : Segment α),
      (∀ segment ∈ [first, second, third], segment.format = format ∧ segment.WholeFrames) →
      ∀ crossfade : α, crossfade ≤ 0.0 →
        (∃ all, (first.append second crossfade >>= (·.append third crossfade)) = .ok all ∧
            (second.append third crossfade >>= (first.append · crossfade)) = .ok all) ∧
          (empty format).append first crossfade = .ok first ∧
          first.append (empty format) crossfade = .ok first ∧
          ∃ joined, first.append second crossfade = .ok joined ∧
            joined.samples = first.samples ++ second.samples ∧
            joined.sliceFrames 0 first.frames = first ∧
            joined.sliceFrames first.frames joined.frames = second ∧
            ∀ ms : α, format.framesIn ms = first.frames →
              joined.slice none (some ms) = first ∧ joined.slice (some ms) none = second := by
  refine ⟨?_, sliceFrames_sliceFrames, ?_⟩
  · intro segment hwhole ms
    have hparts := concat_slices hwhole ms
    have hformat : (segment.slice (some ms) none).format =
        (segment.slice none (some ms)).format := rfl
    refine ⟨?_, hparts⟩
    rw [concat_eq (whole_frames_slice _ _ _) (whole_frames_slice _ _ _) hformat] at hparts
    exact congrArg Segment.samples hparts
  · intro format first second third hparts crossfade hnone
    obtain ⟨rfl, hfirst⟩ := hparts first (by simp)
    obtain ⟨hformat, hsecond⟩ := hparts second (by simp)
    obtain ⟨hformat', hthird⟩ := hparts third (by simp)
    have hjoined := append_of_format hformat hnone
    refine ⟨⟨(first.concat second).concat third, ?_, ?_⟩, ?_, ?_, first.concat second, hjoined, ?_,
      sliceFrames_concat hfirst second, sliceFrames_concat_last hfirst hsecond hformat,
      fun ms => slices_concat hfirst hsecond hformat⟩
    -- both orders come to one join
    · rw [hjoined, Except.ok_bind]
      exact append_of_format hformat' hnone
    · have hthird' : third.format = second.format := hformat'.trans hformat.symm
      rw [append_of_format hthird' hnone, Except.ok_bind,
        concat_assoc hfirst hsecond hthird hformat hthird']
      exact append_of_format hformat hnone
    · rw [append_of_format (by rfl) hnone, empty_concat hfirst]
    · rw [append_of_format (by rfl) hnone, concat_empty hfirst]
    · rw [concat_eq hfirst hsecond hformat]

/-- In binary64 three stereo frames that are cut at a time which is not a number are put together
again. Joined to themselves they are cut at the seam, which is after three frames, into what they
were. -/
theorem cut_at_no_number :
    let segment : Segment Double := ⟨#[⟨1⟩, ⟨2⟩, ⟨3⟩, ⟨4⟩, ⟨5⟩, ⟨6⟩], ⟨1000, .stereo⟩⟩
    segment.WholeFrames ∧ Double.isNaN .invalid = true ∧
      (segment.slice none (some .invalid)).concat (segment.slice (some .invalid) none) = segment ∧
      (0.0 : Double) ≤ 0.0 ∧
      ∃ joined, segment.append segment 0.0 = .ok joined ∧ joined.frames = 6 ∧
        joined.sliceFrames 0 3 = segment ∧ joined.sliceFrames 3 6 = segment := by
  intro segment
  have hsize : segment.samples.size = 3 * segment.format.frameSize := rfl
  have hwhole : segment.WholeFrames := whole_frames_of_size hsize
  have hthree : segment.frames = 3 := frames_of_size hsize
  have hnone : (0.0 : Double) ≤ 0.0 := by decide
  obtain ⟨hcut, -, hjoin⟩ := cuts_and_joins_inverse (α := Double)
  obtain ⟨-, -, -, joined, hjoined, hsamples, hbefore, hafter, -⟩ :=
    hjoin segment.format segment segment segment (by simp [hwhole]) 0.0 hnone
  have hframes : joined.frames = 6 := by
    rw [append_of_format rfl hnone] at hjoined
    cases hjoined
    rw [frames_concat hwhole rfl, hthree]
  rw [hthree] at hbefore hafter
  rw [hframes] at hafter
  exact ⟨hwhole, by decide, (hcut segment hwhole .invalid).2, hnone, joined, hjoined, hframes,
    hbefore, hafter⟩

end SingingVoice.Segment
