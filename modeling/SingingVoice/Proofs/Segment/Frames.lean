import SingingVoice.Segment.Draft

/-!
# Samples by frame and channel

Audio is stored sample after sample, and read here frame by frame: `Segment.sample` is the sample of
a frame and a channel. A buffer of whole frames stays one when it is extended, mixed into or frozen.
The two lemmas to read first are `Draft.getElem?_extendFrames` and `Draft.getElem?_mixAt`, which say
what these operations do to the sample of a frame and a channel.
-/

namespace SingingVoice

variable {α : Type}

/-- The place of a sample of a frame lies before the end of so many frames exactly if the frame
does. -/
theorem frame_index_lt_iff {size frame channel count : Nat} (hchannel : channel < size) :
    frame * size + channel < count * size ↔ frame < count := by
  constructor
  · intro h
    have hmul : frame * size < count * size := by omega
    exact Nat.lt_of_mul_lt_mul_right hmul
  · intro h
    have hmul : (frame + 1) * size ≤ count * size := Nat.mul_le_mul_right size h
    rw [Nat.succ_mul] at hmul
    omega

/-- Places of samples count from any frame as they count from the first. -/
theorem frame_index_sub {size frame channel first : Nat} (h : first ≤ frame) :
    frame * size + channel - first * size = (frame - first) * size + channel := by
  rw [Nat.sub_mul]
  have hmul : first * size ≤ frame * size := Nat.mul_le_mul_right size h
  omega

namespace Segment

/-- The frame that the place of a sample lies in. -/
theorem frame_of_place {size frame channel : Nat} (hchannel : channel < size) :
    (frame * size + channel) / size = frame := by
  rw [Nat.mul_comm, Nat.mul_add_div (Nat.zero_lt_of_lt hchannel), Nat.div_eq_of_lt hchannel,
    Nat.add_zero]

/-- The number of frames of a segment whose number of samples is known. -/
theorem frames_of_size {segment : Segment α} {count : Nat}
    (h : segment.samples.size = count * segment.format.frameSize) : segment.frames = count := by
  unfold frames
  rw [h]
  exact Nat.mul_div_cancel count segment.format.frameSize_pos

/-- So many samples for each frame make a segment of whole frames. -/
theorem whole_frames_of_size {segment : Segment α} {count : Nat}
    (h : segment.samples.size = count * segment.format.frameSize) : segment.WholeFrames := by
  unfold WholeFrames
  rw [frames_of_size h]
  exact h

/-- Nothing is dropped from samples that are whole frames. -/
theorem ofSamples_of_size {format : Format} {samples : Array α} {count : Nat}
    (h : samples.size = count * format.frameSize) :
    ofSamples format samples = ⟨samples, format⟩ := by
  have hsize : samples.size / format.frameSize * format.frameSize = samples.size := by
    rw [h, Nat.mul_div_cancel count format.frameSize_pos]
  simp [ofSamples, hsize]

/-- A segment of whole frames is empty exactly if it has no frame. -/
theorem isEmpty_iff_frames {segment : Segment α} (hwhole : segment.WholeFrames) :
    segment.isEmpty = true ↔ segment.frames = 0 := by
  rw [isEmpty, Array.isEmpty_iff_size_eq_zero, hwhole, Nat.mul_eq_zero]
  exact or_iff_left (Nat.ne_of_gt segment.format.frameSize_pos)

/-- Nothing is stored for the frames after the segment. -/
theorem getElem?_eq_none {segment : Segment α} (hwhole : segment.WholeFrames)
    {frame channel : Nat} (hframe : segment.frames ≤ frame)
    (hchannel : channel < segment.format.frameSize) :
    segment.samples[frame * segment.format.frameSize + channel]? = none := by
  apply Array.getElem?_eq_none
  rw [hwhole, ← Nat.not_lt, frame_index_lt_iff hchannel]
  exact Nat.not_lt.mpr hframe

variable [Scalar α]

/-- The sample of a frame and a channel; there is silence outside the segment. -/
def sample (segment : Segment α) (frame channel : Nat) : α :=
  segment.samples.getD (frame * segment.format.frameSize + channel) 0.0

/-- The sample of a frame and a channel is stored, if the segment reaches so far. -/
theorem getElem?_eq_sample {segment : Segment α} (hwhole : segment.WholeFrames)
    {frame channel : Nat} (hframe : frame < segment.frames)
    (hchannel : channel < segment.format.frameSize) :
    segment.samples[frame * segment.format.frameSize + channel]? =
      some (segment.sample frame channel) := by
  have hlt : frame * segment.format.frameSize + channel < segment.samples.size := by
    rw [hwhole]
    exact (frame_index_lt_iff hchannel).mpr hframe
  simp [sample, Array.getD, hlt]

/-- There is silence after the end of a segment. -/
theorem sample_of_frames_le {segment : Segment α} (hwhole : segment.WholeFrames)
    {frame channel : Nat} (hframe : segment.frames ≤ frame)
    (hchannel : channel < segment.format.frameSize) : segment.sample frame channel = 0.0 := by
  simp [sample, Array.getD_eq_getD_getElem?, getElem?_eq_none hwhole hframe hchannel]

/-- Segments of whole frames are the same if their formats, their lengths and their samples are. -/
theorem ext_sample {first second : Segment α} (hfirst : first.WholeFrames)
    (hsecond : second.WholeFrames) (hformat : first.format = second.format)
    (hframes : first.frames = second.frames)
    (hsamples : ∀ frame < second.frames, ∀ channel < second.format.frameSize,
      first.sample frame channel = second.sample frame channel) : first = second := by
  have hsize : first.samples.size = second.samples.size := by
    rw [hfirst, hsecond, hformat, hframes]
  have hstored : first.samples = second.samples := by
    refine Array.ext_getElem? fun place => ?_
    rcases Nat.lt_or_ge place second.samples.size with hlt | hge
    · -- every place is that of a frame and a channel
      have hchannel := Nat.mod_lt place second.format.frameSize_pos
      have hframe : place / second.format.frameSize < second.frames := by
        rw [← frame_index_lt_iff hchannel, Nat.div_add_mod', ← hsecond]
        exact hlt
      have hleft := getElem?_eq_sample hfirst (hframes ▸ hframe) (hformat ▸ hchannel)
      have hright := getElem?_eq_sample hsecond hframe hchannel
      rw [hformat, hsamples _ hframe _ hchannel] at hleft
      rw [← hright, Nat.div_add_mod'] at hleft
      exact hleft
    · rw [Array.getElem?_eq_none hge, Array.getElem?_eq_none (hsize ▸ hge)]
  obtain ⟨samples, format⟩ := first
  obtain ⟨samples', format'⟩ := second
  exact congr (congrArg Segment.mk hstored) hformat

end Segment

namespace Draft

/-- The number of frames of a buffer whose number of samples is known. -/
theorem frames_of_size {draft : Draft α} {count : Nat}
    (h : draft.samples.size = count * draft.format.frameSize) : draft.frames = count := by
  unfold frames
  rw [h]
  exact Nat.mul_div_cancel count draft.format.frameSize_pos

/-- Freezing a buffer of whole frames keeps all of it. -/
theorem freeze_of_size {draft : Draft α} {count : Nat}
    (h : draft.samples.size = count * draft.format.frameSize) :
    draft.freeze = ⟨draft.samples, draft.format⟩ :=
  Segment.ofSamples_of_size h

variable [Scalar α]

/-- Adding from an offset keeps the number of samples. -/
theorem size_addFrom_go (offset : Nat) (source : Array α) (i : Nat) (target : Array α) :
    (addFrom.go offset source i target).size = target.size := by
  fun_induction addFrom.go offset source i target with
  | case1 i target h ih => rw [ih, Array.size_modify]
  | case2 => rfl

/-- From the element `i` of the source on, each element of the source is added to the one `offset`
places further on in the target, and the others stay as they are. -/
theorem getElem?_addFrom_go (offset : Nat) (source : Array α) (i : Nat) (target : Array α)
    (place : Nat) :
    (addFrom.go offset source i target)[place]? =
      if offset + i ≤ place then
        source[place - offset]?.elim target[place]? fun x => target[place]?.map (· + x)
      else target[place]? := by
  fun_induction addFrom.go offset source i target with
  | case1 i target h ih =>
      rw [ih, Array.getElem?_modify]
      rcases Nat.lt_trichotomy place (offset + i) with hlt | heq | hgt
      · have hnot : ¬ offset + (i + 1) ≤ place := by omega
        have hnot' : ¬ offset + i ≤ place := by omega
        have hne : offset + i ≠ place := by omega
        simp only [hnot, hnot', hne, ↓reduceIte]
      · subst heq
        have hnot : ¬ offset + (i + 1) ≤ offset + i := by omega
        simp [hnot, h.1, h.2]
      · have hle : offset + (i + 1) ≤ place := by omega
        have hle' : offset + i ≤ place := by omega
        have hne : offset + i ≠ place := by omega
        simp only [hle, hle', hne, ↓reduceIte]
  | case2 i target h =>
      split
      · rename_i hle
        cases hsource : source[place - offset]? with
        | none => rfl
        | some x =>
            have hlt : place - offset < source.size := (Array.getElem?_eq_some_iff.mp hsource).1
            have hend : target.size ≤ place := by omega
            simp [hend]
      · rfl

/-- Mixing keeps the format. -/
@[simp] theorem format_mixAt (draft : Draft α) (position : Nat) (segment : Segment α) :
    (draft.mixAt position segment).format = draft.format := rfl

/-- Mixing keeps the number of samples. -/
@[simp] theorem size_mixAt (draft : Draft α) (position : Nat) (segment : Segment α) :
    (draft.mixAt position segment).samples.size = draft.samples.size :=
  size_addFrom_go _ _ _ _

/-- Mixing adds to a sample the one of the segment that falls on it. -/
theorem getElem?_mixAt {draft : Draft α} {segment : Segment α} {format : Format}
    (hdraft : draft.format = format) (hsegment : segment.format = format)
    (hwhole : segment.WholeFrames) (position : Nat) {frame channel : Nat}
    (hchannel : channel < format.frameSize) :
    (draft.mixAt position segment).samples[frame * format.frameSize + channel]? =
      if position ≤ frame ∧ frame < position + segment.frames then
        draft.samples[frame * format.frameSize + channel]?.map
          (· + segment.sample (frame - position) channel)
      else draft.samples[frame * format.frameSize + channel]? := by
  rw [mixAt, addFrom, getElem?_addFrom_go, Nat.add_zero, hdraft]
  subst hsegment
  by_cases hfirst : position ≤ frame
  · have hle : position * segment.format.frameSize ≤ frame * segment.format.frameSize + channel :=
      Nat.le_add_right_of_le (Nat.mul_le_mul_right _ hfirst)
    rw [if_pos hle, frame_index_sub hfirst]
    by_cases hlast : frame < position + segment.frames
    · rw [if_pos ⟨hfirst, hlast⟩, Segment.getElem?_eq_sample hwhole (by omega) hchannel]
      rfl
    · rw [if_neg (by omega), Segment.getElem?_eq_none hwhole (by omega) hchannel]
      rfl
  · have hlt := (frame_index_lt_iff hchannel).mpr (Nat.lt_of_not_le hfirst)
    rw [if_neg (Nat.not_le.mpr hlt), if_neg (by omega)]

section Parts

variable {β : Type} (position : β → Nat) (part : β → Segment α)

/-- Mixing segments one after another, each at its frame, keeps the format. -/
theorem format_foldl_mixAt (draft : Draft α) (xs : List β) :
    (xs.foldl (fun draft x => draft.mixAt (position x) (part x)) draft).format = draft.format := by
  induction xs generalizing draft with
  | nil => rfl
  | cons x xs ih => exact ih _

/-- Mixing segments one after another keeps the number of samples. -/
theorem size_foldl_mixAt (draft : Draft α) (xs : List β) :
    (xs.foldl (fun draft x => draft.mixAt (position x) (part x)) draft).samples.size =
      draft.samples.size := by
  induction xs generalizing draft with
  | nil => rfl
  | cons x xs ih => exact (ih _).trans (size_mixAt _ _ _)

/-- Mixing segments one after another adds to a sample those that fall on it, in their order. -/
theorem getElem?_foldl_mixAt {draft : Draft α} {format : Format} {xs : List β}
    (hdraft : draft.format = format)
    (hparts : ∀ x ∈ xs, (part x).format = format ∧ (part x).WholeFrames) (frame : Nat)
    {channel : Nat} (hchannel : channel < format.frameSize) :
    (xs.foldl (fun draft x => draft.mixAt (position x) (part x)) draft).samples[
        frame * format.frameSize + channel]? =
      draft.samples[frame * format.frameSize + channel]?.map fun total =>
        (xs.filter fun x => position x ≤ frame ∧ frame < position x + (part x).frames).foldl
          (fun total x => total + (part x).sample (frame - position x) channel) total := by
  induction xs generalizing draft with
  | nil => simp
  | cons x xs ih =>
      obtain ⟨hformat, hwhole⟩ := hparts x List.mem_cons_self
      have hdraft' : (draft.mixAt (position x) (part x)).format = format := hdraft
      have hrest := ih hdraft' fun x' hx' => hparts x' (List.mem_cons_of_mem x hx')
      rw [getElem?_mixAt hdraft hformat hwhole (position x) hchannel] at hrest
      rw [List.foldl_cons, hrest, List.filter_cons]
      simp only [decide_eq_true_eq]
      split
      · rw [Option.map_map]
        rfl
      · rfl

end Parts

/-- Silence keeps the format. -/
@[simp] theorem format_extendFrames (draft : Draft α) (count : Nat) :
    (draft.extendFrames count).format = draft.format := rfl

/-- Silence adds one sample per channel for each frame. -/
@[simp] theorem size_extendFrames (draft : Draft α) (count : Nat) :
    (draft.extendFrames count).samples.size =
      draft.samples.size + count * draft.format.frameSize := by
  simp [extendFrames]

/-- Extending leaves the samples and puts silence after them. -/
theorem getElem?_extendFrames {draft : Draft α} {format : Format} {old count : Nat}
    (hdraft : draft.format = format) (hsize : draft.samples.size = old * format.frameSize)
    {frame channel : Nat} (hframe : frame < old + count) (hchannel : channel < format.frameSize) :
    (draft.extendFrames count).samples[frame * format.frameSize + channel]? =
      if frame < old then draft.samples[frame * format.frameSize + channel]? else some 0.0 := by
  rw [extendFrames, Array.getElem?_append, hsize, hdraft]
  simp only [frame_index_lt_iff hchannel]
  by_cases h : frame < old
  · rw [if_pos h, if_pos h]
  · have hge : old * format.frameSize ≤ frame * format.frameSize + channel :=
      Nat.not_lt.mp fun hlt => h ((frame_index_lt_iff hchannel).mp hlt)
    have hlt := (frame_index_lt_iff hchannel).mpr hframe
    rw [Nat.add_mul] at hlt
    rw [if_neg h, if_neg h, Array.getElem?_replicate, if_pos (by omega)]

end Draft

end SingingVoice
