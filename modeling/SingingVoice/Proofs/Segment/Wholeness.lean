import Mathlib
import SingingVoice.Proofs.Exact.Scalar
import SingingVoice.Proofs.Segment.Sizes
import SingingVoice.Resampling.Sinc
import SingingVoice.Wave.Codec

/-!
# Segments of whole frames

The samples of every segment are whole frames, however it has been made. `Draft.Edit` is one change
of a draft and `Draft.Edits` any number of them; `Segment.Made` lists the ways to make segments,
from samples, from silence, from files, and from segments that have been made. An edit keeps the
format of a draft and its frames whole (`Draft.Edit.whole_frames`), so freezing drops nothing. The
main theorem is `sound_of_made`.
-/

namespace SingingVoice

variable {α : Type}

namespace Draft

/-- The samples are whole frames. -/
def WholeFrames (draft : Draft α) : Prop :=
  draft.samples.size = draft.frames * draft.format.frameSize

/-- So many samples for each frame make a draft of whole frames. -/
theorem whole_frames_of_size {draft : Draft α} {count : Nat}
    (h : draft.samples.size = count * draft.format.frameSize) : draft.WholeFrames := by
  unfold WholeFrames
  rw [frames_of_size h]
  exact h

variable [Scalar α]

/-- One change of a draft: samples are written by themselves or in a window of time, silence is
appended, or a segment is added. -/
inductive Edit : Draft α → Draft α → Prop where
  | set (draft : Draft α) (index : Nat) (x : α) : Edit draft (draft.set index x)
  | window (draft : Draft α) (start stop : α) (f : Nat → α → α) :
      Edit draft (draft.editWindow start stop f)
  | extendFrames (draft : Draft α) (count : Nat) : Edit draft (draft.extendFrames count)
  | extendSilence (draft : Draft α) (ms : α) : Edit draft (draft.extendSilence ms)
  | mixAt (draft : Draft α) (position : Nat) (segment : Segment α) :
      Edit draft (draft.mixAt position segment)

/-- Any number of changes, one after another. -/
abbrev Edits : Draft α → Draft α → Prop :=
  Relation.ReflTransGen Edit

/-- A change keeps the format. -/
theorem Edit.format_eq {draft draft' : Draft α} (h : Edit draft draft') :
    draft'.format = draft.format := by
  cases h <;> rfl

/-- A change keeps the frames whole. -/
theorem Edit.whole_frames {draft draft' : Draft α} (h : Edit draft draft')
    (hwhole : draft.WholeFrames) : draft'.WholeFrames := by
  have hsilence : ∀ count, (draft.extendFrames count).WholeFrames := by
    intro count
    have hsize : (draft.extendFrames count).samples.size =
        (draft.frames + count) * (draft.extendFrames count).format.frameSize := by
      rw [size_extendFrames, hwhole, format_extendFrames, Nat.add_mul]
    exact whole_frames_of_size hsize
  cases h with
  | set index x => exact whole_frames_of_size (Array.size_setIfInBounds.trans hwhole)
  | window start stop f => exact whole_frames_of_size (Array.size_mapIdx.trans hwhole)
  | extendFrames count => exact hsilence count
  | extendSilence ms => exact hsilence _
  | mixAt position segment => exact whole_frames_of_size ((size_mixAt _ _ _).trans hwhole)

/-- Changes keep the format. -/
theorem format_of_edits {draft draft' : Draft α} (h : Edits draft draft') :
    draft'.format = draft.format := by
  induction h with
  | refl => rfl
  | tail _ hedit ih => exact hedit.format_eq.trans ih

/-- Changes keep the frames whole. -/
theorem whole_frames_of_edits {draft draft' : Draft α} (h : Edits draft draft')
    (hwhole : draft.WholeFrames) : draft'.WholeFrames := by
  induction h with
  | refl => exact hwhole
  | tail _ hedit ih => exact hedit.whole_frames ih

/-- The range of a window lies in the draft. -/
theorem window_le (draft : Draft α) (start stop : α) :
    (draft.window start stop).1 ≤ (draft.window start stop).2 ∧
      (draft.window start stop).2 ≤ draft.samples.size :=
  ⟨Nat.mul_le_mul_right _ (Nat.min_le_right _ _),
    Segment.end_of_frames_le (Nat.min_le_right _ _)⟩

/-- Adding several segments, each at its frame, is one change after another. -/
theorem edits_foldl_mixAt {β : Type} (position : β → Nat) (part : β → Segment α)
    (draft : Draft α) (xs : List β) :
    Edits draft (xs.foldl (fun draft x => draft.mixAt (position x) (part x)) draft) := by
  induction xs generalizing draft with
  | nil => exact .refl
  | cons x xs ih => exact .head (.mixAt draft (position x) (part x)) (ih _)

end Draft

namespace Segment

/-- The range of sample indices that a slice of frames is cut from. -/
def sliceRange (segment : Segment α) (start stop : Nat) : Nat × Nat :=
  let stop := min stop segment.frames
  let start := min start stop
  (start * segment.format.frameSize, stop * segment.format.frameSize)

/-- A slice of frames is cut from its range. -/
theorem sliceFrames_eq (segment : Segment α) (start stop : Nat) :
    segment.sliceFrames start stop =
      ⟨segment.samples.extract (segment.sliceRange start stop).1 (segment.sliceRange start stop).2,
        segment.format⟩ := rfl

/-- The range of a slice lies in the segment. -/
theorem sliceRange_le (segment : Segment α) (start stop : Nat) :
    (segment.sliceRange start stop).1 ≤ (segment.sliceRange start stop).2 ∧
      (segment.sliceRange start stop).2 ≤ segment.samples.size :=
  ⟨Nat.mul_le_mul_right _ (Nat.min_le_right _ _), end_of_frames_le (Nat.min_le_right _ _)⟩

variable [Scalar α]

/-- A segment in a wave file is made of whole frames. -/
theorem whole_frames_ofWave {bytes : List UInt8} {segment : Segment α}
    (h : ofWave bytes = .ok segment) : segment.WholeFrames := by
  unfold ofWave at h
  split at h
  · cases h
  · split at h
    · split at h
      · cases h
      · cases h
        exact whole_frames_ofSamples _ _
    · cases h

/-- An edit of a segment of whole frames is frozen with all its samples. -/
theorem freeze_of_edits {segment : Segment α} (hwhole : segment.WholeFrames) {draft : Draft α}
    (h : Draft.Edits segment.draft draft) :
    draft.WholeFrames ∧ draft.format = segment.format ∧
      draft.freeze = ⟨draft.samples, segment.format⟩ := by
  have hdraft : draft.WholeFrames := Draft.whole_frames_of_edits h hwhole
  have hformat : draft.format = segment.format := Draft.format_of_edits h
  refine ⟨hdraft, hformat, ?_⟩
  rw [Draft.freeze_of_size hdraft, hformat]

variable [Resampler α]

/-- The segments that can be made: from samples, silence and files, and from other segments. -/
inductive Made : Segment α → Prop where
  | ofSamples (format : Format) (samples : Array α) : Made (ofSamples format samples)
  | silence (format : Format) (ms : α) : Made (silence format ms)
  | empty (format : Format) : Made (empty format)
  | ofWave {bytes : List UInt8} {segment : Segment α} : ofWave bytes = .ok segment → Made segment
  | slice {segment : Segment α} (start? stop? : Option α) :
      Made segment → Made (segment.slice start? stop?)
  | sliceFrames {segment : Segment α} (start stop : Nat) :
      Made segment → Made (segment.sliceFrames start stop)
  | append {first second result : Segment α} {ms : α} :
      Made first → Made second → first.append second ms = .ok result → Made result
  | overlay {base other result : Segment α} {position : α} :
      Made base → Made other → base.overlay other position = .ok result → Made result
  | overlayRepeat {base other result : Segment α} {position : α} {repetition : Repetition} :
      Made base → Made other → base.overlayRepeat other position repetition = .ok result →
      Made result
  | fade {segment result : Segment α} {fromGain toGain : α} {start? stop? : Option α} :
      Made segment → segment.fade fromGain toGain start? stop? = .ok result → Made result
  | gain {segment : Segment α} (gain : α) : Made segment → Made (segment.gain gain)
  | setChannels {segment : Segment α} (channels : Channels) :
      Made segment → Made (segment.setChannels channels)
  | conform {segment result : Segment α} {format : Format} :
      Made segment → segment.conform format = .ok result → Made result
  | resample {segment result : Segment α} {rate : Nat} :
      Made segment → segment.resample rate = .ok result → Made result
  | respeed {segment result : Segment α} {ratio : α} :
      Made segment → segment.respeed ratio = .ok result → Made result
  | mix {format : Format} {tracks : List (Segment α)} {result : Segment α} :
      (∀ track ∈ tracks, Made track) → mix format tracks = .ok result → Made result
  | edit {segment : Segment α} {draft : Draft α} :
      Made segment → Draft.Edits segment.draft draft → Made draft.freeze

/-- An overlay is an edit of its base. -/
theorem edits_of_overlayRepeat {base other result : Segment α} {position : α}
    {repetition : Repetition} (h : base.overlayRepeat other position repetition = .ok result) :
    ∃ draft, Draft.Edits base.draft draft ∧ result = draft.freeze := by
  obtain ⟨conformed, -, h⟩ := Except.bind_eq_ok.mp h
  cases h
  exact ⟨_, Draft.edits_foldl_mixAt id (fun _ => conformed) _ _, rfl⟩

/-- A mix is an edit of silence. -/
theorem edits_of_mix {format : Format} {tracks : List (Segment α)} {result : Segment α}
    (h : mix format tracks = .ok result) :
    ∃ count draft, Draft.Edits (silentFrames format count).draft draft ∧ result = draft.freeze := by
  obtain ⟨conformed, -, h⟩ := Except.bind_eq_ok.mp h
  cases h
  exact ⟨_, _, Draft.edits_foldl_mixAt (fun _ => 0) id _ _, rfl⟩

/-- Every segment that can be made is made of whole frames. -/
theorem Made.whole_frames {segment : Segment α} (h : Made segment) : segment.WholeFrames := by
  induction h with
  | ofSamples format samples => exact whole_frames_ofSamples format samples
  | silence format ms => exact whole_frames_silentFrames format _
  | empty format => exact whole_frames_of_size (Nat.zero_mul _).symm
  | ofWave h => exact whole_frames_ofWave h
  | slice | sliceFrames => exact whole_frames_sliceFrames _ _ _
  | append _ _ h ihfirst ihsecond => exact (frames_append ihfirst ihsecond h).2.1
  -- an overlay and a mix end with an edit that is frozen
  | overlay _ _ h | overlayRepeat _ _ h =>
      obtain ⟨draft, -, rfl⟩ := edits_of_overlayRepeat h
      exact whole_frames_ofSamples _ _
  | fade _ h ih => exact whole_frames_fade ih h
  | gain gain _ ih => exact whole_frames_gain ih gain
  | setChannels channels _ ih => exact whole_frames_setChannels ih channels
  | conform _ h ih => exact whole_frames_conform ih h
  | resample _ h ih => exact whole_frames_resample ih h
  | respeed _ h => exact whole_frames_respeed h
  | mix _ h =>
      obtain ⟨count, draft, -, rfl⟩ := edits_of_mix h
      exact whole_frames_ofSamples _ _
  | edit _ _ => exact whole_frames_ofSamples _ _

/-- An overlay keeps the format of its base. -/
theorem format_overlayRepeat {base other result : Segment α} {position : α}
    {repetition : Repetition} (h : base.overlayRepeat other position repetition = .ok result) :
    result.format = base.format := by
  obtain ⟨draft, hedits, rfl⟩ := edits_of_overlayRepeat h
  exact Draft.format_of_edits hedits

/-- What holds of a segment however it has been made. -/
structure Sound (segment : Segment α) : Prop where
  /-- The samples are whole frames. -/
  whole : segment.WholeFrames
  /-- A draft made from the segment has its format and whole frames, all of which are frozen. -/
  edit : ∀ draft, Draft.Edits segment.draft draft →
    draft.WholeFrames ∧ draft.format = segment.format ∧
      draft.freeze = ⟨draft.samples, segment.format⟩
  /-- No window of such a draft reaches past its end. -/
  window : ∀ draft, Draft.Edits segment.draft draft → ∀ start stop : α,
    (draft.window start stop).1 ≤ (draft.window start stop).2 ∧
      (draft.window start stop).2 ≤ draft.samples.size
  /-- A slice is cut from a range of indices that does not reach past the end of the segment. -/
  sliceRange : ∀ start stop,
    segment.sliceFrames start stop = ⟨segment.samples.extract
      (segment.sliceRange start stop).1 (segment.sliceRange start stop).2, segment.format⟩ ∧
    (segment.sliceRange start stop).1 ≤ (segment.sliceRange start stop).2 ∧
    (segment.sliceRange start stop).2 ≤ segment.samples.size
  /-- Nor does a cut between two of its frames. -/
  cut : ∀ count ≤ segment.frames, count * segment.format.frameSize ≤ segment.samples.size
  /-- Slices keep the format. -/
  slice : ∀ start? stop? : Option α, (segment.slice start? stop?).format = segment.format
  /-- Gains keep the format. -/
  gain : ∀ gain : α, (segment.gain gain).format = segment.format
  /-- Fades keep the format. -/
  fade : ∀ (fromGain toGain : α) start? stop? result,
    segment.fade fromGain toGain start? stop? = .ok result → result.format = segment.format
  /-- Overlays keep the format. -/
  overlay : ∀ other position result,
    segment.overlay other position = .ok result → result.format = segment.format
  /-- Repeated overlays keep the format. -/
  overlayRepeat : ∀ other position repetition result,
    segment.overlayRepeat other position repetition = .ok result → result.format = segment.format
  /-- What is appended is brought to the format, and none of its frames is lost but for those that
  overlap. -/
  append : ∀ other ms result, Made other → segment.append other ms = .ok result →
    result.format = segment.format ∧ ∃ conformed overlap,
      other.conform segment.format = .ok conformed ∧
      overlap ≤ segment.frames ∧ overlap ≤ conformed.frames ∧
      result.frames + overlap = segment.frames + conformed.frames
  /-- The samples of a conversion are whole frames. -/
  convert : ∀ ratio samples, segment.convert ratio = .ok samples →
    ofSamples segment.format samples = ⟨samples, segment.format⟩
  /-- A converted segment has the format that is asked for. -/
  conform : ∀ format result, segment.conform format = .ok result → result.format = format
  /-- A conversion to the format that the segment has changes nothing. -/
  conformSelf : segment.conform segment.format = .ok segment

/-- A segment that has been made by any operations, one after another, is sound. -/
theorem sound_of_made {segment : Segment α} (h : Made segment) : Sound segment where
  whole := h.whole_frames
  edit _ hedits := freeze_of_edits h.whole_frames hedits
  window draft _ start stop := draft.window_le start stop
  sliceRange start stop := ⟨sliceFrames_eq segment start stop, segment.sliceRange_le start stop⟩
  cut _ hcount := end_of_frames_le hcount
  slice _ _ := rfl
  gain _ := rfl
  fade _ _ _ _ _ hfade := (size_fade hfade).1
  overlay _ _ _ hoverlay := format_overlayRepeat hoverlay
  overlayRepeat _ _ _ _ hoverlay := format_overlayRepeat hoverlay
  append other ms result hother happend := by
    obtain ⟨hformat, -, hframes⟩ := frames_append h.whole_frames hother.whole_frames happend
    exact ⟨hformat, hframes⟩
  convert _ _ hsamples := ofSamples_of_size (size_convert hsamples)
  conform _ _ hconform := format_conform hconform
  conformSelf := conform_self rfl

/-- Two and a half stereo frames are made a segment of two, and with a written sample and a silent
frame one of three. -/
theorem sound_of_edited_stereo :
    let segment : Segment ℝ := ofSamples ⟨1000, .stereo⟩ #[1, 2, 3, 4, 5]
    let draft := (segment.draft.set 1 7).extendFrames 1
    Made draft.freeze ∧ Sound draft.freeze ∧ draft.freeze.frames = 3 := by
  intro segment draft
  have hedits : Draft.Edits segment.draft draft :=
    .head (.set segment.draft 1 7) (.single (.extendFrames _ 1))
  have hmade : Made draft.freeze := .edit (.ofSamples _ _) hedits
  have hsize : draft.samples.size = 3 * 2 := rfl
  have hframes : draft.freeze.frames = 3 := by
    rw [Draft.freeze, frames_ofSamples, hsize]
    exact Nat.mul_div_cancel 3 Nat.two_pos
  exact ⟨hmade, sound_of_made hmade, hframes⟩

end Segment

end SingingVoice
