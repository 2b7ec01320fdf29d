import Mathlib
import SingingVoice.Proofs.Segment.Regions
import SingingVoice.Proofs.Segment.Wholeness

/-!
# Windows of drafts

The window of a draft between two times and the slice of a segment between the same times are cut
separately, and are the same samples (`Segment.windowSamples_draft`): those of the frames that the
format selects for the two times (`Format.Selects`), whatever the times are. So an edit of a window
replaces a slice and nothing else (`Segment.applyEdit_eq_iff`), edits one after another are
successive replacements (`Segment.draft_foldl_applyEdit`), and edits of disjoint windows commute
(`Draft.applyEdit_comm`).
-/

namespace SingingVoice

variable {α : Type} [Scalar α]

/-- A frame lies between two times: not before the frame of the first, and before the frame of the
second. Between times in the wrong order there is no frame. -/
def Format.Selects (format : Format) (start stop : α) (frame : Nat) : Prop :=
  format.framesIn start ≤ frame ∧ frame < format.framesIn stop

instance (format : Format) (start stop : α) (frame : Nat) :
    Decidable (format.Selects start stop frame) :=
  inferInstanceAs (Decidable (_ ∧ _))

/-- An edit of a window: its times and what is done with every sample, given its index in the
window. -/
structure WindowEdit (α : Type) where
  /-- The time from which the window goes. -/
  start : α
  /-- The time up to which the window goes. -/
  stop : α
  /-- The sample that takes the place of one at an index. -/
  replace : Nat → α → α

namespace WindowEdit

/-- The edit that writes given samples over a window. -/
def overwrite (start stop : α) (content : Array α) : WindowEdit α :=
  ⟨start, stop, fun i x => content.getD i x⟩

/-- Of so many frames none is in the windows of both edits. -/
def Disjoint (format : Format) (frames : Nat) (first second : WindowEdit α) : Prop :=
  ∀ frame < frames, format.Selects first.start first.stop frame →
    ¬ format.Selects second.start second.stop frame

omit [Scalar α] in
/-- As many samples as there are take the place of all. -/
theorem mapIdx_overwrite {start stop : α} {content samples : Array α}
    (hsize : content.size = samples.size) :
    samples.mapIdx (overwrite start stop content).replace = content := by
  refine Array.ext_getElem? fun place => ?_
  rw [Array.getElem?_mapIdx, overwrite]
  by_cases hplace : place < content.size
  · have hplace' : place < samples.size := hsize ▸ hplace
    simp [hplace, hplace']
  · have hend := Nat.not_lt.mp hplace
    rw [Array.getElem?_eq_none hend, Array.getElem?_eq_none (hsize ▸ hend)]
    rfl

end WindowEdit

/-! ## Drafts -/

namespace Draft

/-- The samples of a window. -/
def windowSamples (draft : Draft α) (start stop : α) : Array α :=
  draft.samples.extract (draft.window start stop).1 (draft.window start stop).2

/-- Edits a window. -/
def applyEdit (draft : Draft α) (edit : WindowEdit α) : Draft α :=
  draft.editWindow edit.start edit.stop edit.replace

/-- Edits windows one after another. -/
def applyEdits (draft : Draft α) (edits : List (WindowEdit α)) : Draft α :=
  edits.foldl applyEdit draft

variable {draft : Draft α} {start stop : α} {first second edit : WindowEdit α}

/-- The places of a window are those of the frames that it selects. -/
theorem mem_window_iff {place : Nat} :
    (draft.window start stop).1 ≤ place ∧ place < (draft.window start stop).2 ↔
      place / draft.format.frameSize < draft.frames ∧
        draft.format.Selects start stop (place / draft.format.frameSize) := by
  have hpos := draft.format.frameSize_pos
  unfold window Format.Selects
  dsimp only
  rw [← Nat.le_div_iff_mul_le hpos, ← Nat.div_lt_iff_lt_mul hpos]
  omega

/-- Editing a window keeps the format. -/
@[simp] theorem format_applyEdit (draft : Draft α) (edit : WindowEdit α) :
    (draft.applyEdit edit).format = draft.format := rfl

/-- Editing a window keeps the number of samples. -/
@[simp] theorem size_applyEdit (draft : Draft α) (edit : WindowEdit α) :
    (draft.applyEdit edit).samples.size = draft.samples.size :=
  Array.size_mapIdx

/-- Editing a window keeps the number of frames. -/
@[simp] theorem frames_applyEdit (draft : Draft α) (edit : WindowEdit α) :
    (draft.applyEdit edit).frames = draft.frames := by
  rw [frames, frames, size_applyEdit, format_applyEdit]

/-- Editing a window leaves all windows where they are. -/
@[simp] theorem window_applyEdit (draft : Draft α) (edit : WindowEdit α) (start stop : α) :
    (draft.applyEdit edit).window start stop = draft.window start stop := by
  simp only [window, frames_applyEdit, format_applyEdit]

/-- The samples of the frames that a window selects are replaced, and the others stay. -/
theorem getElem?_applyEdit (draft : Draft α) (edit : WindowEdit α) (place : Nat) :
    (draft.applyEdit edit).samples[place]? = draft.samples[place]?.map fun x =>
      if place / draft.format.frameSize < draft.frames ∧
          draft.format.Selects edit.start edit.stop (place / draft.format.frameSize) then
        edit.replace (place - (draft.window edit.start edit.stop).1) x
      else x := by
  rw [applyEdit, editWindow]
  dsimp only
  rw [Array.getElem?_mapIdx]
  simp only [mem_window_iff]

/-- Every sample of the window is replaced. -/
theorem windowSamples_applyEdit (draft : Draft α) (edit : WindowEdit α) :
    (draft.applyEdit edit).windowSamples edit.start edit.stop =
      (draft.windowSamples edit.start edit.stop).mapIdx edit.replace := by
  obtain ⟨-, hend⟩ := draft.window_le edit.start edit.stop
  refine Array.ext_getElem? fun i => ?_
  rw [Array.getElem?_mapIdx, windowSamples, windowSamples, window_applyEdit,
    Array.getElem?_extract, Array.getElem?_extract, size_applyEdit, Nat.min_eq_left hend]
  split
  · rename_i hi
    have hplace : (draft.window edit.start edit.stop).1 ≤
          (draft.window edit.start edit.stop).1 + i ∧
        (draft.window edit.start edit.stop).1 + i < (draft.window edit.start edit.stop).2 := by
      omega
    simp only [getElem?_applyEdit, if_pos (mem_window_iff.mp hplace), Nat.add_sub_cancel_left]
  · rfl

/-- Edits of disjoint windows may be made in either order. -/
theorem applyEdit_comm (h : WindowEdit.Disjoint draft.format draft.frames first second) :
    (draft.applyEdit first).applyEdit second = (draft.applyEdit second).applyEdit first := by
  have hsamples : ((draft.applyEdit first).applyEdit second).samples =
      ((draft.applyEdit second).applyEdit first).samples := by
    refine Array.ext_getElem? fun place => ?_
    simp only [getElem?_applyEdit, format_applyEdit, frames_applyEdit, window_applyEdit,
      Option.map_map]
    congr 1
    funext x
    -- one edit at most changes the sample at a place
    by_cases hfirst : place / draft.format.frameSize < draft.frames ∧
        draft.format.Selects first.start first.stop (place / draft.format.frameSize)
    · simp only [Function.comp_apply, h _ hfirst.1 hfirst.2, and_false, ↓reduceIte]
    · simp only [Function.comp_apply, hfirst, ↓reduceIte]
  exact congrArg (Draft.mk · draft.format) hsamples

/-- Edits one after another keep the format. -/
@[simp] theorem format_applyEdits (draft : Draft α) (edits : List (WindowEdit α)) :
    (draft.applyEdits edits).format = draft.format := by
  induction edits generalizing draft with
  | nil => rfl
  | cons edit edits ih => exact (ih _).trans (format_applyEdit draft edit)

/-- Edits one after another keep the number of frames. -/
@[simp] theorem frames_applyEdits (draft : Draft α) (edits : List (WindowEdit α)) :
    (draft.applyEdits edits).frames = draft.frames := by
  induction edits generalizing draft with
  | nil => rfl
  | cons edit edits ih => exact (ih _).trans (frames_applyEdit draft edit)

/-- Two successive edits of disjoint windows may change places, whatever is done before and
after. -/
theorem applyEdits_swap (before after : List (WindowEdit α))
    (h : WindowEdit.Disjoint draft.format draft.frames first second) :
    draft.applyEdits (before ++ first :: second :: after) =
      draft.applyEdits (before ++ second :: first :: after) := by
  rw [← format_applyEdits draft before, ← frames_applyEdits draft before] at h
  have hcomm := applyEdit_comm h
  simp only [applyEdits, List.foldl_append, List.foldl_cons] at hcomm ⊢
  rw [hcomm]

end Draft

/-! ## Segments -/

namespace Segment

/-- The segment with a window edited. -/
def applyEdit (segment : Segment α) (edit : WindowEdit α) : Segment α :=
  (segment.draft.applyEdit edit).freeze

/-- What a segment is whose samples between two times have been written over: the slice between the
times is what has been written, and everything else is as before. -/
structure Overwritten (segment : Segment α) (start stop : α) (content : Array α)
    (result : Segment α) : Prop where
  format : result.format = segment.format
  whole : result.WholeFrames
  frames : result.frames = segment.frames
  inside : result.slice (some start) (some stop) = ⟨content, segment.format⟩
  outside : ∀ frame < segment.frames, ¬ segment.format.Selects start stop frame →
    ∀ channel < segment.format.frameSize, result.sample frame channel = segment.sample frame channel

variable {segment result result' : Segment α} {start stop : α} {content : Array α}

/-- A window of a draft that has just been made and a slice of the segment are the same samples. -/
theorem windowSamples_draft (segment : Segment α) (start stop : α) :
    segment.draft.windowSamples start stop = (segment.slice (some start) (some stop)).samples := rfl

/-- A slice is the region of the frames that are selected. -/
theorem exists_region_slice (segment : Segment α) (start stop : α) :
    ∃ first last, segment.Region first last (segment.slice (some start) (some stop)) ∧
      ∀ frame, first ≤ frame ∧ frame < last ↔
        frame < segment.frames ∧ segment.format.Selects start stop frame := by
  have hregion := segment.region_sliceFrames_cut (segment.format.framesIn start)
    (segment.format.framesIn stop)
  refine ⟨_, _, hregion, fun frame => ?_⟩
  rw [Format.Selects]
  omega

/-- A frame that is selected is in the slice. -/
theorem sample_of_selects {frame channel : Nat} (hframe : frame < segment.frames)
    (hselects : segment.format.Selects start stop frame)
    (hchannel : channel < segment.format.frameSize) :
    segment.sample frame channel = (segment.slice (some start) (some stop)).sample
      (frame - segment.format.framesIn start) channel := by
  obtain ⟨hstart, hstop⟩ := hselects
  have hinside : frame - segment.format.framesIn start <
      (segment.slice (some start) (some stop)).frames := by
    rw [slice, frames_sliceFrames, Option.elim_some, Option.elim_some]
    omega
  have hplace : min (segment.format.framesIn start) (min (segment.format.framesIn stop)
      segment.frames) + (frame - segment.format.framesIn start) = frame := by
    omega
  rw [slice, sample_sliceFrames hinside hchannel, Option.elim_some, Option.elim_some, hplace]

/-- There is one segment at most in which certain samples have been written over a slice. -/
theorem Overwritten.unique (h : Overwritten segment start stop content result)
    (h' : Overwritten segment start stop content result') : result = result' := by
  have hformat : result.format = result'.format := h.format.trans h'.format.symm
  refine ext_sample h.whole h'.whole hformat (h.frames.trans h'.frames.symm) ?_
  intro frame hframe channel hchannel
  rw [h'.frames] at hframe
  rw [h'.format] at hchannel
  -- inside the window both have the samples of one slice
  by_cases hselects : segment.format.Selects start stop frame
  · have hsample := sample_of_selects (h.frames ▸ hframe) (h.format ▸ hselects)
      (h.format ▸ hchannel)
    have hsample' := sample_of_selects (h'.frames ▸ hframe) (h'.format ▸ hselects)
      (h'.format ▸ hchannel)
    rw [hsample, hsample', h.inside, h'.inside, hformat]
  · rw [h.outside frame hframe hselects channel hchannel,
      h'.outside frame hframe hselects channel hchannel]

/-- An edited segment is frozen as a whole. -/
theorem draft_applyEdit (hwhole : segment.WholeFrames) (edit : WindowEdit α) :
    (segment.applyEdit edit).WholeFrames ∧
      (segment.applyEdit edit).draft = segment.draft.applyEdit edit := by
  have hedit : Draft.Edit segment.draft (segment.draft.applyEdit edit) := .window _ _ _ _
  obtain ⟨-, -, hfreeze⟩ := freeze_of_edits hwhole (.single hedit)
  refine ⟨whole_frames_ofSamples _ _, ?_⟩
  rw [applyEdit, hfreeze]
  rfl

/-- The slice of what has been edited holds the samples of the slice, each of them replaced. -/
theorem slice_applyEdit (hwhole : segment.WholeFrames) (edit : WindowEdit α) :
    (segment.applyEdit edit).slice (some edit.start) (some edit.stop) =
      ⟨(segment.slice (some edit.start) (some edit.stop)).samples.mapIdx edit.replace,
        segment.format⟩ := by
  obtain ⟨-, hdraft⟩ := draft_applyEdit hwhole edit
  have hsamples := segment.draft.windowSamples_applyEdit edit
  rw [← hdraft, windowSamples_draft, windowSamples_draft] at hsamples
  exact congrArg (Segment.mk · segment.format) hsamples

/-- Editing a window writes over it and leaves everything else. -/
theorem overwritten_applyEdit (hwhole : segment.WholeFrames) (edit : WindowEdit α) :
    Overwritten segment edit.start edit.stop
      ((segment.slice (some edit.start) (some edit.stop)).samples.mapIdx edit.replace)
      (segment.applyEdit edit) := by
  obtain ⟨hresult, hdraft⟩ := draft_applyEdit hwhole edit
  have hframes : (segment.applyEdit edit).frames = segment.frames := by
    have hkept := segment.draft.frames_applyEdit edit
    rw [← hdraft] at hkept
    exact hkept
  refine ⟨rfl, hresult, hframes, slice_applyEdit hwhole edit, ?_⟩
  intro frame _ hselects channel hchannel
  have hstored := segment.draft.getElem?_applyEdit edit
    (frame * segment.format.frameSize + channel)
  have hdraftformat : segment.draft.format = segment.format := rfl
  rw [← hdraft, hdraftformat, frame_of_place hchannel] at hstored
  simp only [hselects, and_false, ↓reduceIte, Option.map_id'] at hstored
  have hkept : (segment.applyEdit edit).samples[frame * segment.format.frameSize + channel]? =
      segment.samples[frame * segment.format.frameSize + channel]? := hstored
  show (segment.applyEdit edit).samples.getD (frame * segment.format.frameSize + channel) 0.0 = _
  rw [sample, Array.getD_eq_getD_getElem?, Array.getD_eq_getD_getElem?, hkept]

/-- Writing as many samples as there are over a window writes exactly these. -/
theorem applyEdit_eq_iff (hwhole : segment.WholeFrames)
    (hsize : content.size = (segment.slice (some start) (some stop)).samples.size) :
    segment.applyEdit (.overwrite start stop content) = result ↔
      Overwritten segment start stop content result := by
  have hwritten : Overwritten segment start stop
      ((segment.slice (some start) (some stop)).samples.mapIdx
        (WindowEdit.overwrite start stop content).replace)
      (segment.applyEdit (.overwrite start stop content)) :=
    overwritten_applyEdit hwhole (.overwrite start stop content)
  rw [WindowEdit.mapIdx_overwrite hsize] at hwritten
  constructor
  · rintro rfl
    exact hwritten
  · exact hwritten.unique

/-- Every edit of a window writes some samples over it. -/
theorem applyEdit_eq_overwrite (hwhole : segment.WholeFrames) (edit : WindowEdit α) :
    segment.applyEdit edit = segment.applyEdit (.overwrite edit.start edit.stop
      ((segment.slice (some edit.start) (some edit.stop)).samples.mapIdx edit.replace)) :=
  ((applyEdit_eq_iff hwhole Array.size_mapIdx).mpr (overwritten_applyEdit hwhole edit)).symm

/-- A draft whose windows are edited one after another is the one of the segment whose slices are
replaced one after another. -/
theorem draft_foldl_applyEdit (hwhole : segment.WholeFrames) (edits : List (WindowEdit α)) :
    (edits.foldl applyEdit segment).WholeFrames ∧
      (edits.foldl applyEdit segment).draft = segment.draft.applyEdits edits := by
  induction edits generalizing segment with
  | nil => exact ⟨hwhole, rfl⟩
  | cons edit edits ih =>
      obtain ⟨hedited, hdraft⟩ := draft_applyEdit hwhole edit
      obtain ⟨hresult, hrest⟩ := ih hedited
      exact ⟨hresult, hrest.trans (congrArg (Draft.applyEdits · edits) hdraft)⟩

/-- A window and a slice select the same frames, whatever the times are: the samples of the window
are those of the slice, which is the region of the frames that are selected. Writing over the window
and freezing gives the segment in which the slice is what has been written and every other sample,
the format and the number of frames are as before, and no other segment; and whatever is done to
the samples of a window writes something over it. Windows that are edited one after another are
successive changes of this kind, and those of disjoint windows may change places. -/
theorem window_replaces_slice (hwhole : segment.WholeFrames) :
    (∀ start stop : α,
      segment.draft.windowSamples start stop =
        (segment.slice (some start) (some stop)).samples ∧
      ∃ first last, segment.Region first last (segment.slice (some start) (some stop)) ∧
        ∀ frame, first ≤ frame ∧ frame < last ↔
          frame < segment.frames ∧ segment.format.Selects start stop frame) ∧
    (∀ (start stop : α) (content : Array α),
      content.size = (segment.draft.windowSamples start stop).size → ∀ result,
        segment.applyEdit (.overwrite start stop content) = result ↔
          Overwritten segment start stop content result) ∧
    (∀ edit : WindowEdit α, segment.applyEdit edit = segment.applyEdit (.overwrite edit.start
      edit.stop ((segment.draft.windowSamples edit.start edit.stop).mapIdx edit.replace))) ∧
    (∀ edits : List (WindowEdit α),
      (segment.draft.applyEdits edits).freeze = edits.foldl applyEdit segment ∧
      segment.draft.applyEdits edits = (edits.foldl applyEdit segment).draft ∧
      (edits.foldl applyEdit segment).WholeFrames) ∧
    ∀ (before after : List (WindowEdit α)) (first second : WindowEdit α),
      WindowEdit.Disjoint segment.format segment.frames first second →
        segment.draft.applyEdits (before ++ first :: second :: after) =
          segment.draft.applyEdits (before ++ second :: first :: after) := by
  refine ⟨fun start stop => ⟨rfl, segment.exists_region_slice start stop⟩,
    fun start stop content hsize result => applyEdit_eq_iff hwhole hsize,
    applyEdit_eq_overwrite hwhole, fun edits => ?_,
    fun before after first second hdisjoint => Draft.applyEdits_swap before after hdisjoint⟩
  obtain ⟨hresult, hdraft⟩ := draft_foldl_applyEdit hwhole edits
  refine ⟨?_, hdraft.symm, hresult⟩
  rw [← hdraft]
  exact ofSamples_of_size hresult

/-- The middle one of three stereo frames is written over, and nothing is when the window is the
wrong way round. -/
theorem middle_frame_overwritten :
    let segment : Segment ℝ := ⟨#[1, 2, 3, 4, 5, 6], ⟨1000, .stereo⟩⟩
    segment.WholeFrames ∧
      segment.applyEdit (.overwrite 1 2 #[7, 8]) = ⟨#[1, 2, 7, 8, 5, 6], ⟨1000, .stereo⟩⟩ ∧
      segment.applyEdit (.overwrite 2 1 #[]) = segment := by
  intro segment
  have hwhole : segment.WholeFrames := whole_frames_of_size (rfl : _ = 3 * 2)
  have hframes : segment.frames = 3 := frames_of_size rfl
  have hone : segment.format.framesIn (1 : ℝ) = 1 := by
    exact_mod_cast Format.framesIn_of_thousand 1
  have htwo : segment.format.framesIn (2 : ℝ) = 2 := by
    exact_mod_cast Format.framesIn_of_thousand 2
  obtain ⟨-, hoverwrite, -⟩ := window_replaces_slice hwhole
  have hmiddle : segment.slice (some 1) (some 2) = ⟨#[3, 4], ⟨1000, .stereo⟩⟩ := by
    rw [slice, Option.elim_some, Option.elim_some, hone, htwo,
      sliceFrames_of_le (by decide) (hframes ▸ by decide)]
    simp [segment, Format.frameSize, Channels.count]
  have hnothing : segment.slice (some 2) (some 1) = ⟨#[], ⟨1000, .stereo⟩⟩ := by
    rw [slice, Option.elim_some, Option.elim_some, hone, htwo, sliceFrames, hframes]
    simp [segment, Format.frameSize, Channels.count]
  refine ⟨hwhole, ?_, ?_⟩
  · rw [hoverwrite 1 2 #[7, 8] (by rw [windowSamples_draft, hmiddle]; rfl)]
    refine ⟨rfl, whole_frames_of_size (rfl : _ = 3 * 2), rfl, ?_, ?_⟩
    · rw [slice, Option.elim_some, Option.elim_some]
      show sliceFrames _ (segment.format.framesIn 1) (segment.format.framesIn 2) = _
      rw [hone, htwo, sliceFrames_of_le (by decide) (by decide)]
      simp [segment, Format.frameSize, Channels.count]
    · intro frame hframe hselects channel hchannel
      rw [Format.Selects, hone, htwo] at hselects
      have hends : frame = 0 ∨ frame = 2 := by omega
      have hchannel : channel < 2 := hchannel
      rcases hends with rfl | rfl <;> interval_cases channel <;> rfl
  · rw [hoverwrite 2 1 #[] (by rw [windowSamples_draft, hnothing])]
    exact ⟨rfl, hwhole, rfl, hnothing, fun _ _ _ _ _ => rfl⟩

end Segment

end SingingVoice
