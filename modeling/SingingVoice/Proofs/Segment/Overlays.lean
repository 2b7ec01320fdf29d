import Mathlib
import SingingVoice.Proofs.Exact.Duration
import SingingVoice.Proofs.Segment.Parts
import SingingVoice.Resampling.Sinc
import SingingVoice.Segment.Overlay

/-!
# Overlays in closed form

An overlay adds to every frame of its base the frames of the other segment that fall on it, and is
as long as its base (`overlayRepeat_closed_form`). Repetitions follow each other back to back, so a
frame lies in one of them at most (`Repetition.covering_eq`). Repeating a segment up to the end of
the base is a loop, which ends unless it stands still (`Draft.looped_iff`,
`Draft.exists_looped_iff`).
-/

namespace SingingVoice

/-! ## Repetitions -/

namespace Repetition

/-- The repetition with an index is made. -/
def Makes : Repetition → Nat → Prop
  | once, i => i = 0
  | times count, i => i < count
  | loop, _ => True

instance (repetition : Repetition) (i : Nat) : Decidable (repetition.Makes i) :=
  match repetition with
  | once => inferInstanceAs (Decidable (i = 0))
  | times count => inferInstanceAs (Decidable (i < count))
  | loop => inferInstanceAs (Decidable True)

/-- The positions of counted repetitions of `step` frames, the first one at `start`, are words up to
the end of the last one. -/
def Fits (repetition : Repetition) (start step : Nat) : Prop :=
  ∀ count, repetition = times count → start + count * step < Word.count 64

/-- A frame lies in the repetition with an index. -/
def Covers (start step frame i : Nat) : Prop :=
  start + i * step ≤ frame ∧ frame < start + i * step + step

instance (start step frame i : Nat) : Decidable (Covers start step frame i) :=
  inferInstanceAs (Decidable (_ ∧ _))

/-- The repetitions that are made and that a frame lies in, in their order. -/
def covering (repetition : Repetition) (start step frame : Nat) : List Nat :=
  (List.range (frame + 1)).filter fun i => repetition.Makes i ∧ Covers start step frame i

variable {repetition other : Repetition} {start step frames frame i : Nat}

/-- Only repetitions that have frames cover any. -/
theorem Covers.step_pos (h : Covers start step frame i) : 0 < step := by
  obtain ⟨hfirst, hlast⟩ := h
  omega

/-- Which repetition a frame lies in is a division by their length. -/
theorem covers_iff (hstep : 0 < step) :
    Covers start step frame i ↔ start ≤ frame ∧ i = (frame - start) / step := by
  rw [Covers, eq_comm, Nat.div_eq_iff hstep]
  have hcomm : step * i = i * step := Nat.mul_comm step i
  constructor
  · intro h
    omega
  · intro h
    omega

/-- The repetitions that a frame lies in are those that are made and cover it. -/
theorem mem_covering :
    i ∈ repetition.covering start step frame ↔ repetition.Makes i ∧ Covers start step frame i := by
  rw [covering, List.mem_filter, List.mem_range, decide_eq_true_eq]
  refine ⟨And.right, fun h => ⟨?_, h⟩⟩
  have hle : i ≤ i * step := Nat.le_mul_of_pos_right i h.2.step_pos
  have hfirst := h.2.1
  omega

/-- The repetitions that a frame lies in are listed in increasing order. -/
theorem pairwise_covering : (repetition.covering start step frame).Pairwise (· < ·) :=
  List.pairwise_lt_range.filter _

/-- A frame lies in one repetition at most. -/
theorem covering_eq (hstep : 0 < step) :
    repetition.covering start step frame =
      if start ≤ frame ∧ repetition.Makes ((frame - start) / step) then [(frame - start) / step]
      else [] := by
  split_ifs with h
  · refine List.Pairwise.eq_of_mem_iff pairwise_covering (List.pairwise_singleton _ _) fun i => ?_
    rw [mem_covering, covers_iff hstep, List.mem_singleton]
    constructor
    · exact fun h => h.2.2
    · rintro rfl
      exact ⟨h.2, h.1, rfl⟩
  · rw [List.eq_nil_iff_forall_not_mem]
    intro i hi
    obtain ⟨hmakes, hcovers⟩ := mem_covering.mp hi
    obtain ⟨hle, rfl⟩ := (covers_iff hstep).mp hcovers
    exact h ⟨hle, hmakes⟩

/-- Two ways of repeating cover a frame alike if they make the same repetitions that it lies in. -/
theorem covering_congr
    (h : ∀ i, Covers start step frame i → (repetition.Makes i ↔ other.Makes i)) :
    repetition.covering start step frame = other.covering start step frame := by
  refine List.filter_congr fun i _ => decide_eq_decide.mpr (and_congr_left (h i))

/-- Repetitions are counted that start before the base ends. -/
theorem lt_reach_iff (hstep : 0 < step) (start frames i : Nat) :
    i < reach start step frames ↔ start + i * step < frames := by
  rw [reach, ← Nat.succ_le_iff, Nat.le_div_iff_mul_le hstep, Nat.succ_mul]
  omega

/-- Every repetition starts before the base ends. -/
theorem lt_of_mem_positions (hstep : 0 < step) {start position : Nat}
    (h : position ∈ loop.positions start step frames) : position < frames := by
  obtain ⟨i, hi, rfl⟩ := List.mem_map.mp h
  exact (lt_reach_iff hstep start frames i).mp (List.mem_range.mp hi)

/-- A list of the first repetitions has those that a frame lies in, if it has as many of them as are
made. -/
theorem filter_map_range {count : Nat}
    (hcount : ∀ i, Covers start step frame i → (i < count ↔ repetition.Makes i)) :
    ((List.range count).map fun i => start + i * step).filter
        (fun position => position ≤ frame ∧ frame < position + step) =
      (repetition.covering start step frame).map fun i => start + i * step := by
  rw [List.filter_map]
  congr 1
  refine List.Pairwise.eq_of_mem_iff (List.pairwise_lt_range.filter _) pairwise_covering fun i => ?_
  rw [List.mem_filter, List.mem_range, mem_covering]
  show _ ∧ decide (Covers start step frame i) = true ↔ _
  rw [decide_eq_true_eq]
  exact and_congr_left (hcount i)

/-- The repetitions that a frame of the base lies in are listed, and nothing else that covers it. -/
theorem filter_positions (hfits : repetition.Fits start step) (hframe : frame < frames) :
    (repetition.positions start step frames).filter
        (fun position => position ≤ frame ∧ frame < position + step) =
      (repetition.covering start step frame).map fun i => start + i * step := by
  -- what covers a frame of the base starts before its end
  have hreach : ∀ i, Covers start step frame i → i < reach start step frames := fun i h =>
    (lt_reach_iff h.step_pos start frames i).mpr (Nat.lt_of_le_of_lt h.1 hframe)
  cases repetition with
  | once =>
      have hone : once.positions start step frames =
          (List.range 1).map fun i => start + i * step := by
        simp [positions]
      rw [hone]
      exact filter_map_range fun i _ => Nat.lt_one_iff
  | times count =>
      have hwords : start + count * step ≤ wordSize := Nat.le_of_lt (hfits count rfl)
      rw [positions, if_pos hwords]
      exact filter_map_range fun i h => lt_min_iff.trans (and_iff_left (hreach i h))
  | loop => exact filter_map_range fun i h => iff_true_intro (hreach i h)

/-- The first repetition of a loop is followed by those of a loop that begins where it ends. -/
theorem positions_loop (hstep : 0 < step) (hstart : start < frames) :
    loop.positions start step frames = start :: loop.positions (start + step) step frames := by
  have hreach : reach start step frames = reach (start + step) step frames + 1 := by
    refine eq_of_forall_lt_iff fun i => ?_
    cases i with
    | zero =>
        rw [lt_reach_iff hstep]
        omega
    | succ i =>
        rw [lt_reach_iff hstep, Nat.succ_lt_succ_iff, lt_reach_iff hstep, Nat.succ_mul]
        omega
  simp only [positions, hreach, List.range_succ_eq_map, List.map_cons, List.map_map,
    Function.comp_def, Nat.zero_mul, Nat.add_zero, Nat.succ_mul]
  congr 2
  funext i
  omega

/-- A loop that begins after the end of the base repeats nothing. -/
theorem positions_loop_of_le (hstep : 0 < step) (hstart : frames ≤ start) :
    loop.positions start step frames = [] := by
  rw [List.eq_nil_iff_forall_not_mem]
  intro position hposition
  obtain ⟨i, -, rfl⟩ := List.mem_map.mp hposition
  have hlt := lt_of_mem_positions hstep hposition
  omega

end Repetition

/-! ## Drafts -/

namespace Draft

variable {α : Type} [Scalar α] {segment : Segment α} {draft final : Draft α} {position : Nat}

/-- Mixing several times keeps the format. -/
@[simp] theorem format_mixAll (draft : Draft α) (positions : List Nat) (segment : Segment α) :
    (draft.mixAll positions segment).format = draft.format :=
  format_foldl_mixAt id (fun _ => segment) draft positions

/-- Mixing several times keeps the number of samples. -/
@[simp] theorem size_mixAll (draft : Draft α) (positions : List Nat) (segment : Segment α) :
    (draft.mixAll positions segment).samples.size = draft.samples.size :=
  size_foldl_mixAt id (fun _ => segment) draft positions

/-- Mixing several times adds to a sample, one after another, those that fall on it. -/
theorem getElem?_mixAll (hformat : draft.format = segment.format) (hwhole : segment.WholeFrames)
    (positions : List Nat) (frame : Nat) {channel : Nat}
    (hchannel : channel < segment.format.frameSize) :
    (draft.mixAll positions segment).samples[frame * segment.format.frameSize + channel]? =
      draft.samples[frame * segment.format.frameSize + channel]?.map fun x =>
        (positions.filter fun position =>
          position ≤ frame ∧ frame < position + segment.frames).foldl
          (fun x position => x + segment.sample (frame - position) channel) x :=
  getElem?_foldl_mixAt id (fun _ => segment) hformat (fun _ _ => ⟨rfl, hwhole⟩) frame hchannel

/-- The loop that adds a segment from a position on, again and again while it starts within the
buffer, leaves a buffer. -/
inductive Looped (segment : Segment α) : Nat → Draft α → Draft α → Prop where
  | done {position : Nat} {draft : Draft α} :
      draft.frames ≤ position → Looped segment position draft draft
  | again {position : Nat} {draft final : Draft α} : position < draft.frames →
      Looped segment (position + segment.frames) (draft.mixAt position segment) final →
      Looped segment position draft final

/-- Mixing keeps the number of frames. -/
@[simp] theorem frames_mixAt (draft : Draft α) (position : Nat) (segment : Segment α) :
    (draft.mixAt position segment).frames = draft.frames := by
  rw [frames, frames, size_mixAt, format_mixAt]

/-- The loop of a segment with frames ends and adds it at the positions of a loop. -/
theorem looped_mixAll (hsegment : 0 < segment.frames) (position : Nat) (draft : Draft α) :
    Looped segment position draft
      (draft.mixAll (Repetition.loop.positions position segment.frames draft.frames) segment) := by
  -- by recursion on how much of the buffer is left, as in the loop
  by_cases hposition : position < draft.frames
  · rw [Repetition.positions_loop hsegment hposition]
    refine .again hposition ?_
    have hrest := looped_mixAll hsegment (position + segment.frames) (draft.mixAt position segment)
    rwa [frames_mixAt] at hrest
  · have hend := Nat.not_lt.mp hposition
    rw [Repetition.positions_loop_of_le hsegment hend]
    exact .done hend
termination_by draft.frames - position
decreasing_by rw [frames_mixAt]; omega

/-- The loop leaves one buffer at most. -/
theorem Looped.unique {final' : Draft α} (h : Looped segment position draft final)
    (h' : Looped segment position draft final') : final = final' := by
  induction h with
  | done hend =>
      cases h' with
      | done => rfl
      | again hposition => exact absurd hposition (Nat.not_lt.mpr hend)
  | again hposition _ ih =>
      cases h' with
      | done hend => exact absurd hposition (Nat.not_lt.mpr hend)
      | again _ hrest => exact ih hrest

/-- What the loop of a segment with frames leaves. -/
theorem looped_iff (hsegment : 0 < segment.frames) :
    Looped segment position draft final ↔ final =
      draft.mixAll (Repetition.loop.positions position segment.frames draft.frames) segment := by
  have hlooped := looped_mixAll hsegment position draft
  refine ⟨fun h => h.unique hlooped, ?_⟩
  rintro rfl
  exact hlooped

/-- The loop ends if the segment has frames, and stands still otherwise unless there is nothing to
do. -/
theorem exists_looped_iff :
    (∃ final, Looped segment position draft final) ↔
      0 < segment.frames ∨ draft.frames ≤ position := by
  constructor
  · rintro ⟨final, h⟩
    induction h with
    | done hend => exact .inr hend
    | again hposition _ ih =>
        rw [frames_mixAt] at ih
        omega
  · rintro (hsegment | hend)
    · exact ⟨_, looped_mixAll hsegment position draft⟩
    · exact ⟨draft, .done hend⟩

end Draft

/-! ## Overlays -/

namespace Segment

variable {α : Type} [Scalar α] {base other : Segment α} {frame channel : Nat}

/-- A segment to which another one has been added at the given frames. -/
def mixedIn (base other : Segment α) (positions : List Nat) : Segment α :=
  ⟨(base.draft.mixAll positions other).samples, base.format⟩

/-- What is added to a segment keeps its number of samples. -/
@[simp] theorem size_mixedIn (base other : Segment α) (positions : List Nat) :
    (base.mixedIn other positions).samples.size = base.samples.size :=
  Draft.size_mixAll _ _ _

/-- What is added to a segment keeps its number of frames. -/
@[simp] theorem frames_mixedIn (base other : Segment α) (positions : List Nat) :
    (base.mixedIn other positions).frames = base.frames := by
  rw [frames, frames, size_mixedIn]
  rfl

/-- What is added to a segment keeps its frames whole. -/
theorem whole_frames_mixedIn (hbase : base.WholeFrames) (positions : List Nat) :
    (base.mixedIn other positions).WholeFrames := by
  have hsize : (base.mixedIn other positions).samples.size =
      base.frames * (base.mixedIn other positions).format.frameSize :=
    (size_mixedIn _ _ _).trans hbase
  exact whole_frames_of_size hsize

/-- A buffer that a segment has been added to is frozen with all its samples. -/
theorem freeze_mixAll (hbase : base.WholeFrames) (positions : List Nat) :
    (base.draft.mixAll positions other).freeze = base.mixedIn other positions := by
  have hsize : (base.draft.mixAll positions other).samples.size =
      base.frames * (base.draft.mixAll positions other).format.frameSize := by
    rw [Draft.size_mixAll, Draft.format_mixAll]
    exact hbase
  rw [Draft.freeze_of_size hsize, Draft.format_mixAll]
  rfl

/-- To every sample those of the other segment are added that fall on it, in the order of the
positions. -/
theorem sample_mixedIn (hbase : base.WholeFrames) (hother : other.WholeFrames)
    (hformat : other.format = base.format) (positions : List Nat) (hframe : frame < base.frames)
    (hchannel : channel < base.format.frameSize) :
    (base.mixedIn other positions).sample frame channel =
      (positions.filter fun position => position ≤ frame ∧ frame < position + other.frames).foldl
        (fun x position => x + other.sample (frame - position) channel)
        (base.sample frame channel) := by
  have hdraft : base.draft.format = other.format := hformat.symm
  have hstored := Draft.getElem?_mixAll hdraft hother positions frame (hformat ▸ hchannel)
  have hkept : base.draft.samples[frame * base.format.frameSize + channel]? =
      some (base.sample frame channel) := getElem?_eq_sample hbase hframe hchannel
  rw [hformat, hkept, Option.map_some] at hstored
  show (base.mixedIn other positions).samples.getD (frame * base.format.frameSize + channel) 0.0 = _
  rw [Array.getD_eq_getD_getElem?, mixedIn, hstored, Option.getD_some]

/-- A segment without frames can be added anywhere and changes nothing. -/
theorem mixedIn_of_no_frames (hbase : base.WholeFrames) (hother : other.WholeFrames)
    (hformat : other.format = base.format) (hnone : other.frames = 0) (positions : List Nat) :
    base.mixedIn other positions = base := by
  refine ext_sample (whole_frames_mixedIn hbase _) hbase rfl (frames_mixedIn _ _ _) ?_
  intro frame hframe channel hchannel
  have hfilter : (positions.filter fun position =>
      position ≤ frame ∧ frame < position + other.frames) = [] := by
    rw [List.filter_eq_nil_iff]
    intro position _
    rw [decide_eq_true_eq, hnone]
    omega
  rw [sample_mixedIn hbase hother hformat positions hframe hchannel, hfilter, List.foldl_nil]

/-- What a segment is to which another one has been added from a frame on, repeated in some way: it
is as long as before, and to each of its samples those of the repetitions are added that it lies in,
one after another. -/
structure Overlaid (base other : Segment α) (start : Nat) (repetition : Repetition)
    (result : Segment α) : Prop where
  format : result.format = base.format
  whole : result.WholeFrames
  frames : result.frames = base.frames
  samples : ∀ frame < base.frames, ∀ channel < base.format.frameSize,
    result.sample frame channel =
      (repetition.covering start other.frames frame).foldl
        (fun x i => x + other.sample (frame - start - i * other.frames) channel)
        (base.sample frame channel)

/-- Adding a segment at the positions of its repetitions overlays it. -/
theorem overlaid_mixedIn (hbase : base.WholeFrames) (hother : other.WholeFrames)
    (hformat : other.format = base.format) {start : Nat} {repetition : Repetition}
    (hfits : repetition.Fits start other.frames) :
    Overlaid base other start repetition
      (base.mixedIn other (repetition.positions start other.frames base.frames)) where
  format := rfl
  whole := whole_frames_mixedIn hbase _
  frames := frames_mixedIn _ _ _
  samples frame hframe channel hchannel := by
    rw [sample_mixedIn hbase hother hformat _ hframe hchannel,
      Repetition.filter_positions hfits hframe, List.foldl_map]
    simp only [Nat.sub_add_eq]

variable {start : Nat} {repetition repetition' : Repetition} {result result' : Segment α}

/-- A frame of an overlay is that of the base with one frame of the other segment or with none. -/
theorem Overlaid.sample_eq (h : Overlaid base other start repetition result)
    (hstep : 0 < other.frames) (hframe : frame < base.frames)
    (hchannel : channel < base.format.frameSize) :
    result.sample frame channel =
      if start ≤ frame ∧ repetition.Makes ((frame - start) / other.frames) then
        base.sample frame channel + other.sample ((frame - start) % other.frames) channel
      else base.sample frame channel := by
  rw [h.samples frame hframe channel hchannel, Repetition.covering_eq hstep]
  split
  · rw [List.foldl_cons, List.foldl_nil, ← Nat.mod_eq_sub_div_mul]
  · rfl

/-- Overlays are the same if the same repetitions of them cover the base. -/
theorem Overlaid.unique (h : Overlaid base other start repetition result)
    (h' : Overlaid base other start repetition' result')
    (hsame : ∀ frame < base.frames, ∀ i, Repetition.Covers start other.frames frame i →
      (repetition.Makes i ↔ repetition'.Makes i)) : result = result' := by
  have hformat := h.format.trans h'.format.symm
  have hframes := h.frames.trans h'.frames.symm
  refine ext_sample h.whole h'.whole hformat hframes fun frame hframe channel hchannel => ?_
  rw [h'.frames] at hframe
  rw [h'.format] at hchannel
  rw [h.samples frame hframe channel hchannel, h'.samples frame hframe channel hchannel,
    Repetition.covering_congr (hsame frame hframe)]

variable [Resampler α]

/-- An overlay with a segment of the same format never fails, and adds it at the positions of its
repetitions. -/
theorem overlayRepeat_eq (hbase : base.WholeFrames) (hformat : other.format = base.format)
    (position : α) (repetition : Repetition) :
    base.overlayRepeat other position repetition =
      .ok (base.mixedIn other (repetition.positions (base.format.framesIn position) other.frames
        base.frames)) := by
  rw [overlayRepeat, conform_self hformat, ← freeze_mixAll hbase]
  rfl

/-- An overlay with a segment of the same format, from a position on and repeated in any way whose
positions are words, never fails. It has the format and the frames of its base, and to every sample
of the base those of the repetitions are added that it lies in, in their order. So a loop of a
segment with frames leaves what is before the position, and adds to every frame from there on one
frame of the segment, each in its turn; it is what is left by adding the segment again and again as
long as it starts within the base, which ends exactly if the segment has frames or starts after the
base. A loop is the same as any number of repetitions that reach the end of the base, one repetition
is the same as none but the first, and a segment without frames changes nothing, however it is
repeated. -/
theorem overlayRepeat_closed_form (hbase : base.WholeFrames) (hother : other.WholeFrames)
    (hformat : other.format = base.format) (position : α) :
    let start := base.format.framesIn position
    let step := other.frames
    (∀ repetition : Repetition, repetition.Fits start step →
      ∃ result, base.overlayRepeat other position repetition = .ok result ∧
        Overlaid base other start repetition result) ∧
    (0 < step → ∃ result, base.overlayRepeat other position .loop = .ok result ∧
      (∀ frame < base.frames, ∀ channel < base.format.frameSize,
        result.sample frame channel =
          if start ≤ frame then
            base.sample frame channel + other.sample ((frame - start) % step) channel
          else base.sample frame channel) ∧
      ∃ draft, (∀ final, Draft.Looped other start base.draft final ↔ final = draft) ∧
        draft.freeze = result) ∧
    ((∃ draft, Draft.Looped other start base.draft draft) ↔ 0 < step ∨ base.frames ≤ start) ∧
    (∀ count, start + count * step < Word.count 64 → base.frames ≤ start + count * step →
      base.overlayRepeat other position (.times count) =
        base.overlayRepeat other position .loop) ∧
    (start + step < Word.count 64 →
      base.overlayRepeat other position (.times 1) = base.overlayRepeat other position .once) ∧
    (step = 0 → ∀ repetition, base.overlayRepeat other position repetition = .ok base) := by
  intro start step
  have heq := overlayRepeat_eq hbase hformat position
  have hoverlaid : ∀ repetition : Repetition, repetition.Fits start step →
      Overlaid base other start repetition
        (base.mixedIn other (repetition.positions start step base.frames)) :=
    fun repetition => overlaid_mixedIn hbase hother hformat
  have hloop : Repetition.loop.Fits start step := nofun
  have honce : Repetition.once.Fits start step := nofun
  refine ⟨fun repetition hfits => ⟨_, heq repetition, hoverlaid repetition hfits⟩, ?_,
    Draft.exists_looped_iff, ?_, ?_, ?_⟩
  · intro hstep
    refine ⟨_, heq .loop, fun frame hframe channel hchannel => ?_, _,
      fun final => Draft.looped_iff hstep, freeze_mixAll hbase _⟩
    rw [(hoverlaid .loop hloop).sample_eq hstep hframe hchannel]
    simp only [Repetition.Makes, and_true, step]
  · intro count hcount hend
    have hfits : (Repetition.times count).Fits start step := by
      rintro _ ⟨⟩
      exact hcount
    rw [heq, heq]
    congr 1
    refine (hoverlaid _ hfits).unique (hoverlaid _ hloop) fun frame hframe i hcovers => ?_
    -- a repetition that covers the base starts before the last one ends
    have hfirst : start + i * step ≤ frame := hcovers.1
    have hlt : i * step < count * step := by omega
    exact iff_true_intro (Nat.lt_of_mul_lt_mul_right hlt)
  · intro hend
    have hfits : (Repetition.times 1).Fits start step := by
      rintro _ ⟨⟩
      rw [Nat.one_mul]
      exact hend
    rw [heq, heq]
    congr 1
    exact (hoverlaid _ hfits).unique (hoverlaid _ honce) fun _ _ _ _ => Nat.lt_one_iff
  · intro hnone repetition
    rw [heq, mixedIn_of_no_frames hbase hother hformat hnone]

/-- Two stereo frames repeated over four from the second one on. The second repetition is cut off,
and two repetitions are as many as there are in a loop. -/
theorem two_frames_repeated :
    let base : Segment ℝ := ⟨#[1, 2, 1, 2, 1, 2, 1, 2], ⟨1000, .stereo⟩⟩
    let other : Segment ℝ := ⟨#[10, 20, 30, 40], ⟨1000, .stereo⟩⟩
    base.WholeFrames ∧ other.WholeFrames ∧ other.format = base.format ∧
      base.overlayRepeat other 1 (.times 2) =
        .ok ⟨#[1, 2, 11, 22, 31, 42, 11, 22], ⟨1000, .stereo⟩⟩ := by
  intro base other
  have hbase : base.WholeFrames := whole_frames_of_size (rfl : _ = 4 * 2)
  have hother : other.WholeFrames := whole_frames_of_size (rfl : _ = 2 * 2)
  have hframes : base.frames = 4 := frames_of_size rfl
  have hframes' : other.frames = 2 := frames_of_size rfl
  have hstart : base.format.framesIn (1 : ℝ) = 1 := by
    exact_mod_cast Format.framesIn_of_thousand 1
  obtain ⟨hoverlaid, hloop, -, htimes, -, -⟩ :=
    overlayRepeat_closed_form hbase hother rfl (1 : ℝ)
  rw [hstart, hframes'] at hoverlaid hloop htimes
  obtain ⟨mixed, hmixed, hkept⟩ := hoverlaid .loop nofun
  obtain ⟨result, hresult, hsamples, -⟩ := hloop (by decide)
  obtain rfl : mixed = result := Except.ok.inj (hmixed.symm.trans hresult)
  refine ⟨hbase, hother, rfl, ?_⟩
  rw [htimes 2 (by decide) (by omega), hmixed]
  congr 1
  refine ext_sample hkept.whole (whole_frames_of_size (rfl : _ = 4 * 2)) hkept.format
    (hkept.frames.trans rfl) fun frame hframe channel hchannel => ?_
  rw [hsamples frame hframe channel hchannel]
  have hframe : frame < 4 := hframe
  have hchannel : channel < 2 := hchannel
  interval_cases frame <;> interval_cases channel <;>
    norm_num [base, other, sample, Format.frameSize, Channels.count]

end Segment

end SingingVoice
