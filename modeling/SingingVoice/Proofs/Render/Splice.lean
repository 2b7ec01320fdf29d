import Mathlib
import SingingVoice.Proofs.Exact.Duration
import SingingVoice.Proofs.Segment.Conformity
import SingingVoice.Proofs.Segment.Frames
import SingingVoice.Render.Basic
import SingingVoice.Resampling.Sinc

/-!
# Spliced timelines in closed form

Every render has a place in the timeline: it starts some frames before the end of what is there, and
what lies behind the new end of the timeline is lost. `Renderer.splice_closed_form` says that the
timeline is the sum of its renders at their places, added in the order of the notes.
-/

namespace SingingVoice.Renderer

variable {m : Type → Type} {α : Type} [Scalar α]

section Places

variable (renderer : Renderer m α) (notes : List (Note α)) (renders : List (Segment α))

/-- The render of the note with an index. -/
def renderAt (index : Nat) : Segment α :=
  renders.getD index (Segment.empty renderer.format)

/-- The frames by which the note after the one with an index reaches back: its overlap, which is
zero where there is no such note or its timing is not known. -/
def reachBack (index : Nat) : Nat :=
  renderer.format.framesIn ((renderer.nextTiming? notes index).elim (0.0 : α) Timing.overlap)

/-- The frames of the timeline made of the first renders, so many of them. -/
def timelineEnd : Nat → Nat
  | 0 => 0
  | count + 1 =>
      timelineEnd count +
        ((renderer.renderAt renders count).frames - renderer.reachBack notes count)

/-- The frame of the timeline at which a render starts. -/
def placeOf (index : Nat) : Nat :=
  renderer.timelineEnd notes renders index - renderer.reachBack notes index

/-- The frame of the timeline up to which a render sounds. -/
def stopOf (index : Nat) : Nat :=
  min (renderer.placeOf notes renders index + (renderer.renderAt renders index).frames)
    (renderer.timelineEnd notes renders (index + 1))

/-- A render sounds at a frame of the timeline. -/
def Sounds (index frame : Nat) : Prop :=
  renderer.placeOf notes renders index ≤ frame ∧ frame < renderer.stopOf notes renders index

/-- Whether a render sounds at a frame takes two comparisons. -/
instance (index frame : Nat) : Decidable (renderer.Sounds notes renders index frame) :=
  inferInstanceAs (Decidable (_ ∧ _))

/-- The sum of the first renders, so many of them, at a frame and a channel of the timeline. -/
def mixture (count frame channel : Nat) : α :=
  ((List.range count).filter (renderer.Sounds notes renders · frame)).foldl
    (fun total index =>
      total + (renderer.renderAt renders index).sample
        (frame - renderer.placeOf notes renders index) channel)
    0.0

end Places

variable {renderer : Renderer m α} {notes : List (Note α)} {renders : List (Segment α)}

/-! ## Places -/

/-- The timeline never becomes shorter. -/
theorem timelineEnd_mono {first second : Nat} (h : first ≤ second) :
    renderer.timelineEnd notes renders first ≤ renderer.timelineEnd notes renders second := by
  induction h with
  | refl => exact Nat.le_refl _
  | step _ ih => exact Nat.le_trans ih (Nat.le_add_right _ _)

/-- A render sounds in all its frames exactly if it ends in time, and this is so exactly if its
overlap or its length does not exceed the timeline before it. -/
theorem sounds_throughout_iff (index : Nat) :
    ((∀ frame < (renderer.renderAt renders index).frames,
        renderer.Sounds notes renders index (renderer.placeOf notes renders index + frame)) ↔
      renderer.placeOf notes renders index + (renderer.renderAt renders index).frames ≤
        renderer.timelineEnd notes renders (index + 1)) ∧
    (renderer.placeOf notes renders index + (renderer.renderAt renders index).frames ≤
        renderer.timelineEnd notes renders (index + 1) ↔
      renderer.reachBack notes index ≤ renderer.timelineEnd notes renders index ∨
      (renderer.renderAt renders index).frames ≤ renderer.timelineEnd notes renders index) := by
  constructor
  · constructor
    · intro h
      by_cases hframes : (renderer.renderAt renders index).frames = 0
      · simp only [placeOf, timelineEnd]
        omega
      · have hlast := h ((renderer.renderAt renders index).frames - 1) (by omega)
        simp only [Sounds, stopOf] at hlast
        omega
    · intro h frame hframe
      simp only [Sounds, stopOf]
      omega
  · simp only [placeOf, timelineEnd]
    omega

/-- The frames of a render that sound are the first ones; those past the new end of the timeline are
lost. -/
theorem sounds_iff_lt {index frame : Nat}
    (hframe : frame < (renderer.renderAt renders index).frames) :
    renderer.Sounds notes renders index (renderer.placeOf notes renders index + frame) ↔
      frame < (renderer.renderAt renders index).frames -
        (renderer.placeOf notes renders index + (renderer.renderAt renders index).frames -
          renderer.timelineEnd notes renders (index + 1)) := by
  simp only [Sounds, stopOf]
  omega

/-! ## Mixtures -/

/-- The next render is added to the mixture of those before it where it sounds. -/
theorem mixture_succ (count frame channel : Nat) :
    renderer.mixture notes renders (count + 1) frame channel =
      if renderer.Sounds notes renders count frame then
        renderer.mixture notes renders count frame channel +
          (renderer.renderAt renders count).sample
            (frame - renderer.placeOf notes renders count) channel
      else renderer.mixture notes renders count frame channel := by
  unfold mixture
  rw [List.range_succ, List.filter_append, List.foldl_append]
  by_cases h : renderer.Sounds notes renders count frame
  · simp [h]
  · simp [h]

/-- After the end of the timeline its renders are silent. -/
theorem mixture_after {count frame : Nat}
    (hframe : renderer.timelineEnd notes renders count ≤ frame) (channel : Nat) :
    renderer.mixture notes renders count frame channel = 0.0 := by
  have hnone : (List.range count).filter (renderer.Sounds notes renders · frame) = [] := by
    rw [List.filter_eq_nil_iff]
    intro index hindex
    have hend : renderer.timelineEnd notes renders (index + 1) ≤
        renderer.timelineEnd notes renders count :=
      timelineEnd_mono (List.mem_range.mp hindex)
    intro hsounds
    have hsounds := of_decide_eq_true hsounds
    simp only [Sounds, stopOf] at hsounds
    omega
  rw [mixture, hnone]
  rfl

/-! ## Splicing -/

variable (renderer notes renders) in
/-- A buffer holds the timeline of the first renders, so many of them. -/
structure Spliced (count : Nat) (timeline : Draft α) : Prop where
  format : timeline.format = renderer.format
  size : timeline.samples.size =
    renderer.timelineEnd notes renders count * renderer.format.frameSize
  samples : ∀ frame < renderer.timelineEnd notes renders count,
    ∀ channel < renderer.format.frameSize,
      timeline.samples[frame * renderer.format.frameSize + channel]? =
        some (renderer.mixture notes renders count frame channel)

/-- The timeline of no renders is empty. -/
theorem Spliced.initial :
    Spliced renderer notes renders 0 (Segment.empty renderer.format).draft where
  format := rfl
  size := (Nat.zero_mul _).symm
  samples frame hframe := absurd hframe (Nat.not_lt_zero frame)

/-- Splicing the next render onto the timeline of the renders before it gives the timeline with
it. -/
theorem Spliced.step {count : Nat} {timeline : Draft α} {render : Segment α}
    (h : Spliced renderer notes renders count timeline)
    (hrender : renderer.renderAt renders count = render)
    (hformat : render.format = renderer.format) (hwhole : render.WholeFrames) :
    Spliced renderer notes renders (count + 1)
      (renderer.spliceOne notes timeline count render) := by
  have hsize : timeline.samples.size =
      renderer.timelineEnd notes renders count * timeline.format.frameSize := by
    rw [h.size, h.format]
  have hend : renderer.timelineEnd notes renders (count + 1) =
      renderer.timelineEnd notes renders count +
        (render.frames - renderer.reachBack notes count) := by
    rw [timelineEnd, hrender]
  have hspliced : renderer.spliceOne notes timeline count render =
      (timeline.extendFrames (render.frames - renderer.reachBack notes count)).mixAt
        (renderer.placeOf notes renders count) render := by
    unfold placeOf
    rw [← Draft.frames_of_size hsize]
    rfl
  rw [hspliced]
  refine ⟨?_, ?_, ?_⟩
  · rw [Draft.format_mixAt, Draft.format_extendFrames, h.format]
  · rw [Draft.size_mixAt, Draft.size_extendFrames, h.size, h.format, hend, Nat.add_mul]
  · intro frame hframe channel hchannel
    rw [hend] at hframe
    have hextended : (timeline.extendFrames
        (render.frames - renderer.reachBack notes count)).format = renderer.format := h.format
    rw [Draft.getElem?_mixAt hextended hformat hwhole _ hchannel,
      Draft.getElem?_extendFrames h.format h.size hframe hchannel, mixture_succ, hrender]
    have hsounds : renderer.Sounds notes renders count frame ↔
        renderer.placeOf notes renders count ≤ frame ∧
          frame < renderer.placeOf notes renders count + render.frames := by
      simp only [Sounds, stopOf, hrender, hend]
      omega
    -- behind the old end there is silence, and so is the mixture of the renders before
    have hbefore : (if frame < renderer.timelineEnd notes renders count then
          timeline.samples[frame * renderer.format.frameSize + channel]?
        else some 0.0) = some (renderer.mixture notes renders count frame channel) := by
      by_cases hold : frame < renderer.timelineEnd notes renders count
      · rw [if_pos hold, h.samples frame hold channel hchannel]
      · rw [if_neg hold, mixture_after (Nat.not_lt.mp hold)]
    rw [hbefore]
    simp only [hsounds]
    split <;> rfl

omit [Scalar α] in
/-- The render after the first ones is found at their number. -/
theorem renderAt_append (done rest : List (Segment α)) (render : Segment α) :
    renderer.renderAt (done ++ render :: rest) done.length = render := by
  simp [renderAt]

/-- Splices renders in the format of the renderer onto a timeline, those of the notes from an index
on. -/
def spliceAll (renderer : Renderer m α) (notes : List (Note α)) (timeline : Draft α) (index : Nat)
    (renders : List (Segment α)) : Draft α :=
  (renders.zipIdx index).foldl
    (fun timeline (render, index) => renderer.spliceOne notes timeline index render) timeline

/-- Renders in the format of the renderer are spliced one after another and never fail. -/
theorem spliceFrom_of_format [Resampler α] {rest : List (Segment α)} (timeline : Draft α)
    (index : Nat) (hformat : ∀ render ∈ rest, render.format = renderer.format) :
    renderer.spliceFrom notes index timeline rest =
      .ok (renderer.spliceAll notes timeline index rest) := by
  induction rest generalizing index timeline with
  | nil => rfl
  | cons render rest ih =>
      have hconform : render.conform renderer.format = .ok render :=
        Segment.conform_self (hformat render List.mem_cons_self)
      rw [spliceFrom, hconform]
      exact ih _ _ fun other hother => hformat other (List.mem_cons_of_mem render hother)

/-- The timeline of renders in the format of the renderer. -/
theorem splice_of_format [Resampler α]
    (hformat : ∀ render ∈ renders, render.format = renderer.format) :
    renderer.splice notes renders =
      .ok (renderer.spliceAll notes (Segment.empty renderer.format).draft 0 renders).freeze := by
  rw [splice, spliceFrom_of_format _ _ hformat]
  rfl

/-- Splicing the remaining renders onto the timeline of those before them gives the whole
timeline. -/
theorem Spliced.run {done rest : List (Segment α)} {timeline : Draft α}
    (h : Spliced renderer notes renders done.length timeline) (hrenders : renders = done ++ rest)
    (hformat : ∀ render ∈ rest, render.format = renderer.format)
    (hwhole : ∀ render ∈ rest, render.WholeFrames) :
    Spliced renderer notes renders renders.length
      (renderer.spliceAll notes timeline done.length rest) := by
  induction rest generalizing done timeline with
  | nil =>
      rw [List.append_nil] at hrenders
      exact hrenders ▸ h
  | cons render rest ih =>
      have hrender : renderer.renderAt renders done.length = render := by
        rw [hrenders, renderAt_append]
      have hstep := h.step hrender (hformat render List.mem_cons_self)
        (hwhole render List.mem_cons_self)
      have hlength : (done ++ [render]).length = done.length + 1 := by simp
      rw [← hlength] at hstep
      have hrest := ih hstep (by simp [hrenders])
        (fun other hother => hformat other (List.mem_cons_of_mem render hother))
        (fun other hother => hwhole other (List.mem_cons_of_mem render hother))
      rw [hlength] at hrest
      exact hrest

/-- The timeline of renders of whole frames in the format of the renderer: its format, its length
and its samples. -/
theorem exists_splice [Resampler α] (notes : List (Note α))
    (hformat : ∀ render ∈ renders, render.format = renderer.format)
    (hwhole : ∀ render ∈ renders, render.WholeFrames) :
    ∃ timeline, renderer.splice notes renders = .ok timeline ∧
      timeline.format = renderer.format ∧ timeline.WholeFrames ∧
      timeline.frames = renderer.timelineEnd notes renders renders.length ∧
      ∀ frame < timeline.frames, ∀ channel < renderer.format.frameSize,
        timeline.samples[frame * renderer.format.frameSize + channel]? =
          some (renderer.mixture notes renders renders.length frame channel) := by
  have hinitial : Spliced renderer notes renders ([] : List (Segment α)).length
      (Segment.empty renderer.format).draft := .initial
  have hspliced := hinitial.run (List.nil_append renders).symm hformat hwhole
  generalize hfinal : renderer.spliceAll notes _ ([] : List (Segment α)).length renders = final
    at hspliced
  have hsize : final.samples.size =
      renderer.timelineEnd notes renders renders.length * final.format.frameSize := by
    rw [hspliced.size, hspliced.format]
  refine ⟨final.freeze, by rw [splice_of_format hformat, ← hfinal]; rfl, ?_⟩
  rw [Draft.freeze_of_size hsize, Segment.frames_of_size hsize]
  exact ⟨hspliced.format, Segment.whole_frames_of_size hsize, rfl, hspliced.samples⟩

/-- Renders in the format of the renderer splice to a timeline in that format, as long as their
places say; each of its samples is the sum of the renders that sound there, from zero and in the
order of the notes. A render sounds in all its frames exactly if its overlap or its length does not
exceed the timeline before it, and loses those behind the new end of the timeline otherwise. -/
theorem splice_closed_form [Resampler α] (renderer : Renderer m α) (notes : List (Note α))
    (renders : List (Segment α))
    (hformat : ∀ render ∈ renders, render.format = renderer.format)
    (hwhole : ∀ render ∈ renders, render.WholeFrames) :
    (∃ timeline, renderer.splice notes renders = .ok timeline ∧
      timeline.format = renderer.format ∧ timeline.WholeFrames ∧
      timeline.frames = renderer.timelineEnd notes renders renders.length ∧
      ∀ frame < timeline.frames, ∀ channel < renderer.format.frameSize,
        timeline.samples[frame * renderer.format.frameSize + channel]? =
          some (renderer.mixture notes renders renders.length frame channel)) ∧
    ∀ index < renders.length,
      ((∀ frame < (renderer.renderAt renders index).frames,
          renderer.Sounds notes renders index (renderer.placeOf notes renders index + frame)) ↔
        renderer.placeOf notes renders index + (renderer.renderAt renders index).frames ≤
          renderer.timelineEnd notes renders (index + 1)) ∧
      (renderer.placeOf notes renders index + (renderer.renderAt renders index).frames ≤
          renderer.timelineEnd notes renders (index + 1) ↔
        renderer.reachBack notes index ≤ renderer.timelineEnd notes renders index ∨
        (renderer.renderAt renders index).frames ≤ renderer.timelineEnd notes renders index) ∧
      ∀ frame < (renderer.renderAt renders index).frames,
        renderer.Sounds notes renders index (renderer.placeOf notes renders index + frame) ↔
          frame < (renderer.renderAt renders index).frames -
            (renderer.placeOf notes renders index + (renderer.renderAt renders index).frames -
              renderer.timelineEnd notes renders (index + 1)) := by
  constructor
  · exact exists_splice notes hformat hwhole
  · intro index _
    exact ⟨(sounds_throughout_iff index).1, (sounds_throughout_iff index).2,
      fun frame hframe => sounds_iff_lt hframe⟩

/-- A renderer in exact arithmetic without samples, with a frame for every millisecond. -/
noncomputable def voiceless : Renderer Id ℝ :=
  sequential (.empty "")
    ⟨fun _ => pure (), fun _ _ _ => throw (.engine ""), fun vowel _ => .ok vowel⟩ (.mono 1000)

/-- Two frames, of which the second is lost because the next note overlaps by one frame where there
is no timeline yet; the frames after them blend into the first. -/
theorem splice_overlap_at_start :
    let notes : List (Note ℝ) :=
      [.rest 2, .sung "a" 60 2 (some 0) (some 1), .sung "b" 60 1 (some 0) (some 1)]
    let renders : List (Segment ℝ) :=
      [⟨#[1, 2], .mono 1000⟩, ⟨#[3, 4], .mono 1000⟩, ⟨#[5], .mono 1000⟩]
    (∀ render ∈ renders, render.format = voiceless.format) ∧
    (∀ render ∈ renders, render.WholeFrames) ∧
    (∃ timeline, voiceless.splice notes renders = .ok timeline ∧ timeline.frames = 3 ∧
      timeline.samples[0]? = some (1 + 3)) ∧
    ¬ voiceless.Sounds notes renders 0 1 := by
  intro notes renders
  have hformat : ∀ render ∈ renders, render.format = voiceless.format := by
    simp [renders, voiceless, sequential]
  have hframes : ∀ samples : Array ℝ,
      (⟨samples, .mono 1000⟩ : Segment ℝ).frames = samples.size := fun _ => Nat.div_one _
  have hwhole : ∀ render ∈ renders, render.WholeFrames := by
    intro render hrender
    have hmono : render.format.frameSize = 1 := by rw [hformat render hrender]; rfl
    rw [Segment.WholeFrames, Segment.frames, hmono, Nat.div_one, Nat.mul_one]
  have hone : (Format.mono 1000).framesIn (1 : ℝ) = 1 := by
    have hcast : (1 : ℝ) = (1 : Nat) := Nat.cast_one.symm
    rw [hcast, Format.framesIn_of_thousand]
  have hback : voiceless.reachBack notes 0 = 1 ∧ voiceless.reachBack notes 1 = 1 := ⟨hone, hone⟩
  have hzero : voiceless.reachBack notes 2 = 0 := Format.framesIn_zero_of_thousand
  have hend : voiceless.timelineEnd notes renders 3 = 3 := by
    simp [timelineEnd, hback, hzero, renderAt, renders, hframes]
  obtain ⟨⟨timeline, hsplice, -, -, hlength, hsamples⟩, hlost⟩ :=
    splice_closed_form voiceless notes renders hformat hwhole
  have hthree : timeline.frames = 3 := hlength.trans hend
  refine ⟨hformat, hwhole, ⟨timeline, hsplice, hthree, ?_⟩, ?_⟩
  · have hfirst := hsamples 0 (by omega) 0 (by decide)
    have hsounds : (List.range 3).filter (voiceless.Sounds notes renders · 0) = [0, 1] := by
      simp [List.range_succ, Sounds, stopOf, placeOf, timelineEnd, hback, hzero, renderAt, renders,
        hframes]
    have hmixture : voiceless.mixture notes renders 3 0 0 = 1 + 3 := by
      rw [mixture, hsounds]
      norm_num [renderAt, renders, Segment.sample]
    exact hfirst.trans (congrArg some hmixture)
  · have h := ((hlost 0 (by decide)).2.2 1 (by decide)).not
    simpa [placeOf, timelineEnd, hback, renderAt, renders, hframes] using h

end SingingVoice.Renderer
