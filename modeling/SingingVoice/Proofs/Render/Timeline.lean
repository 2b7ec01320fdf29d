import Mathlib
import SingingVoice.Proofs.Exact.Duration
import SingingVoice.Proofs.Render.Failure
import SingingVoice.Proofs.Segment.Joined

/-!
# The length of timelines

In exact arithmetic, and if every note is stretched to whole frames (`Renderer.Stretched`), what a
note lends to the one before it is taken back when the two are spliced. So a timeline lasts as long
as its notes, but for those that have no sung note before them: their preutterance is added, and
their overlap with a rest is lost. The main theorem is `timeline_length_telescopes`.
-/

namespace SingingVoice.Renderer

variable {m : Type → Type} {α : Type}

section Timings

variable [Scalar α] (renderer : Renderer m α) (notes : List (Note α))

/-- The note with an index follows a rest. -/
def followsRest (notes : List (Note α)) : Nat → Bool
  | 0 => false
  | before + 1 => notes[before]?.elim false Note.isRest

/-- The timing of the note with an index. -/
def timingAt? (index : Nat) : Option (Timing α) :=
  notes[index]?.bind renderer.timing?

end Timings

variable (renderer : Renderer m ℝ) (audio : Sample ℝ → ℝ → Except (RenderError ℝ) (Segment ℝ))
  (notes : List (Note ℝ))

/-- The preutterance of the note with an index, zero for one without a timing. -/
noncomputable def preutteranceAt (index : Nat) : ℝ :=
  (renderer.timingAt? notes index).elim 0 Timing.preutterance

/-- The overlap of the note with an index, zero for one without a timing. -/
noncomputable def overlapAt (index : Nat) : ℝ :=
  (renderer.timingAt? notes index).elim 0 Timing.overlap

/-- What the note with an index adds before its own beginning: the preutterance of a note that is
first or follows a rest. -/
noncomputable def lead (index : Nat) : ℝ :=
  if index = 0 ∨ followsRest notes index then renderer.preutteranceAt notes index else 0

/-- What the note with an index takes from the rest before it. -/
noncomputable def intrusion (index : Nat) : ℝ :=
  if followsRest notes index then renderer.overlapAt notes index else 0

/-- What the note with an index has still to add and to give back when the renders before it are
spliced. -/
noncomputable def pending (index : Nat) : ℝ :=
  renderer.preutteranceAt notes index - renderer.lead notes index +
    renderer.intrusion notes index

variable {renderer notes}

/-! ## Timings of notes -/

/-- What a note does not say about its timing, its sample does. -/
theorem timing_of_sample {name : String} {sample : Sample ℝ} (pitch duration : ℝ)
    (preutterance overlap : Option ℝ) (hsample : renderer.bank.find? name = some sample) :
    renderer.timing? (.sung name pitch duration preutterance overlap) =
      some ⟨preutterance.getD sample.preutterance, overlap.getD sample.overlap⟩ := by
  simp only [timing?, hsample]
  cases preutterance <;> cases overlap <;> rfl

/-- How long a sung note must sound. -/
theorem actualDuration_of_timing {index : Nat} {note : Note ℝ} {timing : Timing ℝ}
    (hnote : notes[index]? = some note) (htiming : renderer.timing? note = some timing) :
    renderer.actualDuration notes index =
      .ok (renderer.preutteranceAt notes index + note.duration +
        (renderer.overlapAt notes (index + 1) - renderer.preutteranceAt notes (index + 1))) := by
  have hown : renderer.timingAt? notes index = some timing := by
    rw [timingAt?, hnote, Option.bind_some, htiming]
  have hlookahead : (renderer.nextTiming? notes index).elim (0.0 : ℝ)
      (fun next => next.overlap - next.preutterance) =
        renderer.overlapAt notes (index + 1) - renderer.preutteranceAt notes (index + 1) := by
    show (renderer.timingAt? notes (index + 1)).elim _ _ = _
    unfold overlapAt preutteranceAt
    cases renderer.timingAt? notes (index + 1) with
    | none => norm_num
    | some next => rfl
  unfold actualDuration noteAt
  rw [hnote, preutteranceAt, hown, ← hlookahead]
  simp only [Except.ok_bind, htiming]
  rfl

/-- Before a timeline nothing is pending. -/
theorem pending_zero : renderer.pending notes 0 = 0 := by
  simp [pending, lead, intrusion, followsRest]

/-- After a rest the overlap is pending. -/
theorem pending_after_rest {index : Nat} {duration : ℝ}
    (hnote : notes[index]? = some (.rest duration)) :
    renderer.pending notes (index + 1) = renderer.overlapAt notes (index + 1) := by
  have hrest : followsRest notes (index + 1) = true := by
    rw [followsRest, hnote]
    rfl
  simp [pending, lead, intrusion, hrest]

/-- After a sung note the preutterance is pending. -/
theorem pending_after_sung {index : Nat} {note : Note ℝ} (hnote : notes[index]? = some note)
    (hsung : note.isRest = false) :
    renderer.pending notes (index + 1) = renderer.preutteranceAt notes (index + 1) := by
  have hrest : followsRest notes (index + 1) = false := by
    rw [followsRest, hnote]
    exact hsung
  simp [pending, lead, intrusion, hrest]

/-- A note without a timing adds and takes nothing. -/
theorem no_timing {index : Nat} (h : renderer.timingAt? notes index = none) :
    renderer.lead notes index = 0 ∧ renderer.intrusion notes index = 0 ∧
      renderer.pending notes index = 0 := by
  simp [pending, lead, intrusion, preutteranceAt, overlapAt, h]

/-- The durations of the notes add up to that of the timeline. -/
theorem sum_durations (notes : List (Note ℝ)) :
    ∑ index ∈ Finset.range notes.length, notes[index]?.elim 0 Note.duration =
      Note.totalDuration notes := by
  unfold Note.totalDuration Scalar.sum
  induction notes using List.reverseRecOn with
  | nil =>
      show (0 : ℝ) = 0.0
      norm_num
  | append_singleton notes note ih =>
      have hbefore : ∑ index ∈ Finset.range notes.length,
          (notes ++ [note])[index]?.elim (0 : ℝ) Note.duration =
            ∑ index ∈ Finset.range notes.length, notes[index]?.elim 0 Note.duration := by
        refine Finset.sum_congr rfl fun index hindex => ?_
        rw [List.getElem?_append_left (Finset.mem_range.mp hindex)]
      rw [List.length_append, List.length_singleton, Finset.sum_range_succ, hbefore, ih,
        List.getElem?_concat_length, List.map_append, List.foldl_append]
      rfl

/-- Without rests no note follows one. -/
theorem followsRest_of_sung (hsung : ∀ note ∈ notes, note.isRest = false) (index : Nat) :
    followsRest notes index = false := by
  cases index with
  | zero => rfl
  | succ before =>
      show notes[before]?.elim false Note.isRest = false
      cases hnote : notes[before]? with
      | none => rfl
      | some note => exact hsung note (List.mem_of_getElem? hnote)

/-- What notes add and take before and after a timeline of sung notes: the first preutterance. -/
theorem sum_lead_of_sung (renderer : Renderer m ℝ)
    (hsung : ∀ note ∈ notes, note.isRest = false) (hne : notes ≠ []) :
    ∑ index ∈ Finset.range notes.length, renderer.lead notes index =
        renderer.preutteranceAt notes 0 ∧
      ∑ index ∈ Finset.range notes.length, renderer.intrusion notes index = 0 := by
  have hrest := followsRest_of_sung hsung
  constructor
  · rw [Finset.sum_eq_single 0]
    · simp [lead]
    · intro index _ hindex
      simp [lead, hindex, hrest]
    · intro hlength
      exact absurd (Finset.mem_range.mpr (List.length_pos_iff.mpr hne)) hlength
  · refine Finset.sum_eq_zero fun index _ => ?_
    simp [intrusion, hrest]

/-- A duration of whole frames, changed by others, is a number of frames. -/
theorem exists_frames {format : Format} {own duration overlap preutterance : ℝ}
    (hown : format.Whole own) (hduration : format.Whole duration) (hoverlap : format.Whole overlap)
    (hpreutterance : format.Whole preutterance) :
    ∃ frames : ℤ, own + duration + (overlap - preutterance) = format.time frames := by
  obtain ⟨first, rfl⟩ := hown
  obtain ⟨second, rfl⟩ := hduration
  obtain ⟨third, rfl⟩ := hoverlap
  obtain ⟨fourth, rfl⟩ := hpreutterance
  refine ⟨first + second + (third - fourth), ?_⟩
  simp only [Format.millis_eq_time, Format.time_add, Format.time_sub]

section Lengths

variable [Resampler ℝ] (renderer notes)

/-- Every sung note is stretched, without a crossfade, by an engine that works in the format of the
renderer and stretches exactly; all times are whole frames, and no render is shorter than the
overlap of the next note. -/
structure Stretched : Prop where
  rate : 0 < renderer.format.sampleRate
  crossfade : renderer.crossfade = 0
  stretch : ∀ (vowel : Segment ℝ) (ms : ℝ), vowel.format = renderer.format →
    ∃ stretched, renderer.engine.stretch vowel ms = .ok stretched ∧
      stretched.format = renderer.format ∧ stretched.frames = renderer.format.framesIn ms
  durations : ∀ note ∈ notes, renderer.format.Whole note.duration
  timings : ∀ note ∈ notes, ∀ timing, renderer.timing? note = some timing →
    renderer.format.Whole timing.preutterance ∧ renderer.format.Whole timing.overlap
  sung : ∀ index name pitch duration preutterance overlap,
    notes[index]? = some (.sung name pitch duration preutterance overlap) →
    ∃ sample tuned consonant vowel actual, renderer.bank.find? name = some sample ∧
      audio sample pitch = .ok tuned ∧ tuned.format = renderer.format ∧
      sample.slice tuned = .ok (consonant, vowel) ∧
      renderer.actualDuration notes index = .ok actual ∧
      consonant.duration + vowel.duration ≤ actual
  reach : ∀ index render, renderer.noteRender audio notes index = .ok render →
    renderer.reachBack notes index ≤ render.frames

variable {renderer audio notes}

/-! ## Renders of notes -/

/-- Consonant and stretched vowel last as long as the note must sound. -/
theorem fit_of_stretched (h : renderer.Stretched audio notes) {consonant vowel : Segment ℝ}
    (hconsonant : consonant.format = renderer.format) (hwhole : consonant.WholeFrames)
    (hvowel : vowel.format = renderer.format) (duration : ℝ) {frames : ℤ}
    (hnatural : consonant.duration + vowel.duration ≤ renderer.format.time frames) :
    ∃ sound, renderer.fit consonant vowel duration (renderer.format.time frames) = .ok sound ∧
      sound.format = renderer.format ∧ sound.WholeFrames ∧ (sound.frames : ℤ) = frames := by
  have hduration : ∀ segment : Segment ℝ, segment.format = renderer.format →
      segment.duration = renderer.format.time segment.frames := by
    intro segment hformat
    rw [Segment.duration, hformat, Format.millis_eq_time]
  obtain ⟨stretched, hstretched, hformat, hframes⟩ := h.stretch vowel
    (renderer.format.time frames - consonant.duration + renderer.crossfade) hvowel
  have hjoin : consonant.append stretched renderer.crossfade =
      .ok (consonant.concat stretched) := by
    apply Segment.append_of_format (hformat.trans hconsonant.symm)
    rw [h.crossfade]
    norm_num
  refine ⟨consonant.concat stretched, ?_, hconsonant, Segment.whole_frames_ofSamples _ _, ?_⟩
  · unfold fit
    dsimp only
    rw [if_neg (not_lt.mpr hnatural), hstretched, Except.ok_bind, hjoin]
    rfl
  · rw [Segment.frames_concat hwhole (hformat.trans hconsonant.symm), hframes, h.crossfade,
      add_zero, hduration consonant hconsonant, ← Format.time_sub, Format.framesIn_time h.rate]
    rw [hduration consonant hconsonant, hduration vowel hvowel, ← Format.time_add,
      Format.time_le_iff h.rate] at hnatural
    omega

/-- The timing of any note is whole frames. -/
theorem Stretched.whole_timingAt (h : renderer.Stretched audio notes) (index : Nat) :
    renderer.format.Whole (renderer.preutteranceAt notes index) ∧
      renderer.format.Whole (renderer.overlapAt notes index) := by
  unfold preutteranceAt overlapAt
  cases htiming : renderer.timingAt? notes index with
  | none => exact ⟨Format.whole_zero, Format.whole_zero⟩
  | some timing =>
      obtain ⟨note, hnote, htiming⟩ := Option.bind_eq_some_iff.mp htiming
      exact h.timings note (List.mem_of_getElem? hnote) timing htiming

/-- A rest is as long as it says. -/
theorem Stretched.exists_rest (h : renderer.Stretched audio notes) {index : Nat} {duration : ℝ}
    (hnote : notes[index]? = some (.rest duration)) :
    ∃ render, renderer.noteRender audio notes index = .ok render ∧ render.WholeFrames ∧
      renderer.format.time render.frames = duration := by
  refine ⟨_, noteRender_rest hnote, Segment.whole_frames_silentFrames _ _, ?_⟩
  rw [Segment.silence, Segment.frames_silentFrames]
  exact (h.durations _ (List.mem_of_getElem? hnote)).time_framesIn h.rate

/-- A sung note is as long as it must sound. -/
theorem Stretched.exists_sung (h : renderer.Stretched audio notes) {index : Nat} {name : String}
    {pitch duration : ℝ} {preutterance overlap : Option ℝ}
    (hnote : notes[index]? = some (.sung name pitch duration preutterance overlap)) :
    ∃ render, renderer.noteRender audio notes index = .ok render ∧ render.WholeFrames ∧
      renderer.format.time render.frames =
        renderer.preutteranceAt notes index + duration +
          (renderer.overlapAt notes (index + 1) - renderer.preutteranceAt notes (index + 1)) := by
  obtain ⟨sample, tuned, consonant, vowel, actual, hsample, htuned, hformat, hslice, hactual,
    hnatural⟩ := h.sung index name pitch duration preutterance overlap hnote
  obtain ⟨⟨hconsonant, hwhole⟩, hvowel, -⟩ := Sample.parts_of_slice hslice
  have hduration : actual = renderer.preutteranceAt notes index + duration +
      (renderer.overlapAt notes (index + 1) - renderer.preutteranceAt notes (index + 1)) :=
    Except.ok.inj (hactual.symm.trans
      (actualDuration_of_timing hnote (timing_of_sample pitch duration _ _ hsample)))
  obtain ⟨frames, hframes⟩ := exists_frames (h.whole_timingAt index).1
    (h.durations _ (List.mem_of_getElem? hnote)) (h.whole_timingAt (index + 1)).2
    (h.whole_timingAt (index + 1)).1
  obtain rfl : actual = renderer.format.time frames := hduration.trans hframes
  obtain ⟨sound, hsound, hsoundFormat, hsoundWhole, hsoundFrames⟩ :=
    fit_of_stretched h (hconsonant.trans hformat) hwhole (hvowel.trans hformat) duration hnatural
  have hshape : renderer.shapeNote notes index sample duration tuned = .ok sound := by
    unfold shapeNote
    rw [hslice, hactual]
    show renderer.fit consonant vowel duration _ >>= _ = _
    rw [hsound, Except.ok_bind, Segment.conform_self hsoundFormat]
    rfl
  refine ⟨sound, ?_, hsoundWhole, ?_⟩
  · rw [noteRender_sung hnote hsample, htuned, Except.ok_bind, hshape]
    rfl
  · rw [hsoundFrames, ← hduration]

/-! ## Telescoping -/

/-- A render reaches back by the overlap of the next note. -/
theorem Stretched.time_reachBack (h : renderer.Stretched audio notes) (index : Nat) :
    renderer.format.time (renderer.reachBack notes index) =
      renderer.overlapAt notes (index + 1) := by
  have hoverlap : (renderer.nextTiming? notes index).elim (0.0 : ℝ) Timing.overlap =
      renderer.overlapAt notes (index + 1) := by
    show (renderer.timingAt? notes (index + 1)).elim _ _ = _
    unfold overlapAt
    cases renderer.timingAt? notes (index + 1) with
    | none => norm_num
    | some next => rfl
  rw [reachBack, hoverlap]
  exact (h.whole_timingAt (index + 1)).2.time_framesIn h.rate

open Finset in
/-- After so many renders the timeline lasts as long as their notes, with what they add before
themselves and without what they take from rests; what is pending of the next note is missing. -/
theorem time_timelineEnd (h : renderer.Stretched audio notes) {renders : List (Segment ℝ)}
    (hlength : renders.length = notes.length)
    (hrenders : ∀ index (h : index < renders.length),
      renderer.noteRender audio notes index = .ok renders[index])
    {count : Nat} (hcount : count ≤ notes.length) :
    renderer.format.time (renderer.timelineEnd notes renders count) =
      ∑ index ∈ range count, (notes[index]?.elim 0 Note.duration +
        renderer.lead notes index - renderer.intrusion notes index) -
      renderer.pending notes count := by
  induction count with
  | zero => simp [timelineEnd, pending_zero, Format.time]
  | succ count ih =>
      have hindex : count < renders.length := by omega
      have hrender := hrenders count hindex
      have hend : renderer.format.time (renderer.timelineEnd notes renders (count + 1)) =
          renderer.format.time (renderer.timelineEnd notes renders count) +
            (renderer.format.time renders[count].frames -
              renderer.overlapAt notes (count + 1)) := by
        have hat : renderer.renderAt renders count = renders[count] := by
          simp [renderAt, hindex]
        have hreach := h.reach count _ hrender
        rw [← h.time_reachBack, ← Format.time_sub, ← Format.time_add, timelineEnd, hat]
        congr 1
        omega
      have hnote : notes[count]? = some notes[count] := List.getElem?_eq_getElem hcount
      rw [sum_range_succ, hend, ih (by omega)]
      -- a sung note has lent the next one the overlap that is taken here; a rest has lent nothing
      cases hkind : notes[count] with
      | rest duration =>
          rw [hkind] at hnote
          obtain ⟨render, hok, -, htime⟩ := h.exists_rest hnote
          obtain rfl : render = renders[count] := Except.ok.inj (hok.symm.trans hrender)
          have htiming : renderer.timingAt? notes count = none := by
            rw [timingAt?, hnote]
            rfl
          obtain ⟨hlead, hintrusion, hpending⟩ := no_timing htiming
          rw [htime, hnote, hlead, hintrusion, hpending, pending_after_rest hnote,
            Option.elim_some, Note.duration]
          ring
      | sung name pitch duration preutterance overlap =>
          rw [hkind] at hnote
          obtain ⟨render, hok, -, htime⟩ := h.exists_sung hnote
          obtain rfl : render = renders[count] := Except.ok.inj (hok.symm.trans hrender)
          rw [htime, hnote, pending_after_sung hnote rfl, pending, Option.elim_some, Note.duration]
          ring

/-- Every note of a timeline has a render of whole frames. -/
theorem Stretched.exists_render (h : renderer.Stretched audio notes) {index : Nat}
    (hindex : index < notes.length) :
    ∃ render, renderer.noteRender audio notes index = .ok render ∧ render.WholeFrames := by
  have hnote : notes[index]? = some notes[index] := List.getElem?_eq_getElem hindex
  cases hkind : notes[index] with
  | rest duration =>
      rw [hkind] at hnote
      obtain ⟨render, hok, hwhole, -⟩ := h.exists_rest hnote
      exact ⟨render, hok, hwhole⟩
  | sung name pitch duration preutterance overlap =>
      rw [hkind] at hnote
      obtain ⟨render, hok, hwhole, -⟩ := h.exists_sung hnote
      exact ⟨render, hok, hwhole⟩

/-- The timeline is made, and its length telescopes. -/
theorem Stretched.exists_timeline (h : renderer.Stretched audio notes) :
    ∃ timeline, renderer.timelineRender audio notes = .ok timeline ∧
      timeline.format = renderer.format ∧
      timeline.duration = Note.totalDuration notes +
        ∑ index ∈ Finset.range notes.length, renderer.lead notes index -
        ∑ index ∈ Finset.range notes.length, renderer.intrusion notes index := by
  have hresult : ∀ index < notes.length, ∃ render,
      renderer.noteRender audio notes index = .ok render := by
    intro index hindex
    obtain ⟨render, hok, -⟩ := h.exists_render hindex
    exact ⟨render, hok⟩
  obtain ⟨timeline, htimeline⟩ := timelineRender_ok_iff.mpr hresult
  obtain ⟨renders, horder, hspliced⟩ := Except.bind_eq_ok.mp htimeline
  obtain ⟨hlength, hrenders⟩ := WorkerPool.inOrder_eq_ok_iff.mp horder
  have hformat : ∀ render ∈ renders, render.format = renderer.format :=
    format_of_renders hrenders
  have hwhole : ∀ render ∈ renders, render.WholeFrames := by
    intro render hrender
    obtain ⟨index, hindex, rfl⟩ := List.mem_iff_getElem.mp hrender
    obtain ⟨render, hok, hwhole⟩ := h.exists_render (hlength ▸ hindex)
    exact Except.ok.inj ((hrenders index hindex).symm.trans hok) ▸ hwhole
  obtain ⟨spliced, hsplice, hspliceFormat, -, hframes, -⟩ := exists_splice notes hformat hwhole
  obtain rfl : spliced = timeline := Except.ok.inj (hsplice.symm.trans hspliced)
  refine ⟨spliced, htimeline, hspliceFormat, ?_⟩
  have hafter : renderer.timingAt? notes notes.length = none := by
    rw [timingAt?, List.getElem?_eq_none (Nat.le_refl _)]
    rfl
  obtain ⟨-, -, hpending⟩ := no_timing hafter
  have htime := time_timelineEnd h hlength hrenders (Nat.le_refl notes.length)
  rw [Finset.sum_sub_distrib, Finset.sum_add_distrib, sum_durations, hpending] at htime
  rw [Segment.duration, hspliceFormat, Format.millis_eq_time, hframes, hlength, htime, sub_zero]

/-- If every sung note is stretched to whole frames, rendering succeeds, for any number of workers
and any schedule, and the timeline lasts as long as its notes together, with the preutterance of
every sung note that is first or follows a rest, and without the overlap of every sung note that
follows a rest. A timeline of sung notes lasts as long as they do with the first preutterance. -/
theorem timeline_length_telescopes [Monad m] [LawfulMonad m] (renderer : Renderer m ℝ)
    {audio : Sample ℝ → ℝ → Except (RenderError ℝ) (Segment ℝ)}
    (hengine : renderer.engine.Sings renderer.bank audio) {notes : List (Note ℝ)}
    (h : renderer.Stretched audio notes) :
    ∃ timeline,
      (∀ workers schedule,
        Gives (({ renderer with workers } : Renderer m ℝ).render notes schedule).run
          (.ok timeline)) ∧
      timeline.format = renderer.format ∧
      timeline.duration = Note.totalDuration notes +
        ∑ index ∈ Finset.range notes.length, renderer.lead notes index -
        ∑ index ∈ Finset.range notes.length, renderer.intrusion notes index ∧
      (notes ≠ [] → (∀ note ∈ notes, note.isRest = false) →
        timeline.duration = renderer.preutteranceAt notes 0 + Note.totalDuration notes) := by
  obtain ⟨timeline, hresult, hformat, hduration⟩ := h.exists_timeline
  refine ⟨timeline, ?_, hformat, hduration, ?_⟩
  · intro workers schedule
    exact hresult ▸ has_render .given hengine notes workers schedule
  · intro hne hsung
    obtain ⟨hlead, hintrusion⟩ := sum_lead_of_sung renderer hsung hne
    rw [hduration, hlead, hintrusion]
    ring

end Lengths

/-! ## A rest and a song -/

/-- One second of silence, with a frame for every millisecond. -/
noncomputable def plainAudio : Segment ℝ :=
  .silentFrames (.mono 1000) 1000

/-- A renderer in exact arithmetic whose engine tunes everything to a second of silence. -/
noncomputable def silent : Renderer Id ℝ :=
  sequential plainBank
    { setup := fun _ => pure ()
      pitch := fun _ _ _ => pure plainAudio
      stretch := fun vowel ms => .ok (.silence vowel.format ms) }
    (.mono 1000)

/-- Its engine sings silence. -/
theorem sings_silent : silent.engine.Sings silent.bank (fun _ _ => .ok plainAudio) := by
  intro sample target
  exact .of_pure _

/-- The parts of the sample. -/
theorem slice_plain : ∃ consonant vowel : Segment ℝ,
    plainSample.slice plainAudio = .ok (consonant, vowel) ∧
      (consonant.format = .mono 1000 ∧ consonant.frames = 100) ∧
      vowel.format = .mono 1000 ∧ vowel.frames = 200 := by
  have haudio : plainAudio.frames = 1000 := Segment.frames_silentFrames _ _
  have hlength : plainAudio.length = 1000 := by
    rw [Segment.length_of_thousand rfl, haudio]
  have hslice : plainSample.slice plainAudio =
      .ok (plainAudio.slice (some (0 : Nat)) (some (100 : Nat)),
        plainAudio.slice (some (100 : Nat)) (some (300 : Nat))) := by
    unfold Sample.slice Sample.vowelRegion
    rw [hlength]
    norm_num [plainSample, Scalar.min, Scalar.isNaN, Scalar.abs]
  have hframes : ∀ start stop : Nat,
      (plainAudio.slice (some (start : ℝ)) (some (stop : ℝ))).frames =
        min stop 1000 - min start (min stop 1000) := by
    intro start stop
    have hcount : ∀ count : Nat, plainAudio.format.framesIn (count : ℝ) = count :=
      Format.framesIn_of_thousand
    show (plainAudio.sliceFrames (plainAudio.format.framesIn (start : ℝ))
      (plainAudio.format.framesIn (stop : ℝ))).frames = _
    rw [hcount, hcount, Segment.frames_sliceFrames, haudio]
  exact ⟨_, _, hslice, ⟨rfl, hframes 0 100⟩, rfl, hframes 100 300⟩

/-- A fifth of a second of rest and half a second of song. -/
noncomputable def plainNotes : List (Note ℝ) :=
  [.rest (200 : ℕ), .sung "a" (60 : ℕ) (500 : ℕ) none none]

/-- The timing of the sung note is that of the sample. -/
theorem timing_plainNotes :
    silent.timing? (.sung "a" (60 : ℕ) (500 : ℕ) none none) = some ⟨(50 : ℕ), (30 : ℕ)⟩ := by
  have hsample : silent.bank.find? "a" = some plainSample := find_plainSample
  exact timing_of_sample _ _ none none hsample

/-- The rest and the song meet the conditions. -/
theorem stretched_plain : silent.Stretched (fun _ _ => .ok plainAudio) plainNotes where
  rate := by decide
  crossfade := Exact.zero_eq
  stretch := by
    intro vowel ms hformat
    refine ⟨_, rfl, hformat, ?_⟩
    rw [Segment.silence, Segment.frames_silentFrames, hformat]
  durations := by
    intro note hnote
    rcases List.mem_pair.mp hnote with rfl | rfl
    · exact ⟨200, (Format.millis_of_thousand 200).symm⟩
    · exact ⟨500, (Format.millis_of_thousand 500).symm⟩
  timings := by
    intro note hnote timing htiming
    rcases List.mem_pair.mp hnote with rfl | rfl
    · cases htiming
    · obtain rfl := Option.some.inj (timing_plainNotes.symm.trans htiming)
      exact ⟨⟨50, (Format.millis_of_thousand 50).symm⟩, 30, (Format.millis_of_thousand 30).symm⟩
  sung := by
    intro index name pitch duration preutterance overlap hnote
    obtain rfl : index = 1 := by
      rcases index with _ | _ | index
      · cases hnote
      · rfl
      · cases hnote
    cases hnote
    obtain ⟨consonant, vowel, hslice, ⟨hconsonant, hframes⟩, hvowel, hvowelFrames⟩ := slice_plain
    refine ⟨plainSample, plainAudio, consonant, vowel, _, find_plainSample, rfl, rfl, hslice,
      actualDuration_of_timing rfl timing_plainNotes, ?_⟩
    have hown : silent.timingAt? plainNotes 1 = some ⟨(50 : ℕ), (30 : ℕ)⟩ := timing_plainNotes
    have hnext : silent.timingAt? plainNotes (1 + 1) = none := rfl
    rw [Segment.duration_of_thousand hconsonant, Segment.duration_of_thousand hvowel, hframes,
      hvowelFrames]
    norm_num [preutteranceAt, overlapAt, hown, hnext, Note.duration]
  reach := by
    intro index render hrender
    cases index with
    | zero =>
        have hnext : silent.nextTiming? plainNotes 0 = some ⟨(50 : ℕ), (30 : ℕ)⟩ :=
          timing_plainNotes
        have hback : silent.reachBack plainNotes 0 = 30 := by
          rw [reachBack, hnext]
          exact Format.framesIn_of_thousand 30
        have hframes : (Segment.silence silent.format ((200 : ℕ) : ℝ)).frames = 200 := by
          rw [Segment.silence, Segment.frames_silentFrames]
          exact Format.framesIn_of_thousand 200
        obtain rfl := Except.ok.inj ((noteRender_rest rfl).symm.trans hrender)
        omega
    | succ before =>
        have hzero : silent.reachBack plainNotes (before + 1) = 0 :=
          Format.framesIn_zero_of_thousand
        omega

/-- A rest of 200 ms and a note of 500 ms that starts 50 ms early and overlaps the rest by 30 ms:
720 ms in all. -/
theorem timeline_length_plain :
    silent.engine.Sings silent.bank (fun _ _ => .ok plainAudio) ∧
    silent.Stretched (fun _ _ => .ok plainAudio) plainNotes ∧
    ∃ timeline,
      (∀ workers schedule,
        Gives (({ silent with workers } : Renderer Id ℝ).render plainNotes schedule).run
          (.ok timeline)) ∧
      timeline.duration = 720 := by
  obtain ⟨timeline, hrender, -, hduration, -⟩ :=
    timeline_length_telescopes silent sings_silent stretched_plain
  refine ⟨sings_silent, stretched_plain, timeline, hrender, hduration.trans ?_⟩
  have hown : silent.timingAt? plainNotes 1 = some ⟨(50 : ℕ), (30 : ℕ)⟩ := timing_plainNotes
  have hfirst : silent.timingAt? plainNotes 0 = none := rfl
  have hstart : followsRest plainNotes 0 = false := rfl
  have hrest : followsRest plainNotes 1 = true := rfl
  have htotal : Note.totalDuration plainNotes = 700 := by
    show (0.0 : ℝ) + 200 + 500 = 700
    norm_num
  have hlead : silent.lead plainNotes 0 = 0 ∧ silent.lead plainNotes 1 = 50 := by
    simp [lead, preutteranceAt, hfirst, hown, hrest]
  have hintrusion : silent.intrusion plainNotes 0 = 0 ∧ silent.intrusion plainNotes 1 = 30 := by
    simp [intrusion, overlapAt, hstart, hown, hrest]
  have hlength : plainNotes.length = 2 := rfl
  simp only [hlength, Finset.sum_range_succ, Finset.sum_range_zero, htotal, hlead, hintrusion]
  norm_num

end SingingVoice.Renderer
