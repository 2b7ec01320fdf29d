import Mathlib
import SingingVoice.Proofs.Render.Shapes
import SingingVoice.Proofs.Render.Timeline
import SingingVoice.Proofs.Voicebank.Slicing

/-!
# Lengths of renders

How many frames the render of a note has in exact arithmetic, if the engine keeps to a format and to
durations. A rest has the frames of its duration. A sung note that must sound for less time than its
consonant and vowel last is cut off (`frames_of_short`), and others are stretched
(`frames_of_long`). The main theorem is `note_render_frames`.
-/

namespace SingingVoice

namespace Renderer

variable {m : Type → Type} {renderer : Renderer m ℝ} {Audio : Sample ℝ → ℝ → Segment ℝ → Prop}
  {notes : List (Note ℝ)} {index : Nat} {consonant vowel render : Segment ℝ}
  {duration actual : ℝ}

/-- A renderer for which notes are cut has a sample rate. -/
theorem Cut.rate_pos (h : renderer.Cut Audio notes index consonant vowel duration actual)
    (hkeeps : renderer.engine.Keeps renderer.format Audio) : 0 < renderer.format.sampleRate := by
  obtain ⟨name, pitch, preutterance, overlap, sample, tuned, -, -, haudio, hslice⟩ := h.audio
  rw [← hkeeps.tuned sample pitch tuned haudio]
  exact (Sample.fits_of_slice hslice).1.rate_pos

/-! ## Changes of the crossfade -/

/-- In exact arithmetic a negative crossfade counts as zero. -/
theorem crossfade_withCrossfade (renderer : Renderer m ℝ) (ms : ℝ) :
    (renderer.withCrossfade ms).crossfade = max ms 0 := by
  rw [withCrossfade, Exact.max_eq]
  norm_num

/-- The engine is the same with every crossfade. -/
theorem sings_withCrossfade [Monad m] {audio : Sample ℝ → ℝ → Except (RenderError ℝ) (Segment ℝ)}
    (h : renderer.engine.Sings renderer.bank audio) (ms : ℝ) :
    (renderer.withCrossfade ms).engine.Sings (renderer.withCrossfade ms).bank audio :=
  h

/-- Engine and format are the same with every crossfade. -/
theorem keeps_withCrossfade (h : renderer.engine.Keeps renderer.format Audio) (ms : ℝ) :
    (renderer.withCrossfade ms).engine.Keeps (renderer.withCrossfade ms).format Audio :=
  h

/-- How a note is cut does not depend on the crossfade. -/
theorem cut_withCrossfade {ms : ℝ} :
    (renderer.withCrossfade ms).Cut Audio notes index consonant vowel duration actual ↔
      renderer.Cut Audio notes index consonant vowel duration actual :=
  ⟨fun h => ⟨h.audio, h.actual⟩, fun h => ⟨h.audio, h.actual⟩⟩

/-! ## Cut off and stretched notes -/

/-- What is left for the vowel has the frames of the note without those of the consonant, and a
crossfade adds its frames to them, up to one. -/
theorem framesIn_target (hcut : renderer.Cut Audio notes index consonant vowel duration actual)
    (hkeeps : renderer.engine.Keeps renderer.format Audio)
    (hlong : consonant.duration + vowel.duration ≤ actual) {crossfade : ℝ}
    (hcrossfade : 0 ≤ crossfade) :
    renderer.format.framesIn actual =
        renderer.format.framesIn (actual - consonant.duration) + consonant.frames ∧
      renderer.format.framesIn (actual - consonant.duration + crossfade) ≤
        renderer.format.framesIn (actual - consonant.duration) +
          renderer.format.framesIn crossfade + 1 ∧
      renderer.format.framesIn (actual - consonant.duration) +
          renderer.format.framesIn crossfade ≤
        renderer.format.framesIn (actual - consonant.duration + crossfade) + 1 := by
  obtain ⟨⟨hconsonant, -⟩, -, -⟩ := hcut.parts hkeeps
  have hduration : consonant.duration = renderer.format.millis consonant.frames := by
    rw [Segment.duration, hconsonant]
  have hleft : 0 ≤ actual - consonant.duration := by
    have hvowelDuration := vowel.duration_nonneg
    linarith
  have hsum := Format.framesIn_add_millis (hcut.rate_pos hkeeps) hleft consonant.frames
  rw [← hduration, sub_add_cancel] at hsum
  exact ⟨hsum, renderer.format.framesIn_add hleft hcrossfade⟩

section Renders

variable [Resampler ℝ]

/-- A note that is cut off is the beginning of consonant and vowel joined, which are as long as both
but for their blend. -/
theorem frames_of_short (hcut : renderer.Cut Audio notes index consonant vowel duration actual)
    (hkeeps : renderer.engine.Keeps renderer.format Audio)
    (h : renderer.fit consonant vowel duration actual = .ok render)
    (hshort : actual < consonant.duration + vowel.duration) :
    ∃ joined, consonant.append vowel renderer.crossfade = .ok joined ∧
      render = joined.sliceFrames 0 render.frames ∧
      render.frames = min (renderer.format.framesIn duration)
        (consonant.frames + vowel.frames -
          min (min (renderer.format.framesIn renderer.crossfade) consonant.frames)
            vowel.frames) := by
  obtain ⟨⟨hconsonant, hwhole⟩, hvowel, hvowelWhole⟩ := hcut.parts hkeeps
  rcases fit_cases h with ⟨-, joined, hjoined, hrender⟩ | ⟨hlong, -⟩
  · obtain ⟨hjoins, -⟩ :=
      Segment.joins_of_append hwhole hvowelWhole (hvowel.trans hconsonant.symm) hjoined
    have hjoinedFrames := hjoins.frames
    rw [Segment.blend, hconsonant] at hjoinedFrames
    rw [hjoins.format.trans hconsonant] at hrender
    have hframes : render.frames = min (renderer.format.framesIn duration) joined.frames := by
      rw [hrender, Segment.frames_sliceFrames, Nat.zero_min, Nat.sub_zero]
    refine ⟨joined, hjoined, ?_, ?_⟩
    · rw [hframes, Segment.sliceFrames_min_frames]
      exact hrender
    · omega
  · exact absurd hshort hlong

/-- A note that is stretched begins with the consonant up to the crossfade, and is as long as the
consonant and the stretched vowel but for their blend, which the vowel does not limit. -/
theorem frames_of_long (hcut : renderer.Cut Audio notes index consonant vowel duration actual)
    (hkeeps : renderer.engine.Keeps renderer.format Audio)
    (h : renderer.fit consonant vowel duration actual = .ok render)
    (hlong : consonant.duration + vowel.duration ≤ actual) :
    render.sliceFrames 0 (consonant.frames -
        min (renderer.format.framesIn renderer.crossfade) consonant.frames) =
      consonant.sliceFrames 0 (consonant.frames -
        min (renderer.format.framesIn renderer.crossfade) consonant.frames) ∧
    render.frames = consonant.frames +
      renderer.format.framesIn (actual - consonant.duration + renderer.crossfade) -
      min (renderer.format.framesIn renderer.crossfade) consonant.frames ∧
    (0 < renderer.crossfade → renderer.crossfade ≤ consonant.duration + 1 / 2) := by
  obtain ⟨⟨hconsonant, hwhole⟩, hvowel, -⟩ := hcut.parts hkeeps
  rcases fit_cases h with ⟨hshort, -⟩ | ⟨-, stretched, hstretched, hrender⟩
  · exact absurd hlong (not_le.mpr hshort)
  · obtain ⟨hformat, hstretchedWhole, hstretchedFrames⟩ :=
      hkeeps.stretched vowel stretched _ hvowel hstretched
    obtain ⟨hjoins, hfits⟩ :=
      Segment.joins_of_append hwhole hstretchedWhole (hformat.trans hconsonant.symm) hrender
    -- the crossfade is added to what is left for the vowel, so the vowel is at least as long
    have hroom : renderer.format.framesIn renderer.crossfade ≤ stretched.frames := by
      rw [hstretchedFrames]
      apply Format.framesIn_mono
      have hvowelDuration := vowel.duration_nonneg
      linarith
    have hblend : consonant.blend stretched renderer.crossfade =
        min (renderer.format.framesIn renderer.crossfade) consonant.frames := by
      rw [Segment.blend, hconsonant]
      omega
    have hframes := hjoins.frames
    have hstart := hjoins.start
    rw [hblend] at hframes hstart
    refine ⟨hstart, ?_, fun hpos => (hfits hpos).1⟩
    omega

/-- Without a crossfade, a note that is stretched has the frames that it must sound. -/
theorem frames_of_long_plain
    (hcut : renderer.Cut Audio notes index consonant vowel duration actual)
    (hkeeps : renderer.engine.Keeps renderer.format Audio)
    (h : renderer.fit consonant vowel duration actual = .ok render)
    (hlong : consonant.duration + vowel.duration ≤ actual) (hcrossfade : renderer.crossfade = 0) :
    render.frames = renderer.format.framesIn actual := by
  obtain ⟨-, hframes, -⟩ := frames_of_long hcut hkeeps h hlong
  obtain ⟨hactual, -⟩ := framesIn_target hcut hkeeps hlong le_rfl
  rw [hcrossfade, add_zero, Format.framesIn_of_nonpos le_rfl] at hframes
  omega

/-- Up to one frame, a note that is stretched has the frames that it must sound, and those by which
the crossfade is longer than the consonant. -/
theorem frames_of_long_near
    (hcut : renderer.Cut Audio notes index consonant vowel duration actual)
    (hkeeps : renderer.engine.Keeps renderer.format Audio)
    (h : renderer.fit consonant vowel duration actual = .ok render)
    (hlong : consonant.duration + vowel.duration ≤ actual) (hcrossfade : 0 ≤ renderer.crossfade) :
    render.frames ≤ renderer.format.framesIn actual +
        (renderer.format.framesIn renderer.crossfade - consonant.frames) + 1 ∧
      renderer.format.framesIn actual +
          (renderer.format.framesIn renderer.crossfade - consonant.frames) ≤
        render.frames + 1 := by
  obtain ⟨-, hframes, -⟩ := frames_of_long hcut hkeeps h hlong
  obtain ⟨hactual, hupper, hlower⟩ := framesIn_target hcut hkeeps hlong hcrossfade
  omega

/-- In exact arithmetic, if the engine keeps to the format of the renderer and to durations, a rest
is rendered as silence with the frames of its duration. Every render of a sung note is made of a
cut: if the note must sound for less time than its parts last, it is the beginning of the parts
joined, with the frames of its duration at most; else it begins with the consonant up to the
crossfade and has the frames of consonant and stretched vowel without those of the crossfade.
Without a crossfade these are the frames that the note must sound, and with one that has no more
frames than the consonant, up to one of them. -/
theorem note_render_frames [Monad m] [LawfulMonad m] (renderer : Renderer m ℝ)
    {Audio : Sample ℝ → ℝ → Segment ℝ → Prop}
    (hengine : renderer.engine.Tunes renderer.bank Audio)
    (hkeeps : renderer.engine.Keeps renderer.format Audio) (hcrossfade : 0 ≤ renderer.crossfade)
    (notes : List (Note ℝ)) (index : Nat) :
    (∀ duration, notes[index]? = some (.rest duration) →
      ∃ render, renderer.renderNote notes index = pure render ∧
        render.format = renderer.format ∧ render.WholeFrames ∧
        render.frames = renderer.format.framesIn duration ∧ ∀ x ∈ render.samples, x = 0) ∧
    ∀ name pitch duration preutterance overlap,
      notes[index]? = some (.sung name pitch duration preutterance overlap) →
      SatisfiesM
        (fun render => ∃ consonant vowel actual,
          renderer.Cut Audio notes index consonant vowel duration actual ∧
          (actual < consonant.duration + vowel.duration →
            ∃ joined, consonant.append vowel renderer.crossfade = .ok joined ∧
              render = joined.sliceFrames 0 render.frames ∧
              render.frames = min (renderer.format.framesIn duration)
                (consonant.frames + vowel.frames -
                  min (min (renderer.format.framesIn renderer.crossfade) consonant.frames)
                    vowel.frames)) ∧
          (consonant.duration + vowel.duration ≤ actual →
            render.sliceFrames 0 (consonant.frames -
                min (renderer.format.framesIn renderer.crossfade) consonant.frames) =
              consonant.sliceFrames 0 (consonant.frames -
                min (renderer.format.framesIn renderer.crossfade) consonant.frames) ∧
            render.frames = consonant.frames +
              renderer.format.framesIn (actual - consonant.duration + renderer.crossfade) -
              min (renderer.format.framesIn renderer.crossfade) consonant.frames ∧
            (renderer.crossfade = 0 → render.frames = renderer.format.framesIn actual) ∧
            (renderer.format.framesIn renderer.crossfade ≤ consonant.frames →
              render.frames ≤ renderer.format.framesIn actual + 1 ∧
                renderer.format.framesIn actual ≤ render.frames + 1)))
        (renderer.renderNote notes index) := by
  constructor
  · intro duration hnote
    refine ⟨.silence renderer.format duration, ?_, rfl, Segment.whole_frames_silentFrames _ _,
      Segment.frames_silentFrames _ _, ?_⟩
    · exact renderNote_rest hnote
    · intro x hx
      have hzero := Array.eq_of_mem_replicate hx
      rw [hzero]
      norm_num
  · intro name pitch duration preutterance overlap hnote
    refine (satisfiesM_renderNote hengine hkeeps hnote).imp ?_
    rintro render ⟨consonant, vowel, actual, hcut, hfit⟩
    refine ⟨consonant, vowel, actual, hcut, frames_of_short hcut hkeeps hfit, ?_⟩
    intro hlong
    obtain ⟨hstart, hframes, -⟩ := frames_of_long hcut hkeeps hfit hlong
    obtain ⟨hupper, hlower⟩ := frames_of_long_near hcut hkeeps hfit hlong hcrossfade
    refine ⟨hstart, hframes, frames_of_long_plain hcut hkeeps hfit hlong, ?_⟩
    intro hroom
    omega

end Renders

/-! ## Notes of a silent sample -/

/-- The engine of the silent renderer keeps to the format and to durations. -/
theorem keeps_silent :
    silent.engine.Keeps silent.format (Engine.Only fun _ _ => .ok plainAudio) where
  tuned := by
    intro sample target tuned htuned
    cases htuned
    rfl
  stretched := by
    intro vowel stretched ms hformat hstretched
    cases hstretched
    refine ⟨hformat, Segment.whole_frames_silentFrames _ _, ?_⟩
    rw [Segment.silence, Segment.frames_silentFrames, hformat]

/-- The sample of the silent renderer, sung for so many milliseconds. -/
noncomputable def plainNote (ms : Nat) : Note ℝ :=
  .sung "a" (60 : ℕ) ms none none

/-- A last note of so many milliseconds, sung by the silent renderer with a crossfade: what it is
cut into and rendered as. -/
structure SilentNote (crossfade : Nat) (notes : List (Note ℝ)) (index ms : Nat)
    (consonant vowel render : Segment ℝ) : Prop where
  slice : plainSample.slice plainAudio = .ok (consonant, vowel)
  frames : consonant.frames = 100 ∧ vowel.frames = 200
  durations : consonant.duration = 100 ∧ vowel.duration = 200
  cut : (silent.withCrossfade crossfade).Cut (Engine.Only fun _ _ => .ok plainAudio) notes index
    consonant vowel ms (50 + ms : ℕ)
  fit : (silent.withCrossfade crossfade).fit consonant vowel ms (50 + ms : ℕ) = .ok render
  gives : Gives ((silent.withCrossfade crossfade).renderNote notes index).run (.ok render)

/-- A crossfade of so many milliseconds. -/
theorem crossfade_silent (crossfade : Nat) :
    (silent.withCrossfade crossfade).crossfade = (crossfade : ℝ) := by
  rw [crossfade_withCrossfade, max_eq_left (Nat.cast_nonneg _)]

/-- At a thousand frames per second whole milliseconds are whole frames. -/
theorem framesIn_silent (crossfade count : Nat) :
    (silent.withCrossfade crossfade).format.framesIn (count : ℝ) = count :=
  Format.framesIn_of_thousand count

/-- The parts of the sample are fitted together to every length with every crossfade that is not
longer than the consonant. -/
theorem exists_fit_silent {crossfade : Nat} (hcrossfade : crossfade ≤ 100)
    {consonant vowel : Segment ℝ} (hconsonant : consonant.format = .mono 1000)
    (hframes : consonant.frames = 100) (hvowel : vowel.format = .mono 1000)
    (hvowelFrames : vowel.frames = 200) (duration : ℝ) (actual : Nat) :
    ∃ render, (silent.withCrossfade crossfade).fit consonant vowel duration actual =
      .ok render := by
  have hjoin : ∀ second : Segment ℝ, second.format = .mono 1000 → crossfade ≤ second.frames →
      ∃ render, consonant.append second crossfade = .ok render := by
    intro second hsecond hroom
    refine Segment.exists_append (hsecond.trans hconsonant.symm) ?_ ?_ ?_
    · rw [hconsonant]
      decide
    · rw [Segment.length_of_thousand hconsonant, hframes]
      exact_mod_cast hcrossfade
    · rw [Segment.length_of_thousand hsecond]
      exact_mod_cast hroom
  refine exists_fit ?_ ?_
  · rw [crossfade_silent]
    exact hjoin vowel hvowel (by omega)
  · -- a note that is stretched has at least the crossfade left for its vowel
    intro hlong
    rw [Segment.duration_of_thousand hconsonant, Segment.duration_of_thousand hvowel, hframes,
      hvowelFrames] at hlong
    have hlong' : 100 + 200 ≤ actual := by exact_mod_cast not_lt.mp hlong
    have htarget : (actual : ℝ) - consonant.duration + crossfade =
        ((actual - 100 + crossfade : ℕ) : ℝ) := by
      rw [Segment.duration_of_thousand hconsonant, hframes]
      push_cast [Nat.cast_sub (show 100 ≤ actual by omega)]
      ring
    have hroom : crossfade ≤
        (Segment.silence vowel.format ((actual - 100 + crossfade : ℕ) : ℝ)).frames := by
      rw [Segment.silence, Segment.frames_silentFrames, hvowel, Format.framesIn_of_thousand]
      omega
    rw [crossfade_silent, htarget]
    obtain ⟨render, hrender⟩ := hjoin (.silence vowel.format _) hvowel hroom
    exact ⟨_, render, rfl, hrender⟩

/-- The timing of a note is that of the sample. -/
theorem timing_plainNote (crossfade ms : Nat) :
    (silent.withCrossfade crossfade).timing? (plainNote ms) = some ⟨(50 : ℕ), (30 : ℕ)⟩ := by
  have hfound : (silent.withCrossfade crossfade).bank.find? "a" = some plainSample :=
    find_plainSample
  exact timing_of_sample _ _ none none hfound

/-- With every crossfade a note is cut into the parts of the sample. It must sound from 50 ms early
on, and changed by the timing of the note after it. -/
theorem exists_cut_silent (crossfade : Nat) {notes : List (Note ℝ)} {index ms : Nat}
    (hnote : notes[index]? = some (plainNote ms)) :
    ∃ consonant vowel : Segment ℝ, plainSample.slice plainAudio = .ok (consonant, vowel) ∧
      (consonant.format = .mono 1000 ∧ consonant.frames = 100) ∧
      (vowel.format = .mono 1000 ∧ vowel.frames = 200) ∧
      (silent.withCrossfade crossfade).Cut (Engine.Only fun _ _ => .ok plainAudio) notes index
        consonant vowel ms (50 + ms + ((silent.withCrossfade crossfade).overlapAt notes (index + 1) -
          (silent.withCrossfade crossfade).preutteranceAt notes (index + 1))) := by
  obtain ⟨consonant, vowel, hslice, hconsonant, hvowel⟩ := slice_plain
  have htiming := timing_plainNote crossfade ms
  have hown : (silent.withCrossfade crossfade).preutteranceAt notes index = 50 := by
    rw [preutteranceAt, timingAt?, hnote, Option.bind_some, htiming]
    norm_num
  refine ⟨consonant, vowel, hslice, hconsonant, hvowel,
    ⟨"a", (60 : ℕ), none, none, plainSample, plainAudio, hnote, find_plainSample, rfl, hslice⟩,
    ?_⟩
  rw [actualDuration_of_timing hnote htiming, hown]
  rfl

/-- A last note is rendered with every crossfade that is not longer than the consonant. -/
theorem exists_silentNote {crossfade : Nat} (hcrossfade : crossfade ≤ 100)
    {notes : List (Note ℝ)} {index ms : Nat} (hnote : notes[index]? = some (plainNote ms))
    (hlast : notes[index + 1]? = none) :
    ∃ consonant vowel render, SilentNote crossfade notes index ms consonant vowel render := by
  obtain ⟨consonant, vowel, hslice, ⟨hconsonant, hframes⟩, ⟨hvowel, hvowelFrames⟩, hcut⟩ :=
    exists_cut_silent crossfade hnote
  have hnext : (silent.withCrossfade crossfade).timingAt? notes (index + 1) = none := by
    rw [timingAt?, hlast]
    rfl
  have hactual : (50 : ℝ) + ms + ((silent.withCrossfade crossfade).overlapAt notes (index + 1) -
      (silent.withCrossfade crossfade).preutteranceAt notes (index + 1)) = (50 + ms : ℕ) := by
    rw [overlapAt, preutteranceAt, hnext, Option.elim_none, Option.elim_none]
    push_cast
    ring
  rw [hactual] at hcut
  obtain ⟨render, hfit⟩ :=
    exists_fit_silent hcrossfade hconsonant hframes hvowel hvowelFrames ms (50 + ms)
  have hresult := noteRender_of_fit (keeps_withCrossfade keeps_silent _) hcut hfit
  have hgives := has_renderNote .given (sings_withCrossfade sings_silent crossfade) notes index
  have hduration := Segment.duration_of_thousand hconsonant
  have hvowelDuration := Segment.duration_of_thousand hvowel
  rw [hframes] at hduration
  rw [hvowelFrames] at hvowelDuration
  exact ⟨consonant, vowel, render, hslice, ⟨hframes, hvowelFrames⟩,
    ⟨by exact_mod_cast hduration, by exact_mod_cast hvowelDuration⟩, hcut, hfit,
    hresult ▸ hgives⟩

/-- A note that must sound for less than 300 ms is cut off, or ends with its parts. -/
theorem SilentNote.frames_of_short {crossfade ms : Nat} (hcrossfade : crossfade ≤ 100)
    (hms : ms < 250) {notes : List (Note ℝ)} {index : Nat} {consonant vowel render : Segment ℝ}
    (h : SilentNote crossfade notes index ms consonant vowel render) :
    render.frames = min ms (300 - crossfade) := by
  have hshort : ((50 + ms : ℕ) : ℝ) < consonant.duration + vowel.duration := by
    rw [h.durations.1, h.durations.2]
    exact_mod_cast (by omega : 50 + ms < 100 + 200)
  obtain ⟨joined, -, -, hframes⟩ :=
    Renderer.frames_of_short h.cut (keeps_withCrossfade keeps_silent _) h.fit hshort
  rw [crossfade_silent, framesIn_silent, framesIn_silent, h.frames.1, h.frames.2] at hframes
  omega

/-- A rest of 200 ms, and a note of 500 ms that starts 50 ms early and has a crossfade of 20 ms: it
is 550 ms long. -/
theorem crossfaded_note_frames :
    let renderer := silent.withCrossfade (20 : ℕ)
    renderer.engine.Tunes renderer.bank (Engine.Only fun _ _ => .ok plainAudio) ∧
    renderer.engine.Keeps renderer.format (Engine.Only fun _ _ => .ok plainAudio) ∧
    0 ≤ renderer.crossfade ∧
    ∃ rest render : Segment ℝ,
      Gives (renderer.renderNote plainNotes 0).run (.ok rest) ∧ rest.frames = 200 ∧
      Gives (renderer.renderNote plainNotes 1).run (.ok render) ∧ render.frames = 550 := by
  intro renderer
  have htunes := (sings_withCrossfade sings_silent (20 : ℕ)).tunes
  have hkeeps := keeps_withCrossfade keeps_silent (20 : ℕ)
  have hms : renderer.crossfade = (20 : ℕ) := crossfade_silent 20
  have hcrossfade : 0 ≤ renderer.crossfade := hms ▸ Nat.cast_nonneg _
  obtain ⟨hrest, -⟩ := note_render_frames renderer htunes hkeeps hcrossfade plainNotes 0
  obtain ⟨-, hsung⟩ := note_render_frames renderer htunes hkeeps hcrossfade plainNotes 1
  obtain ⟨rest, hrenderRest, -, -, hrestFrames, -⟩ := hrest (200 : ℕ) rfl
  have hnote : plainNotes[1]? = some (plainNote 500) := rfl
  obtain ⟨consonant, vowel, render, h⟩ := exists_silentNote (by norm_num : 20 ≤ 100) hnote rfl
  have hcount : ∀ count : Nat, renderer.format.framesIn (count : ℝ) = count := framesIn_silent 20
  refine ⟨htunes, hkeeps, hcrossfade, rest, render, ?_, ?_, h.gives, ?_⟩
  · rw [hrenderRest]
    exact .of_pure _
  · rw [hrestFrames, hcount]
  · have hlengths := hsung "a" (60 : ℕ) (500 : ℕ) none none rfl
    rw [SatisfiesM_ExceptT_eq, SatisfiesM_Id_eq] at hlengths
    obtain ⟨consonant', vowel', actual, hcut, -, hlong⟩ := hlengths render h.gives.symm
    obtain ⟨rfl, rfl, -, rfl⟩ := hcut.unique h.cut
    rw [h.frames.1, h.durations.1, h.durations.2, hms] at hlong
    obtain ⟨-, hrenderFrames, -⟩ := hlong (by norm_num)
    have htarget : ((50 + 500 : ℕ) : ℝ) - 100 + (20 : ℕ) = (470 : ℕ) := by norm_num
    rw [hrenderFrames, htarget, hcount, hcount]
    norm_num

end Renderer

end SingingVoice
