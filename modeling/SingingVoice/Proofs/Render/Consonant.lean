import Mathlib
import SingingVoice.Proofs.Render.Lengths

/-!
# Consonants of short notes

Without a crossfade the render of a sung note begins with its consonant, and only the vowel is
stretched. But a note that must sound for less time than its parts last is cut off after its
duration, wherever that is: the consonant is whole exactly if it has no more frames than the
duration (`consonant_kept_iff`).
-/

namespace SingingVoice.Renderer

variable {m : Type → Type} {α : Type} [Scalar α] [Resampler α] {renderer : Renderer m α}
  {Audio : Sample α → α → Segment α → Prop} {notes : List (Note α)} {index : Nat}
  {consonant vowel render : Segment α} {duration actual : α}

/-- Without a crossfade the parts of a note, or the consonant and the stretched vowel, are put one
after another. -/
theorem fit_plain_cases (hcut : renderer.Cut Audio notes index consonant vowel duration actual)
    (hkeeps : renderer.engine.Keeps renderer.format Audio) (hcrossfade : renderer.crossfade ≤ 0.0)
    (h : renderer.fit consonant vowel duration actual = .ok render) :
    (actual < consonant.duration + vowel.duration ∧
      render = (consonant.concat vowel).sliceFrames 0 (renderer.format.framesIn duration)) ∨
    (¬ actual < consonant.duration + vowel.duration ∧
      ∃ stretched, renderer.engine.stretch vowel
          (actual - consonant.duration + renderer.crossfade) = .ok stretched ∧
        render = consonant.concat stretched) := by
  obtain ⟨⟨hconsonant, -⟩, hvowel, -⟩ := hcut.parts hkeeps
  rcases fit_cases h with ⟨hshort, joined, hjoined, hrender⟩ | ⟨hlong, stretched, hstretched, hrender⟩
  · rw [Segment.append_of_format (hvowel.trans hconsonant.symm) hcrossfade] at hjoined
    cases hjoined
    have hformat : (consonant.concat vowel).format = renderer.format := hconsonant
    rw [hformat] at hrender
    exact .inl ⟨hshort, hrender⟩
  · obtain ⟨hformat, -⟩ := hkeeps.stretched vowel stretched _ hvowel hstretched
    rw [Segment.append_of_format (hformat.trans hconsonant.symm) hcrossfade] at hrender
    cases hrender
    exact .inr ⟨hlong, stretched, hstretched, rfl⟩

/-- The beginning of a note is its consonant exactly if the note is stretched or is cut off no
earlier than the consonant ends. -/
theorem beginning_eq_consonant_iff
    (hcut : renderer.Cut Audio notes index consonant vowel duration actual)
    (hkeeps : renderer.engine.Keeps renderer.format Audio) (hcrossfade : renderer.crossfade ≤ 0.0)
    (h : renderer.fit consonant vowel duration actual = .ok render) :
    render.sliceFrames 0 consonant.frames = consonant ↔
      (actual < consonant.duration + vowel.duration →
        consonant.frames ≤ renderer.format.framesIn duration) := by
  obtain ⟨⟨-, hwhole⟩, -⟩ := hcut.parts hkeeps
  rcases fit_plain_cases hcut hkeeps hcrossfade h with
    ⟨hshort, rfl⟩ | ⟨hlong, stretched, -, rfl⟩
  · rw [Segment.sliceFrames_sliceFrames, Nat.zero_add, Nat.zero_add]
    constructor
    · intro hkept _
      -- a beginning of fewer frames is not the consonant
      have hframes := congrArg Segment.frames hkept
      rw [Segment.frames_sliceFrames] at hframes
      omega
    · intro hle
      rw [Nat.min_eq_left (hle hshort)]
      exact Segment.sliceFrames_concat hwhole vowel
  · exact ⟨fun _ hshort => absurd hshort hlong,
      fun _ => Segment.sliceFrames_concat hwhole stretched⟩

/-- If the engine keeps to the format of the renderer and to durations and there is no crossfade,
every render of a sung note is made of a cut. If the note must sound for less time than consonant
and vowel last, it is the beginning of the two, cut off after the duration; else it is the consonant
and the stretched vowel. So it begins with the whole consonant exactly if it is stretched, or if its
duration has as many frames as the consonant. -/
theorem consonant_kept_iff [Monad m] [LawfulMonad m] (renderer : Renderer m α)
    {Audio : Sample α → α → Segment α → Prop}
    (hengine : renderer.engine.Tunes renderer.bank Audio)
    (hkeeps : renderer.engine.Keeps renderer.format Audio) (hcrossfade : renderer.crossfade ≤ 0.0)
    {notes : List (Note α)} {index : Nat} {name : String} {pitch duration : α}
    {preutterance overlap : Option α}
    (hnote : notes[index]? = some (.sung name pitch duration preutterance overlap)) :
    SatisfiesM
      (fun render => ∃ consonant vowel actual,
        renderer.Cut Audio notes index consonant vowel duration actual ∧
        (actual < consonant.duration + vowel.duration →
          render = (consonant.concat vowel).sliceFrames 0 (renderer.format.framesIn duration)) ∧
        (¬ actual < consonant.duration + vowel.duration →
          ∃ stretched, renderer.engine.stretch vowel
              (actual - consonant.duration + renderer.crossfade) = .ok stretched ∧
            render = consonant.concat stretched) ∧
        (render.sliceFrames 0 consonant.frames = consonant ↔
          (actual < consonant.duration + vowel.duration →
            consonant.frames ≤ renderer.format.framesIn duration)))
      (renderer.renderNote notes index) := by
  refine (satisfiesM_renderNote hengine hkeeps hnote).imp ?_
  rintro render ⟨consonant, vowel, actual, hcut, hfit⟩
  refine ⟨consonant, vowel, actual, hcut, ?_, ?_,
    beginning_eq_consonant_iff hcut hkeeps hcrossfade hfit⟩
  · intro hshort
    rcases fit_plain_cases hcut hkeeps hcrossfade hfit with ⟨-, hrender⟩ | ⟨hlong, -⟩
    · exact hrender
    · exact absurd hshort hlong
  · intro hlong
    rcases fit_plain_cases hcut hkeeps hcrossfade hfit with
      ⟨hshort, -⟩ | ⟨-, hrender⟩
    · exact absurd hshort hlong
    · exact hrender

/-- A crossfade of no milliseconds is none. -/
theorem no_crossfade_silent : (silent.withCrossfade (0 : ℕ)).crossfade ≤ 0.0 := by
  rw [crossfade_silent]
  norm_num

/-- A note of 120 ms that starts 50 ms early is cut off, but keeps its consonant of 100 ms. -/
theorem consonant_kept_in_longer_note :
    let renderer := silent.withCrossfade (0 : ℕ)
    renderer.engine.Tunes renderer.bank (Engine.Only fun _ _ => .ok plainAudio) ∧
    renderer.engine.Keeps renderer.format (Engine.Only fun _ _ => .ok plainAudio) ∧
    renderer.crossfade ≤ 0.0 ∧
    ∃ render consonant vowel : Segment ℝ,
      Gives (renderer.renderNote [plainNote 120] 0).run (.ok render) ∧
      plainSample.slice plainAudio = .ok (consonant, vowel) ∧ consonant.frames = 100 ∧
      render.sliceFrames 0 consonant.frames = consonant := by
  intro renderer
  have htunes := (sings_withCrossfade sings_silent (0 : ℕ)).tunes
  have hkeeps := keeps_withCrossfade keeps_silent (0 : ℕ)
  have hnote : [plainNote 120][0]? = some (plainNote 120) := rfl
  obtain ⟨consonant, vowel, render, h⟩ := exists_silentNote (by norm_num : 0 ≤ 100) hnote rfl
  have hkept := consonant_kept_iff renderer htunes hkeeps no_crossfade_silent hnote
  rw [SatisfiesM_ExceptT_eq, SatisfiesM_Id_eq] at hkept
  obtain ⟨consonant', vowel', actual, hcut, -, -, hiff⟩ := hkept render h.gives.symm
  obtain ⟨rfl, rfl, -, rfl⟩ := hcut.unique h.cut
  have hcount : renderer.format.framesIn ((120 : ℕ) : ℝ) = 120 := framesIn_silent 0 120
  rw [h.frames.1, hcount] at hiff
  refine ⟨htunes, hkeeps, no_crossfade_silent, render, consonant', vowel', h.gives, h.slice,
    h.frames.1, ?_⟩
  rw [h.frames.1]
  exact hiff.mpr fun _ => by norm_num

/-- A note of 80 ms that starts 50 ms early is rendered without the last 20 ms of its consonant. -/
theorem consonant_cut_off :
    let renderer := silent.withCrossfade (0 : ℕ)
    renderer.engine.Tunes renderer.bank (Engine.Only fun _ _ => .ok plainAudio) ∧
    renderer.engine.Keeps renderer.format (Engine.Only fun _ _ => .ok plainAudio) ∧
    renderer.crossfade ≤ 0.0 ∧
    ∃ render consonant vowel : Segment ℝ,
      Gives (renderer.renderNote [plainNote 80] 0).run (.ok render) ∧
      plainSample.slice plainAudio = .ok (consonant, vowel) ∧ consonant.frames = 100 ∧
      render.frames = 80 ∧ render.sliceFrames 0 consonant.frames ≠ consonant := by
  intro renderer
  have hnote : [plainNote 80][0]? = some (plainNote 80) := rfl
  obtain ⟨consonant, vowel, render, h⟩ := exists_silentNote (by norm_num : 0 ≤ 100) hnote rfl
  have hshort : ((50 + 80 : ℕ) : ℝ) < consonant.duration + vowel.duration := by
    rw [h.durations.1, h.durations.2]
    norm_num
  have hkeeps := keeps_withCrossfade keeps_silent (0 : ℕ)
  have hiff := beginning_eq_consonant_iff h.cut hkeeps no_crossfade_silent h.fit
  refine ⟨(sings_withCrossfade sings_silent (0 : ℕ)).tunes, hkeeps, no_crossfade_silent, render,
    consonant, vowel, h.gives, h.slice, h.frames.1, ?_, ?_⟩
  · exact h.frames_of_short (by norm_num) (by norm_num)
  · intro hkept
    have hle := hiff.mp hkept hshort
    rw [h.frames.1, framesIn_silent] at hle
    omega

end SingingVoice.Renderer
