import Mathlib
import SingingVoice.Proofs.Render.Lengths

/-!
# Crossfades and lengths

A crossfade of the consonant into the vowel is meant to keep the length of a note: the vowel is
stretched by as much as the crossfade takes away. In exact arithmetic this is so, up to one frame,
for a note that is stretched, as long as the crossfade is not longer than the consonant; since the
two are compared in whole milliseconds, it may be longer by half of one. Nothing makes up for the
crossfade in a note that is cut off, which ends earlier if it is shorter than its parts by less than
the crossfade. The main theorem is `crossfade_changes_length`.
-/

namespace SingingVoice.Renderer

variable {m : Type → Type} {renderer : Renderer m ℝ}
  {audio : Sample ℝ → ℝ → Except (RenderError ℝ) (Segment ℝ)} {notes : List (Note ℝ)} {index : Nat}
  {consonant vowel render plain : Segment ℝ} {duration actual ms : ℝ}

/-- A negative crossfade has as many frames as none. -/
theorem framesIn_crossfade (renderer : Renderer m ℝ) (ms : ℝ) :
    renderer.format.framesIn (renderer.withCrossfade ms).crossfade =
      renderer.format.framesIn ms := by
  rw [crossfade_withCrossfade]
  rcases le_total ms 0 with hneg | hpos
  · rw [max_eq_right hneg, Format.framesIn_of_nonpos hneg, Format.framesIn_of_nonpos le_rfl]
  · rw [max_eq_left hpos]

section Lengths

variable [Resampler ℝ]

section Branches

variable {Audio : Sample ℝ → ℝ → Segment ℝ → Prop}
  (hcut : renderer.Cut Audio notes index consonant vowel duration actual)
  (hkeeps : renderer.engine.Keeps renderer.format Audio)
  (h : (renderer.withCrossfade ms).fit consonant vowel duration actual = .ok render)

include hcut hkeeps h

/-- A note that is cut off is cut off at the same frame with any crossfade, but its parts joined may
end before. -/
theorem frames_of_short_crossfade (hshort : actual < consonant.duration + vowel.duration) :
    render.frames = min (renderer.format.framesIn duration)
      (consonant.frames + vowel.frames -
        min (min (renderer.format.framesIn ms) consonant.frames) vowel.frames) := by
  obtain ⟨joined, -, -, hframes⟩ :=
    frames_of_short (cut_withCrossfade.mpr hcut) hkeeps h hshort
  rw [← framesIn_crossfade renderer ms]
  exact hframes

/-- Up to one frame, a note that is stretched has the frames that it must sound, and those by which
the crossfade is longer than the consonant, whether it is negative or not. -/
theorem frames_of_long_crossfade (hlong : consonant.duration + vowel.duration ≤ actual) :
    render.frames ≤ renderer.format.framesIn actual +
        (renderer.format.framesIn ms - consonant.frames) + 1 ∧
      renderer.format.framesIn actual + (renderer.format.framesIn ms - consonant.frames) ≤
        render.frames + 1 := by
  have hnonneg : 0 ≤ (renderer.withCrossfade ms).crossfade := by
    rw [crossfade_withCrossfade]
    exact le_max_right _ _
  rw [← framesIn_crossfade renderer ms]
  exact frames_of_long_near (cut_withCrossfade.mpr hcut) hkeeps h hlong hnonneg

/-- A crossfade that does not fail is longer than the consonant by half a millisecond at most. -/
theorem framesIn_crossfade_le (hlong : consonant.duration + vowel.duration ≤ actual) :
    renderer.format.framesIn ms ≤ consonant.frames + renderer.format.framesIn (1 / 2 : ℝ) := by
  rcases le_or_gt ms 0 with hneg | hpos
  · rw [Format.framesIn_of_nonpos hneg]
    exact Nat.zero_le _
  · obtain ⟨-, -, hfits⟩ := frames_of_long (cut_withCrossfade.mpr hcut) hkeeps h hlong
    rw [crossfade_withCrossfade, max_eq_left hpos.le] at hfits
    have hduration : consonant.duration = renderer.format.millis consonant.frames := by
      rw [Segment.duration, (hcut.parts hkeeps).1.1]
    calc renderer.format.framesIn ms
        ≤ renderer.format.framesIn (1 / 2 + renderer.format.millis consonant.frames : ℝ) := by
          apply Format.framesIn_mono
          rw [← hduration, add_comm]
          exact hfits hpos
      _ = consonant.frames + renderer.format.framesIn (1 / 2 : ℝ) := by
          rw [Format.framesIn_add_millis (hcut.rate_pos hkeeps) (by norm_num), Nat.add_comm]

end Branches

/-- In exact arithmetic, if the audio of samples is determined and the engine keeps to the format of
the renderer and to durations, a crossfade changes the length of a sung note as follows. A note that
is cut off has the frames of its duration or those of its parts, whichever are fewer; a crossfade
takes its frames from the parts, and the note has no more than are left. A note that is stretched
has the frames that it must sound; with a crossfade it has, up to one, as many more as the crossfade
has more than the consonant, and these are no more than half a millisecond has. -/
theorem crossfade_changes_length [Monad m] [LawfulMonad m] (renderer : Renderer m ℝ)
    (hengine : renderer.engine.Sings renderer.bank audio)
    (hkeeps : renderer.engine.Keeps renderer.format (Engine.Only audio)) (notes : List (Note ℝ))
    (index : Nat) :
    (∀ ms, Gives ((renderer.withCrossfade ms).renderNote notes index).run
      ((renderer.withCrossfade ms).noteRender audio notes index)) ∧
    ∀ name pitch duration preutterance overlap,
      notes[index]? = some (.sung name pitch duration preutterance overlap) →
      ∀ ms render plain,
        (renderer.withCrossfade ms).noteRender audio notes index = .ok render →
        (renderer.withCrossfade 0).noteRender audio notes index = .ok plain →
        ∃ consonant vowel actual,
          renderer.Cut (Engine.Only audio) notes index consonant vowel duration actual ∧
          (actual < consonant.duration + vowel.duration →
            plain.frames =
              min (renderer.format.framesIn duration) (consonant.frames + vowel.frames) ∧
            render.frames = min plain.frames (consonant.frames + vowel.frames -
              min (min (renderer.format.framesIn ms) consonant.frames) vowel.frames)) ∧
          (consonant.duration + vowel.duration ≤ actual →
            plain.frames = renderer.format.framesIn actual ∧
            render.frames ≤
              plain.frames + (renderer.format.framesIn ms - consonant.frames) + 1 ∧
            plain.frames + (renderer.format.framesIn ms - consonant.frames) ≤
              render.frames + 1 ∧
            renderer.format.framesIn ms ≤
              consonant.frames + renderer.format.framesIn (1 / 2 : ℝ)) := by
  have hkeeps' := keeps_withCrossfade hkeeps
  refine ⟨fun ms => has_renderNote .given (sings_withCrossfade hengine ms) notes index, ?_⟩
  intro name pitch duration preutterance overlap hnote ms render plain hrender hplain
  obtain ⟨consonant, vowel, actual, hcut, hfit⟩ := fit_of_noteRender (hkeeps' ms) hnote hrender
  obtain ⟨consonant', vowel', actual', hcut', hfit'⟩ :=
    fit_of_noteRender (hkeeps' 0) hnote hplain
  rw [cut_withCrossfade] at hcut hcut'
  -- both renders come of one cut, since the engine gives the same audio for both
  obtain ⟨rfl, rfl, -, rfl⟩ := hcut.unique hcut'
  have hnone : renderer.format.framesIn (0 : ℝ) = 0 := Format.framesIn_of_nonpos le_rfl
  refine ⟨consonant, vowel, actual, hcut, ?_, ?_⟩
  · intro hshort
    have hframes := frames_of_short_crossfade hcut hkeeps hfit hshort
    have hplainFrames := frames_of_short_crossfade hcut hkeeps hfit' hshort
    rw [hnone, Nat.zero_min, Nat.zero_min, Nat.sub_zero] at hplainFrames
    omega
  · intro hlong
    have hplainFrames : plain.frames = renderer.format.framesIn actual := by
      have hnone : (renderer.withCrossfade 0).crossfade = 0 := by
        rw [crossfade_withCrossfade, max_self]
      have hframes :=
        frames_of_long_plain (cut_withCrossfade.mpr hcut) (hkeeps' 0) hfit' hlong hnone
      exact hframes
    obtain ⟨hupper, hlower⟩ := frames_of_long_crossfade hcut hkeeps hfit hlong
    rw [hplainFrames]
    exact ⟨rfl, hupper, hlower, framesIn_crossfade_le hcut hkeeps hfit hlong⟩

end Lengths

/-- A note of 200 ms that starts 50 ms early is cut off after 200 of its 300 frames. With a
crossfade of 100 ms it has no others, and is as long. -/
theorem crossfade_keeps_shorter_note :
    silent.engine.Sings silent.bank (fun _ _ => .ok plainAudio) ∧
    silent.engine.Keeps silent.format (Engine.Only fun _ _ => .ok plainAudio) ∧
    ∃ render plain : Segment ℝ,
      Gives ((silent.withCrossfade (100 : ℕ)).renderNote [plainNote 200] 0).run (.ok render) ∧
      Gives ((silent.withCrossfade (0 : ℕ)).renderNote [plainNote 200] 0).run (.ok plain) ∧
      render.frames = 200 ∧ plain.frames = 200 := by
  have hnote : [plainNote 200][0]? = some (plainNote 200) := rfl
  obtain ⟨consonant, vowel, render, h⟩ := exists_silentNote (by norm_num : 100 ≤ 100) hnote rfl
  obtain ⟨consonant', vowel', plain, h'⟩ := exists_silentNote (by norm_num : 0 ≤ 100) hnote rfl
  have hrender := noteRender_of_fit (keeps_withCrossfade keeps_silent _) h.cut h.fit
  have hplain := noteRender_of_fit (keeps_withCrossfade keeps_silent _) h'.cut h'.fit
  rw [Nat.cast_zero] at hplain
  obtain ⟨-, hsung⟩ :=
    crossfade_changes_length silent sings_silent keeps_silent [plainNote 200] 0
  obtain ⟨consonant', vowel', actual, hcut, hshort, -⟩ :=
    hsung "a" (60 : ℕ) (200 : ℕ) none none rfl (100 : ℕ) render plain hrender hplain
  obtain ⟨rfl, rfl, -, rfl⟩ := hcut.unique (cut_withCrossfade.mp h.cut)
  have hcount : ∀ count : Nat, silent.format.framesIn (count : ℝ) = count := framesIn_silent 0
  rw [h.durations.1, h.durations.2, h.frames.1, h.frames.2, hcount, hcount] at hshort
  obtain ⟨hplainFrames, hrenderFrames⟩ := hshort (by norm_num)
  refine ⟨sings_silent, keeps_silent, render, plain, h.gives, h'.gives, ?_, hplainFrames⟩
  rw [hrenderFrames, hplainFrames]
  norm_num

/-- A note of 240 ms that starts 50 ms early is cut off after 240 of its 300 frames. With a
crossfade of 100 ms only 200 frames are left of it. -/
theorem crossfade_shortens_note :
    silent.engine.Sings silent.bank (fun _ _ => .ok plainAudio) ∧
    silent.engine.Keeps silent.format (Engine.Only fun _ _ => .ok plainAudio) ∧
    ∃ render plain : Segment ℝ,
      Gives ((silent.withCrossfade (100 : ℕ)).renderNote [plainNote 240] 0).run (.ok render) ∧
      Gives ((silent.withCrossfade (0 : ℕ)).renderNote [plainNote 240] 0).run (.ok plain) ∧
      render.frames = 200 ∧ plain.frames = 240 := by
  have hnote : [plainNote 240][0]? = some (plainNote 240) := rfl
  obtain ⟨consonant, vowel, render, h⟩ := exists_silentNote (by norm_num : 100 ≤ 100) hnote rfl
  obtain ⟨consonant', vowel', plain, h'⟩ := exists_silentNote (by norm_num : 0 ≤ 100) hnote rfl
  exact ⟨sings_silent, keeps_silent, render, plain, h.gives, h'.gives,
    h.frames_of_short (by norm_num) (by norm_num), h'.frames_of_short (by norm_num) (by norm_num)⟩

end SingingVoice.Renderer
