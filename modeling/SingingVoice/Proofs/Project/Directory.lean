import Mathlib
import SingingVoice.Proofs.Project.Rendering
import SingingVoice.Proofs.Voicebank.Aliases
import SingingVoice.Proofs.Voicebank.Visits

/-!
# Rendering from a directory

The standard engine keeps audio and frequency maps in memory and stores maps beside the audio, so
what it returns from any state whatever is not determined. It is in the states that are consistent
with one directory: there the engine tunes every sample to the audio that it would have if each file
were read and analysed anew (`tunesTo_standard`), and leads to another such state. Hence notes,
timelines and projects are rendered as if nothing were ever kept, and no audio file is analysed
twice: `standard_renders_anew`.

A worker renders a note in one action here, so that no two loads overlap in time. What they can do
to each other if they do is in `SingingVoice.Proofs.Voicebank.Race`.
-/

namespace SingingVoice.Engine

open Voicebank Session

variable {α : Type} [Scalar α] [BitPattern α]

/-- The audio that the standard engine tunes a sample to if all audio is read and analysed anew. -/
def tunedAnew [Resampler α] (settings : Settings α) (start : FileTree) (bank : Voicebank α)
    (sample : Sample α) (target : α) : Except (RenderError α) (Segment α) := do
  let frq ← (analysisFor settings.yin.analyze start bank sample.name).mapError .voicebank
  let audio ← (audioFor start bank sample.name).mapError .voicebank
  if frq.average ≤ 0.0 then return audio
  let steps := target - Scalar.ofInt (Pitch.mk frq.average).noteNumber
  (audio.pitchShift steps settings.mode).mapError .segment

section Standard

variable {settings : Settings α} {start : FileTree} {bank : Voicebank α} {extension : String}
  (h : Analysable start bank settings.yin.analyze extension)
  (hpattern : ∀ x : α, BitPattern.ofBits (BitPattern.toBits x) = x)

include h hpattern

/-- As long as what is kept is right, the standard engine tunes samples as if all were done anew. -/
theorem tunesTo_standard [Resampler α] :
    (standard settings : Engine (Session α) α).TunesTo
      (within (Consistent start bank settings.yin.analyze)) bank
      (tunedAnew settings start bank) := by
  intro sample target
  have hmap := has_loadMap h sample.name hpattern
  refine (within _).bind_except ((within _).adapt RenderError.voicebank hmap) fun frq => ?_
  have haudio := has_loadAudio h sample.name
  refine (within _).bind_except ((within _).adapt RenderError.voicebank haudio) fun audio => ?_
  split_ifs
  · exact (within _).of_pure _
  · exact (within _).of_except _

/-- As long as what is kept is right, the maps of aliases that have samples are loaded. -/
theorem has_loadMaps {names : List String}
    (hnames : ∀ name ∈ names, ∃ sample, bank.get name = .ok sample) :
    (within (Consistent start bank settings.yin.analyze)).Has
      (loadMaps settings.yin.analyze bank names :
        ExceptT (RenderError α) (Session α) Unit).run (.ok ()) := by
  induction names with
  | nil => exact (within _).of_pure _
  | cons name rest ih =>
      obtain ⟨⟨sample, hget⟩, hrest⟩ := List.forall_mem_cons.mp hnames
      obtain ⟨frq, hfrq, -⟩ := h.analysed sample (mem_samples_of_get hget)
      have hmap := has_loadMap h name hpattern
      rw [analysisFor, hget, Except.ok_bind, hfrq] at hmap
      rw [loadMaps, ExceptT.run_bind]
      exact (within _).bind ((within _).lift hmap) (ih hrest)

/-- As long as what is kept is right, the standard engine can be prepared for a voicebank that lies
in its directory. -/
theorem has_setup_standard [Numeral α] [Resampler α] (hopen : bankOf start bank.dir = .ok bank) :
    (within (Consistent start bank settings.yin.analyze)).Has
      ((standard settings : Engine (Session α) α).setup bank).run (.ok ()) := by
  refine has_loadMaps h hpattern fun name hname => ?_
  obtain ⟨bytes, -, hbank⟩ := Except.bind_eq_ok.mp hopen
  obtain ⟨samples, -, hsamples⟩ := Except.bind_eq_ok.mp hbank
  have hindexed : Indexed bank := by
    rw [← Except.ok.inj hsamples]
    exact indexed_ofSamples bank.dir samples
  obtain ⟨place, hplace⟩ := List.mem_iff_getElem?.mp hname
  rw [getElem?_names, Option.map_eq_some_iff] at hplace
  obtain ⟨sample, hsample, hnamed⟩ := hplace
  exact ⟨sample, get_eq_ok_iff.mpr
    (hindexed.find?_eq_some_iff.mpr ⟨Array.mem_of_getElem? hsample, hnamed⟩)⟩

end Standard

/-- A voicebank lies in a directory, its samples can all be analysed, and they have no frequency
maps yet. The standard engine renders notes, timelines and projects with it as if every file were
read and analysed anew each time, for any number of workers and any schedules. This is so from every
moment that is consistent with the directory as it was at first, as the one is when nothing has been
loaded, and it leads to another such moment, by which no audio file has been analysed twice. -/
theorem standard_renders_anew [Numeral α] [Resampler α] {settings : Settings α} {start : FileTree}
    {bank : Voicebank α} {extension : String} (hopen : bankOf start bank.dir = .ok bank)
    (h : Analysable start bank settings.yin.analyze extension)
    (hpattern : ∀ x : α, BitPattern.ofBits (BitPattern.toBits x) = x) :
    let moments := Consistent start bank settings.yin.analyze
    let audio := tunedAnew settings start bank
    let engine : Engine (Session α) α := .standard settings
    (∀ format workers crossfade notes,
      let renderer : Renderer (Session α) α := ⟨bank, engine, format, workers, crossfade⟩
      (∀ index, (within moments).Has (renderer.renderNote notes index).run
        (renderer.noteRender audio notes index)) ∧
      ∀ schedule, (within moments).Has (renderer.render notes schedule).run
        (renderer.timelineRender audio notes)) ∧
    (∀ (project : Project α) schedule schedules,
      (within moments).Has (project.render bank engine schedule schedules).run
        (project.trackRenders bank engine audio >>= project.mixdown)) ∧
    moments .empty start ∧
    ∀ loaded tree, moments loaded tree → (loaded.analysed.map FileTree.place).Nodup := by
  intro moments audio engine
  have hengine : engine.TunesTo (within moments) bank audio := tunesTo_standard h hpattern
  have hsetup : (within moments).Has (engine.setup bank).run (.ok ()) :=
    has_setup_standard h hpattern hopen
  refine ⟨?_, ?_, .of_start h, fun loaded tree hmoment => hmoment.stored.once⟩
  · intro format workers crossfade notes renderer
    have hrenderer : renderer.engine.TunesTo (within moments) renderer.bank audio := hengine
    exact ⟨Renderer.has_renderNote _ hrenderer notes, Renderer.has_render _ hrenderer notes workers⟩
  · intro project schedule schedules
    exact Project.has_render_project project _ hsetup hengine schedule schedules

/-! ## An example -/

/-- The analysis for voices succeeds on the audio of two aliases, and has one frame. -/
theorem analysisOf_voices :
    ∃ frq, analysisOf (Yin.standard : Yin Double).analyze sharedTree "vb/a.wav" = .ok frq ∧
      frq.frames.length ≤ Frq.maxFrames := by
  obtain ⟨audio, haudio, -, hsize⟩ := audioOf_sharedTree
  have hrange : ¬ ((Yin.standard : Yin Double).low ≤ 0.0 ∨
      (Yin.standard : Yin Double).high ≤ (Yin.standard : Yin Double).low) := by
    decide +kernel
  have hanalysis : analysisOf (Yin.standard : Yin Double).analyze sharedTree "vb/a.wav" =
      .ok (.ofFrames Yin.defaultHop (Yin.standard.estimate (audio.setChannels .mono).samples
        (audio.setChannels .mono).format.sampleRate)) := by
    rw [analysisOf, haudio, Except.ok_bind, Yin.analyze, if_neg hrange]
    rfl
  refine ⟨_, hanalysis, ?_⟩
  rw [Frq.ofFrames, Yin.estimate, List.length_map, List.length_range, hsize]
  decide

/-- Two aliases share audio. Whatever project is rendered with them by the standard engine, when
nothing has been loaded, the mix is that of a rendering without anything kept, and the audio is not
analysed twice. -/
theorem shared_audio_rendered_anew (project : Project Double) (schedule : WorkerPool.Schedule)
    (schedules : Nat → WorkerPool.Schedule) :
    let settings : Settings Double := .ofMode .loop
    let engine : Engine (Session Double) Double := .standard settings
    let outcome := run (project.render sharedBank engine schedule schedules).run .empty sharedTree
    outcome.1 = project.trackRenders sharedBank engine
        (tunedAnew settings sharedTree sharedBank) >>= project.mixdown ∧
      (outcome.2.1.analysed.map FileTree.place).Nodup := by
  intro settings engine outcome
  have hopen : bankOf sharedTree sharedBank.dir = .ok sharedBank := by
    have hrun := run_ofDirectory_sharedTree
    rw [run_ofDirectory] at hrun
    rw [dir_of_bankOf hrun]
    exact hrun
  have hanalysable : Analysable sharedTree sharedBank settings.yin.analyze "wav" :=
    analysable_sharedBank analysisOf_voices
  obtain ⟨-, hprojects, hstart, honce⟩ :=
    standard_renders_anew hopen hanalysable fun _ => rfl
  obtain ⟨loaded, tree, hrun, hmoment⟩ :=
    hprojects project schedule schedules .empty sharedTree hstart
  have houtcome : outcome = (_, loaded, tree) := hrun
  rw [houtcome]
  exact ⟨rfl, honce loaded tree hmoment⟩

end SingingVoice.Engine
