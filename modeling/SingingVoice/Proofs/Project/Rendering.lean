import Mathlib
import SingingVoice.Project.Basic
import SingingVoice.Proofs.Render.Failure
import SingingVoice.Proofs.WorkerPool.Nested

/-!
# Rendering of projects

The tracks of a project are rendered by a pool, and the notes of each track by a pool of its own;
the workers of a project are divided among these pools. The result depends neither on the number of
workers nor on the order in which they act: it is that of rendering one track after another and one
note after another. Only an engine that cannot be prepared keeps the tracks from being rendered at
all (`unprepared_not_decided_by_tracks`). The main theorem is `rendering_independent_of_workers`.
-/

namespace SingingVoice.Project

open WorkerPool (inOrder)

variable {m : Type → Type} {α : Type}

/-- The project with another number of workers. -/
def withWorkers (project : Project α) (workers : UInt64) : Project α :=
  { project with config := { project.config with workers } }

/-- The pools of tracks and notes before any of their workers has acted. -/
def pools (project : Project α) : WorkerPool.Nest (RenderError α) (Segment α) (Segment α) :=
  .start (WorkerPool.poolSize project.tracks.length project.parallelTracks)
    fun track => WorkerPool.poolSize (project.notesAt track).length project.workersPerTrack

variable [Scalar α] [Resampler α] (project : Project α) (bank : Voicebank α) (engine : Engine m α)
  (audio : Sample α → α → Except (RenderError α) (Segment α))

/-- The renderer of the tracks that renders one note after another. -/
def sequentialRenderer : Renderer m α :=
  (Renderer.sequential bank engine project.config.format).withCrossfade project.config.crossfade

/-- The render of a note of a track if the audio of samples is known. -/
def noteRender (track note : Nat) : Except (RenderError α) (Segment α) :=
  (project.sequentialRenderer bank engine).noteRender audio (project.notesAt track) note

/-- The render of a track if the audio of samples is known. -/
def trackRender (track : Nat) : Except (RenderError α) (Segment α) :=
  (project.sequentialRenderer bank engine).timelineRender audio (project.notesAt track)

/-- The renders of all tracks in order, or the error of the first track that has none. -/
def trackRenders : Except (RenderError α) (List (Segment α)) :=
  inOrder project.tracks.length (project.trackRender bank engine audio)

/-- The mix of the renders of tracks. -/
def mixdown (renders : List (Segment α)) : Except (RenderError α) (Segment α) :=
  (Segment.mix project.config.format renders).mapError .segment

/-- A result that the tracks decide: either the renders of all tracks in their order, or the error
of the first track that has no render, which is that of its first note without one. -/
def DecidedByTracks (result : Except (RenderError α) (List (Segment α))) : Prop :=
  (∃ renders, result = .ok renders ∧ renders.length = project.tracks.length ∧
    ∀ track (h : track < renders.length),
      project.trackRender bank engine audio track = .ok renders[track]) ∨
  ∃ track < project.tracks.length, ∃ note < (project.notesAt track).length, ∃ cause,
    result = .error (.note note cause) ∧
    project.trackRender bank engine audio track = .error (.note note cause) ∧
    project.noteRender bank engine audio track note = .error (.note note cause) ∧
    (∀ earlier < note, ∃ render, project.noteRender bank engine audio track earlier = .ok render) ∧
    ∀ earlier < track, ∃ timeline,
      project.trackRender bank engine audio earlier = .ok timeline

/-- The tracks as tasks of a pool, and their notes as the parts of these tasks. -/
def division : WorkerPool.Division (RenderError α) (Segment α) (Segment α) where
  parts track := (project.notesAt track).length
  part := project.noteRender bank engine audio
  finish track renders :=
    renders >>= (project.sequentialRenderer bank engine).splice (project.notesAt track)

variable {project bank engine audio}

/-- The renders of all tracks, or the error of the first track without one, are decided by the
tracks. -/
theorem trackRenders_decided :
    project.DecidedByTracks bank engine audio (project.trackRenders bank engine audio) := by
  rcases WorkerPool.inOrder_cases project.tracks.length (project.trackRender bank engine audio) with
    ⟨renders, hrenders, hlength, hget⟩ | ⟨track, htrack, error, hrenders, herror, hfirst⟩
  · exact .inl ⟨renders, hrenders, hlength, hget⟩
  · obtain ⟨note, hnote, hbad, hearlier⟩ := Renderer.first_bad_note herror
    obtain ⟨cause, rfl⟩ := Renderer.error_noteRender hbad
    exact .inr ⟨track, htrack, note, hnote, cause, hrenders, herror, hbad, hearlier, hfirst⟩

section Effects

variable [Monad m] [LawfulMonad m] (results : Results m)

/-- If the audio of samples is determined, so is every track, for any number of workers and any
schedule of its notes, in every sense. -/
theorem has_track (hengine : engine.TunesTo results bank audio) (workers track : Nat)
    (schedule : WorkerPool.Schedule) :
    results.Has (({ project.sequentialRenderer bank engine with workers } : Renderer m α).render
        (project.notesAt track) schedule).run
      (project.trackRender bank engine audio track) :=
  Renderer.has_render results hengine (project.notesAt track) workers schedule

variable (project) {prepared : Except (RenderError α) Unit}
  (hsetup : results.Has (engine.setup bank).run prepared)
  (hengine : engine.TunesTo results bank audio)

include hsetup hengine

/-- If the result of preparing the engine and the audio of samples are determined, so are the
renders of all tracks, for any schedules, in every sense. -/
theorem has_renderTracks (schedule : WorkerPool.Schedule)
    (schedules : Nat → WorkerPool.Schedule) :
    results.Has (project.renderTracks bank engine schedule schedules).run
      (prepared >>= fun _ => project.trackRenders bank engine audio) := by
  refine results.bind_except hsetup fun _ => WorkerPool.has_runIndexed results ?_ _ _ schedule
  intro track
  exact has_track results hengine _ track (schedules track)

/-- The mix is that of the renders of all tracks. -/
theorem has_render_project (schedule : WorkerPool.Schedule)
    (schedules : Nat → WorkerPool.Schedule) :
    results.Has (project.render bank engine schedule schedules).run
      (prepared >>= fun _ => project.trackRenders bank engine audio >>= project.mixdown) := by
  have htracks : results.Has (project.renderTracks bank engine schedule schedules).run
      (prepared >>= fun _ => project.trackRenders bank engine audio) :=
    has_renderTracks project results hsetup hengine schedule schedules
  have hmix := results.bind_except htracks fun renders =>
    results.of_except (project.mixdown renders)
  rwa [bind_assoc] at hmix

end Effects

/-- When the workers of the tracks have stopped, however the workers of all pools have acted in
turn, they have rendered the tracks in order. -/
theorem outcome_of_pools (project : Project α)
    {nest : WorkerPool.Nest (RenderError α) (Segment α) (Segment α)}
    (hsteps : WorkerPool.Nest.Steps project.tracks.length (project.division bank engine audio)
      project.pools nest)
    (hstopped : WorkerPool.Stopped nest.outer) :
    WorkerPool.outcome project.tracks.length (WorkerPool.records nest.outer) =
      project.trackRenders bank engine audio :=
  WorkerPool.Nest.outcome_of_steps (WorkerPool.poolSize_pos _ _)
    (fun _ => WorkerPool.poolSize_pos _ _) hsteps hstopped

/-- Projects that differ in nothing but the number of workers, which may be zero, have the same
renders of tracks and the same mix, in whatever order the workers act. If the engine cannot be
prepared, both are its error. Otherwise the renders are those of the tracks one after another, each
rendered one note after another, or the error of the first track without a render, which is that of
its first note without one. -/
theorem rendering_independent_of_workers [Monad m] [LawfulMonad m] (project : Project α)
    (bank : Voicebank α) (engine : Engine m α) {prepared : Except (RenderError α) Unit}
    {audio : Sample α → α → Except (RenderError α) (Segment α)}
    (hsetup : Gives (engine.setup bank).run prepared) (hengine : engine.Sings bank audio) :
    (∀ track,
      Gives ((project.sequentialRenderer bank engine).render (project.notesAt track)).run
        (project.trackRender bank engine audio track)) ∧
    (∀ track note,
      Gives ((project.sequentialRenderer bank engine).renderNote (project.notesAt track) note).run
        (project.noteRender bank engine audio track note)) ∧
    project.DecidedByTracks bank engine audio (project.trackRenders bank engine audio) ∧
    ∀ workers : UInt64,
      (∀ schedule schedules,
        Gives ((project.withWorkers workers).renderTracks bank engine schedule schedules).run
          (prepared >>= fun _ => project.trackRenders bank engine audio)) ∧
      (∀ schedule schedules,
        Gives ((project.withWorkers workers).render bank engine schedule schedules).run
          (prepared >>= fun _ =>
            project.trackRenders bank engine audio >>= project.mixdown)) ∧
      (∃ nest,
        WorkerPool.Nest.Steps project.tracks.length (project.division bank engine audio)
          (project.withWorkers workers).pools nest ∧
        WorkerPool.Stopped nest.outer) ∧
      ∀ nest,
        WorkerPool.Nest.Steps project.tracks.length (project.division bank engine audio)
          (project.withWorkers workers).pools nest →
        WorkerPool.Stopped nest.outer →
        WorkerPool.outcome project.tracks.length (WorkerPool.records nest.outer) =
          project.trackRenders bank engine audio := by
  refine ⟨?_, ?_, trackRenders_decided, fun workers => ⟨?_, ?_, ?_, ?_⟩⟩
  · intro track
    exact has_track .given hengine 1 track WorkerPool.Schedule.first
  · intro track note
    have hsings : (project.sequentialRenderer bank engine).engine.Sings bank audio := hengine
    exact Renderer.has_renderNote .given hsings (project.notesAt track) note
  · intro schedule schedules
    exact has_renderTracks (project.withWorkers workers) .given hsetup hengine schedule schedules
  · intro schedule schedules
    exact has_render_project (project.withWorkers workers) .given hsetup hengine schedule schedules
  · exact WorkerPool.Nest.exists_stopped _ _ _
  · intro nest hsteps hstopped
    exact outcome_of_pools (project.withWorkers workers) hsteps hstopped

/-- A project in exact arithmetic with two tracks: the first is a rest, and the second has a rest
and a note. -/
noncomputable def plainProject : Project ℝ :=
  ⟨⟨"", "", "", 1000, 1, .loop, 0⟩,
    [⟨"lead", [.rest 100]⟩, ⟨"harmony", [.rest 100, .sung "a" 60 100 none none]⟩]⟩

/-- Tuning that always fails. -/
def hoarseAudio (_ : Sample ℝ) (_ : ℝ) : Except (RenderError ℝ) (Segment ℝ) :=
  .error (.engine "hoarse")

/-- An engine that counts its calls and fails each time has the error of the second track's second
note, for every number of workers. -/
theorem rendering_fails_on_second_track :
    Gives (Renderer.hoarse.engine.setup Renderer.plainBank).run (.ok ()) ∧
    Renderer.hoarse.engine.Sings Renderer.plainBank hoarseAudio ∧
    ∀ workers schedule schedules,
      Gives ((plainProject.withWorkers workers).renderTracks Renderer.plainBank
        Renderer.hoarse.engine schedule schedules).run (.error (.note 1 (.engine "hoarse"))) := by
  have hsetup : Gives (Renderer.hoarse.engine.setup Renderer.plainBank).run (.ok ()) :=
    gives_state_iff.mpr fun _ => rfl
  have hengine : Renderer.hoarse.engine.Sings Renderer.plainBank hoarseAudio :=
    fun _ _ => gives_state_iff.mpr fun _ => rfl
  have hrenders : plainProject.trackRenders Renderer.plainBank Renderer.hoarse.engine hoarseAudio =
      .error (.note 1 (.engine "hoarse")) := by
    refine WorkerPool.inOrder_eq_error_iff.mpr ⟨1, Nat.one_lt_two, ?_, ?_⟩
    · refine Except.bind_eq_error.mpr (.inl (WorkerPool.inOrder_eq_error_iff.mpr ?_))
      refine ⟨1, Nat.one_lt_two, Renderer.noteRender_sung rfl Renderer.find_plainSample, ?_⟩
      intro earlier hearlier
      obtain rfl : earlier = 0 := Nat.lt_one_iff.mp hearlier
      exact ⟨_, Renderer.noteRender_rest rfl⟩
    · intro earlier hearlier
      obtain rfl : earlier = 0 := Nat.lt_one_iff.mp hearlier
      refine Renderer.timelineRender_ok_iff.mpr fun index hindex => ?_
      obtain rfl : index = 0 := Nat.lt_one_iff.mp hindex
      exact ⟨_, Renderer.noteRender_rest rfl⟩
  refine ⟨hsetup, hengine, fun workers schedule schedules => ?_⟩
  obtain ⟨-, -, -, hworkers⟩ :=
    rendering_independent_of_workers plainProject Renderer.plainBank Renderer.hoarse.engine hsetup
      hengine
  rw [← hrenders]
  exact (hworkers workers).1 schedule schedules

/-- A project in exact arithmetic whose only track is a rest. -/
noncomputable def restProject : Project ℝ :=
  ⟨⟨"", "", "", 100, 1, .loop, 0⟩, [⟨"lead", [.rest 30]⟩]⟩

/-- An engine that cannot be prepared and would tune samples to silence. -/
def unprepared : Engine (StateM Nat) ℝ where
  setup := fun _ => throw (.engine "no engine")
  pitch := fun _ _ _ => return Segment.empty (.mono 100)
  stretch := fun vowel _ => .ok vowel

/-- If the engine cannot be prepared, rendering the tracks gives its error, although every track has
a render. The tracks do not decide this result. -/
theorem unprepared_not_decided_by_tracks :
    let audio := fun _ _ => .ok (Segment.empty (.mono 100))
    let bank := Renderer.plainBank
    Gives (unprepared.setup bank).run (.error (.engine "no engine")) ∧
    unprepared.Sings bank audio ∧
    (∃ renders, restProject.trackRenders bank unprepared audio = .ok renders) ∧
    Gives (restProject.renderTracks bank unprepared).run (.error (.engine "no engine")) ∧
    ¬ restProject.DecidedByTracks bank unprepared audio (.error (.engine "no engine")) := by
  intro audio bank
  have hsetup : Gives (unprepared.setup bank).run (.error (.engine "no engine")) :=
    gives_state_iff.mpr fun _ => rfl
  have hengine : unprepared.Sings bank audio := fun _ _ => gives_state_iff.mpr fun _ => rfl
  refine ⟨hsetup, hengine, ?_, has_renderTracks restProject .given hsetup hengine _ _, ?_⟩
  · have hdecided : restProject.DecidedByTracks bank unprepared audio
        (restProject.trackRenders bank unprepared audio) := trackRenders_decided
    rcases hdecided with
      ⟨renders, hrenders, -⟩ | ⟨track, htrack, note, hnote, cause, -, -, hbad, -⟩
    · exact ⟨renders, hrenders⟩
    · obtain rfl : track = 0 := Nat.lt_one_iff.mp htrack
      obtain rfl : note = 0 := Nat.lt_one_iff.mp hnote
      have hrest : restProject.noteRender bank unprepared audio 0 0 = .ok _ :=
        Renderer.noteRender_rest rfl
      cases hbad.symm.trans hrest
  · rintro (⟨renders, hrenders, -⟩ | ⟨track, -, note, -, cause, hnote, -⟩)
    · cases hrenders
    · cases hnote

end SingingVoice.Project
