import SingingVoice.Proofs.Cache.Slots
import SingingVoice.Proofs.Determinism
import SingingVoice.Proofs.FileTree.Writing
import SingingVoice.Voicebank.Loading

/-!
# Running programs on files and caches

A session is a program on what has been loaded and on a file tree. `Session.run` says what it
returns and what it leaves behind. The lemmas below run the parts of loading: a value that is kept
is returned (`run_getOrFill_hit`), one that is missing is computed and kept (`run_getOrFill_miss`),
reading leaves everything as it is, and a write that is not disturbed leaves the whole file
(`run_write`). The results of programs that rely on what is kept are determined within an invariant
(`Session.within`).
-/

namespace SingingVoice

/-- A program on what has been loaded and on a file tree. -/
abbrev Session (α : Type) :=
  StateT (Loaded α) (StateM FileTree)

namespace Session

variable {α β γ ε V : Type} {loaded loaded' : Loaded α} {tree tree' : FileTree}

/-- What a program returns, what has been loaded after it, and the tree that it leaves. -/
def run (program : Session α β) (loaded : Loaded α) (tree : FileTree) :
    β × Loaded α × FileTree :=
  let outcome := (StateT.run program loaded).run tree
  (outcome.1.1, outcome.1.2, outcome.2)

@[simp] theorem run_pure (value : β) :
    run (pure value : Session α β) loaded tree = (value, loaded, tree) := rfl

@[simp] theorem run_bind (program : Session α β) (next : β → Session α γ) :
    run (program >>= next) loaded tree =
      run (next (run program loaded tree).1) (run program loaded tree).2.1
        (run program loaded tree).2.2 := rfl

@[simp] theorem run_map (f : β → γ) (program : Session α β) :
    run (f <$> program) loaded tree =
      (f (run program loaded tree).1, (run program loaded tree).2) := rfl

/-- One program that may fail after another. -/
theorem run_bind_except (program : ExceptT ε (Session α) β) (next : β → ExceptT ε (Session α) γ) :
    run (program >>= next).run loaded tree =
      match run program.run loaded tree with
      | (.ok value, loaded, tree) => run (next value).run loaded tree
      | (.error error, loaded, tree) => (.error error, loaded, tree) := by
  rw [ExceptT.run_bind, run_bind]
  obtain ⟨result, loaded, tree⟩ := run program.run loaded tree
  cases result <;> rfl

theorem run_ofExcept (result : Except ε β) :
    run (MonadExcept.ofExcept result : ExceptT ε (Session α) β).run loaded tree =
      (result, loaded, tree) := by
  cases result <;> rfl

/-- The sense in which programs have the results that they return from every moment with an
invariant, which they keep. -/
def within (Invariant : Loaded α → FileTree → Prop) : Results (Session α) where
  Has program result := ∀ loaded tree, Invariant loaded tree →
    ∃ loaded' tree', run program loaded tree = (result, loaded', tree') ∧ Invariant loaded' tree'
  of_pure value loaded tree h := ⟨loaded, tree, rfl, h⟩
  bind := by
    intro β γ program next result final hprogram hnext loaded tree h
    obtain ⟨loaded₁, tree₁, hfirst, h₁⟩ := hprogram loaded tree h
    obtain ⟨loaded₂, tree₂, hsecond, h₂⟩ := hnext loaded₁ tree₁ h₁
    refine ⟨loaded₂, tree₂, ?_, h₂⟩
    rw [run_bind, hfirst]
    exact hsecond

/-! ## Caches -/

section Cache

variable {step : {β : Type} → (Cache V → β × Cache V) → Session α β} {view : Loaded α → Cache V}
  {update : Loaded α → Cache V → Loaded α} {key : String}
  {fill : ExceptT ε (Session α) V} {value : V}

/-- `Reaches step view update`: the operations of `step` work on one of the caches. -/
structure Reaches (step : {β : Type} → (Cache V → β × Cache V) → Session α β)
    (view : Loaded α → Cache V) (update : Loaded α → Cache V → Loaded α) : Prop where
  run_step : ∀ {β : Type} (f : Cache V → β × Cache V) (loaded : Loaded α) (tree : FileTree),
    run (step f) loaded tree = ((f (view loaded)).1, update loaded (f (view loaded)).2, tree)
  view_update : ∀ loaded cache, view (update loaded cache) = cache
  update_same : ∀ loaded cache, update (update loaded cache) cache = update loaded cache

theorem reaches_audio :
    Reaches (α := α) Loaded.stepAudio Loaded.audio fun loaded audio => { loaded with audio } :=
  ⟨fun _ _ _ => rfl, fun _ _ => rfl, fun _ _ => rfl⟩

theorem reaches_maps :
    Reaches (α := α) Loaded.stepMaps Loaded.maps fun loaded maps => { loaded with maps } :=
  ⟨fun _ _ _ => rfl, fun _ _ => rfl, fun _ _ => rfl⟩

/-- A value that is kept is returned. -/
theorem run_getOrFill_hit (hreach : Reaches step view update)
    (hkept : (view loaded).get? key = some value) :
    run (Cache.getOrFill step key fill).run loaded tree =
      (.ok value, update loaded ((view loaded).claim key).2, tree) := by
  rw [Cache.run_getOrFill]
  simp only [run_bind, hreach.run_step, hreach.view_update, Cache.cell?_claim_self, hkept, run_pure,
    hreach.update_same]

/-- A value that is missing is computed and kept. -/
theorem run_getOrFill_miss (hreach : Reaches step view update)
    (hkept : (view loaded).get? key = none)
    (hfill : run fill.run (update loaded ((view loaded).claim key).2) tree =
      (.ok value, loaded', tree')) :
    run (Cache.getOrFill step key fill).run loaded tree =
      (.ok value, update loaded' ((view loaded').store ((view loaded).claim key).1 value),
        tree') := by
  rw [Cache.run_getOrFill]
  simp only [run_bind, hreach.run_step, hreach.view_update, Cache.cell?_claim_self, hkept, run_map,
    hreach.update_same, hfill]

/-- A value that cannot be computed is not kept. -/
theorem run_getOrFill_error (hreach : Reaches step view update)
    (hkept : (view loaded).get? key = none) {error : ε}
    (hfill : run fill.run (update loaded ((view loaded).claim key).2) tree =
      (.error error, loaded', tree')) :
    run (Cache.getOrFill step key fill).run loaded tree = (.error error, loaded', tree') := by
  rw [Cache.run_getOrFill]
  simp only [run_bind, hreach.run_step, hreach.view_update, Cache.cell?_claim_self, hkept, run_pure,
    hreach.update_same, hfill]

end Cache

/-! ## Files -/

theorem run_isFile (path : String) :
    run (FileAccess.isFile path : ExceptT ε (Session α) _).run loaded tree =
      (.ok (tree.isFile path), loaded, tree) := rfl

theorem run_read (path : String) :
    run (FileAccess.read path : ExceptT ε (Session α) _).run loaded tree =
      (.ok (tree.read path), loaded, tree) := rfl

theorem run_change (f : FileTree → Except FileFault FileTree) :
    run (FileAccess.change f : ExceptT ε (Session α) _).run loaded tree =
      match f tree with
      | .ok tree => (.ok (.ok ()), loaded, tree)
      | .error fault => (.ok (.error fault), loaded, tree) := by
  have hstep : run (FileAccess.change f : ExceptT ε (Session α) _).run loaded tree =
      let outcome : Except FileFault Unit × FileTree := match f tree with
        | .ok tree => (.ok (), tree)
        | .error fault => (.error fault, tree)
      (.ok outcome.1, loaded, outcome.2) := rfl
  rw [hstep]
  cases f tree <;> rfl

/-- A write stops at once if the file cannot be made. -/
theorem run_write_error {path : String} {fault : FileFault}
    (hcreate : tree.create path = .error fault) (loaded : Loaded α) (bytes : List UInt8) :
    run (FileAccess.write path bytes : ExceptT ε (Session α) _).run loaded tree =
      (.ok (.error fault), loaded, tree) := by
  rw [FileAccess.write, run_bind_except, FileAccess.create, run_change, hcreate]
  rfl

/-- A write that is not disturbed leaves the whole file. -/
theorem run_write {path : String} (hcreate : tree.create path = .ok tree') (loaded : Loaded α)
    (bytes : List UInt8) :
    run (FileAccess.write path bytes : ExceptT ε (Session α) _).run loaded tree =
      (.ok (.ok ()), loaded, tree'.put (FileTree.place path) bytes) := by
  rw [FileAccess.write, run_bind_except, FileAccess.create, run_change, hcreate]
  simp only
  rw [FileAccess.append, run_change, FileTree.append_of_create hcreate]

/-- An analysis is noted. -/
theorem run_noteAnalysis (path : String) :
    run (Loaded.noteAnalysis α path : ExceptT ε (Session α) Unit).run loaded tree =
      (.ok (), { loaded with analysed := path :: loaded.analysed }, tree) := rfl

end Session

/-! ## Loading -/

namespace Voicebank

open Session

variable {α : Type} {loaded : Loaded α} {tree : FileTree} {path dir : String}

/-- The audio in the file at a path, decoded anew. -/
def audioOf [Scalar α] (tree : FileTree) (path : String) :
    Except (VoicebankError α) (Segment α) :=
  Except.mapError (ofAudioError path) do
    let bytes ← (tree.read path).mapError SegmentError.file
    (Segment.ofWave bytes).mapError (Segment.inFile path)

/-- The analysis of the audio in the file at a path, done anew. -/
def analysisOf [Scalar α] (analyzer : Analyzer α) (tree : FileTree) (path : String) :
    Except (VoicebankError α) (Frq α) := do
  analyzer (← audioOf tree path)

/-- The audio of an alias, decoded anew. -/
def audioFor [Scalar α] (tree : FileTree) (bank : Voicebank α) (name : String) :
    Except (VoicebankError α) (Segment α) := do
  let sample ← bank.get name
  audioOf tree (bank.audioPath sample)

/-- The analysis of the audio of an alias, done anew. -/
def analysisFor [Scalar α] (analyzer : Analyzer α) (tree : FileTree) (bank : Voicebank α)
    (name : String) : Except (VoicebankError α) (Frq α) := do
  let sample ← bank.get name
  analysisOf analyzer tree (bank.audioPath sample)

/-- The frequency map in the file at a path. -/
def mapOf [BitPattern α] (tree : FileTree) (path : String) :
    Except (VoicebankError α) (Frq α) := do
  let bytes ← (tree.read path).mapError VoicebankError.file
  (Frq.ofBytes bytes).mapError VoicebankError.format

/-- The voicebank in a directory, as its configuration describes it. -/
def bankOf [Numeral α] (tree : FileTree) (dir : String) :
    Except (VoicebankError α) (Voicebank α) := do
  let path := Path.join dir configFile
  let bytes ← (tree.read path).mapError (ofFileFault path)
  let samples ← parseConfig (String.ofList (Utf8.decodeLossy bytes))
  return ofSamples dir samples

theorem run_ofFile [Scalar α] (path : String) (loaded : Loaded α) (tree : FileTree) :
    run (ExceptT.adapt (ofAudioError path) (Segment.ofFile path) :
        ExceptT (VoicebankError α) (Session α) (Segment α)).run loaded tree =
      (audioOf tree path, loaded, tree) := by
  have hfile : run (Segment.ofFile path : ExceptT (SegmentError α) (Session α) _).run loaded tree =
      ((do
        let bytes ← (tree.read path).mapError SegmentError.file
        (Segment.ofWave bytes).mapError (Segment.inFile path)), loaded, tree) := by
    rw [Segment.ofFile, run_bind_except, run_read]
    cases tree.read path with
    | error fault => rfl
    | ok bytes => exact run_ofExcept _
  exact congrArg (fun outcome => (outcome.1.mapError (ofAudioError path), outcome.2)) hfile

theorem run_readMap [BitPattern α] :
    run (readMap path : ExceptT (VoicebankError α) (Session α) _).run loaded tree =
      (mapOf tree path, loaded, tree) := by
  rw [readMap, mapOf, run_bind_except, run_read]
  cases tree.read path with
  | error fault => rfl
  | ok bytes => exact run_ofExcept _

theorem run_ofDirectory [Numeral α] :
    run (ofDirectory dir : ExceptT (VoicebankError α) (Session α) _).run loaded tree =
      (bankOf tree dir, loaded, tree) := by
  simp only [ofDirectory, bankOf]
  rw [run_bind_except, run_read]
  cases tree.read (Path.join dir configFile) with
  | error fault => rfl
  | ok bytes =>
    simp only [Except.mapError, Except.ok_bind]
    rw [run_bind_except, run_ofExcept]
    cases parseConfig (α := α) (String.ofList (Utf8.decodeLossy bytes)) <;> rfl

/-- Files that are all there are found. -/
theorem run_checkFiles {paths : List String} (hpaths : ∀ path ∈ paths, tree.isFile path) :
    run (checkFiles paths : ExceptT (VoicebankError α) (Session α) _).run loaded tree =
      (.ok (), loaded, tree) := by
  induction paths with
  | nil => rfl
  | cons path rest ih =>
    obtain ⟨hpath, hrest⟩ := List.forall_mem_cons.mp hpaths
    rw [checkFiles, run_bind_except, run_isFile, hpath]
    exact ih hrest

end Voicebank

end SingingVoice
