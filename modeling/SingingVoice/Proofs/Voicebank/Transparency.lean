import SingingVoice.Proofs.Frq.RoundTrip
import SingingVoice.Proofs.Voicebank.MapPath
import SingingVoice.Proofs.Voicebank.Session

/-!
# Loading frequency maps is analysing

A frequency map is kept in memory under its alias and in a file beside its audio, and is computed
only if it is in neither place. `Consistent` says of a moment of a session that every value in
memory is right for its alias, that every stored map is the whole of the right one, that nothing
else in the tree has changed, and that no audio file has been analysed twice. Loading, forgetting
and opening the voicebank again keep it so. Hence each load returns the analysis of the audio of its
alias (`has_loadMap`), and no audio file is analysed twice: `loads_transparent`.
-/

namespace SingingVoice.Voicebank

open FileTree Session

variable {α : Type}

/-- Where the audio of a sample lies. -/
def audioPlace (bank : Voicebank α) (sample : Sample α) : List String :=
  place (bank.audioPath sample)

/-- Where the frequency map of a sample is stored. -/
def mapPlace (bank : Voicebank α) (sample : Sample α) : List String :=
  place (mapPath (bank.audioPath sample))

variable [Scalar α]

/-- Every sample of a voicebank can be analysed. The samples have normal paths with one extension
that is not that of frequency maps, their audio decodes, and the analysis succeeds with no more
frames than can be stored. There is no frequency map yet, but each can be stored. -/
structure Analysable (tree : FileTree) (bank : Voicebank α) (analyzer : Analyzer α)
    (extension : String) : Prop where
  extension_ne : extension ≠ "frq"
  normal : ∀ sample ∈ bank.samples, IsNormal sample.file
  extension_eq : ∀ sample ∈ bank.samples, Path.extension? sample.file = some extension
  analysed : ∀ sample ∈ bank.samples, ∃ frq,
    analysisOf analyzer tree (bank.audioPath sample) = .ok frq ∧
      frq.frames.length ≤ Frq.maxFrames
  absent : ∀ sample ∈ bank.samples, tree.isFile (mapPath (bank.audioPath sample)) = false
  writable : ∀ sample ∈ bank.samples,
    ∃ tree', tree.create (mapPath (bank.audioPath sample)) = .ok tree'

variable {start tree : FileTree} {bank : Voicebank α} {analyzer : Analyzer α} {extension : String}
  {sample other : Sample α}

/-! ## The files of samples -/

namespace Analysable

theorem exists_endsIn (h : Analysable start bank analyzer extension)
    (hsample : sample ∈ bank.samples) :
    ∃ file, EndsIn (bank.audioPath sample) file ∧
      Path.extension? (bank.audioPath sample) = some extension := by
  obtain ⟨file, hfile, haudio⟩ := (h.normal sample hsample).exists_endsIn bank.dir
  refine ⟨file, haudio, ?_⟩
  rw [audioPath, Path.extension?, haudio.fileName?, ← hfile.fileName?]
  exact h.extension_eq sample hsample

/-- No audio lies where a map is stored. -/
theorem audioPlace_ne (h : Analysable start bank analyzer extension)
    (hsample : sample ∈ bank.samples) (hother : other ∈ bank.samples) :
    bank.audioPlace sample ≠ bank.mapPlace other := by
  obtain ⟨file, hfile, hext⟩ := h.exists_endsIn hsample
  obtain ⟨file', hfile', hext'⟩ := h.exists_endsIn hother
  refine place_ne_mapPath hfile ?_ hfile' hext'
  rw [hext]
  exact fun heq => h.extension_ne (Option.some.inj heq)

/-- The configuration does not lie where a map is stored. -/
theorem configPlace_ne (h : Analysable start bank analyzer extension)
    (hsample : sample ∈ bank.samples) :
    place (Path.join bank.dir configFile) ≠ bank.mapPlace sample := by
  have hnormal : IsNormal configFile := by decide
  obtain ⟨name, hconfig, hjoin⟩ := hnormal.exists_endsIn bank.dir
  obtain ⟨file, hfile, hext⟩ := h.exists_endsIn hsample
  refine place_ne_mapPath hjoin ?_ hfile hext
  rw [Path.extension?, hjoin.fileName?, ← hconfig.fileName?]
  decide

/-- Samples whose audio lies in one place have one path for it. -/
theorem audioPath_eq_of_audioPlace (h : Analysable start bank analyzer extension)
    (hsample : sample ∈ bank.samples) (hother : other ∈ bank.samples)
    (heq : bank.audioPlace sample = bank.audioPlace other) :
    bank.audioPath sample = bank.audioPath other := by
  rw [audioPlace, audioPlace, audioPath, audioPath, (h.normal sample hsample).place_join,
    (h.normal other hother).place_join] at heq
  rw [audioPath, audioPath, components_injective (List.append_cancel_left heq)]

/-- Samples that share a map share their audio. -/
theorem audioPath_eq_of_mapPlace (h : Analysable start bank analyzer extension)
    (hsample : sample ∈ bank.samples) (hother : other ∈ bank.samples)
    (heq : bank.mapPlace sample = bank.mapPlace other) :
    bank.audioPath sample = bank.audioPath other := by
  obtain ⟨file, hfile, hext⟩ := h.exists_endsIn hsample
  obtain ⟨file', hfile', hext'⟩ := h.exists_endsIn hother
  exact h.audioPath_eq_of_audioPlace hsample hother
    (place_eq_of_mapPath hfile hfile' hext hext' heq)

/-- A map is stored in a directory, where nothing is yet. -/
theorem locate_map (h : Analysable start bank analyzer extension)
    (hsample : sample ∈ bank.samples) :
    start.locate (mapPath (bank.audioPath sample)) = .ok (bank.mapPlace sample) ∧
      start.entry? (bank.mapPlace sample) = none ∧
      start.entry? (bank.mapPlace sample).dropLast = some .directory := by
  obtain ⟨tree', hcreate⟩ := h.writable sample hsample
  obtain ⟨names, hlocate, hnames, hparent, -⟩ := create_eq_ok.mp hcreate
  have hplace : names = bank.mapPlace sample := eq_place_of_locate hlocate
  rw [hplace] at hlocate hnames hparent
  refine ⟨hlocate, ?_, hparent⟩
  cases hentry : start.entry? (bank.mapPlace sample) with
  | none => rfl
  | some entry =>
    cases entry with
    | directory => exact absurd hentry hnames
    | file bytes =>
      have hfile := isFile_iff.mpr ⟨bytes, read_eq_ok.mpr ⟨_, hlocate, hentry⟩⟩
      rw [h.absent sample hsample] at hfile
      cases hfile

/-- The audio of a sample can be read. -/
theorem exists_read (h : Analysable start bank analyzer extension)
    (hsample : sample ∈ bank.samples) :
    ∃ bytes, start.read (bank.audioPath sample) = .ok bytes := by
  obtain ⟨frq, hfrq, -⟩ := h.analysed sample hsample
  obtain ⟨audio, haudio, -⟩ := Except.bind_eq_ok.mp hfrq
  obtain ⟨bytes, hbytes, -⟩ := Except.bind_eq_ok.mp (Except.mapError_eq_ok.mp haudio)
  exact ⟨bytes, Except.mapError_eq_ok.mp hbytes⟩

end Analysable

/-! ## Trees that differ in stored maps -/

/-- `OnlyMapsDiffer start bank tree`: the trees agree wherever no map of the voicebank is stored. -/
def OnlyMapsDiffer (start : FileTree) (bank : Voicebank α) (tree : FileTree) : Prop :=
  ∀ names, (∀ sample ∈ bank.samples, names ≠ bank.mapPlace sample) →
    tree.entry? names = start.entry? names

namespace OnlyMapsDiffer

variable {path : String} {bytes : List UInt8}

/-- No directory is lost. -/
theorem entry?_directory (hothers : OnlyMapsDiffer start bank tree)
    (h : Analysable start bank analyzer extension) (names : List String)
    (hnames : start.entry? names = some .directory) : tree.entry? names = some .directory := by
  rw [hothers, hnames]
  intro sample hsample heq
  rw [heq, (h.locate_map hsample).2.1] at hnames
  cases hnames

/-- A file that is no map is read as at the start. -/
theorem read_eq (hothers : OnlyMapsDiffer start bank tree)
    (h : Analysable start bank analyzer extension)
    (hpath : ∀ sample ∈ bank.samples, place path ≠ bank.mapPlace sample)
    (hread : start.read path = .ok bytes) : tree.read path = .ok bytes := by
  obtain ⟨names, hlocate, hentry⟩ := read_eq_ok.mp hread
  refine read_eq_ok.mpr ⟨names, locate_of_directories (hothers.entry?_directory h) hlocate, ?_⟩
  rw [eq_place_of_locate hlocate] at hentry ⊢
  rw [hothers _ hpath, hentry]

theorem audioOf_eq (hothers : OnlyMapsDiffer start bank tree)
    (h : Analysable start bank analyzer extension) (hsample : sample ∈ bank.samples) :
    audioOf (α := α) tree (bank.audioPath sample) = audioOf start (bank.audioPath sample) := by
  obtain ⟨bytes, hread⟩ := h.exists_read hsample
  rw [audioOf, audioOf, hread,
    hothers.read_eq h (fun other hother => h.audioPlace_ne hsample hother) hread]

/-- The voicebank may be opened again. -/
theorem bankOf_eq [Numeral α] (hothers : OnlyMapsDiffer start bank tree)
    (h : Analysable start bank analyzer extension) (hopen : bankOf start bank.dir = .ok bank) :
    bankOf tree bank.dir = .ok bank := by
  obtain ⟨bytes, hread, hbank⟩ := Except.bind_eq_ok.mp hopen
  have hread' := hothers.read_eq h (fun sample hsample => h.configPlace_ne hsample)
    (Except.mapError_eq_ok.mp hread)
  exact Except.bind_eq_ok.mpr ⟨bytes, Except.mapError_eq_ok.mpr hread', hbank⟩

/-- The audio of every sample is still there. -/
theorem isFile_audio (hothers : OnlyMapsDiffer start bank tree)
    (h : Analysable start bank analyzer extension) (hsample : sample ∈ bank.samples) :
    tree.isFile (bank.audioPath sample) := by
  obtain ⟨bytes, hread⟩ := h.exists_read hsample
  exact isFile_iff.mpr
    ⟨bytes, hothers.read_eq h (fun other hother => h.audioPlace_ne hsample hother) hread⟩

theorem locate_map (hothers : OnlyMapsDiffer start bank tree)
    (h : Analysable start bank analyzer extension) (hsample : sample ∈ bank.samples) :
    tree.locate (mapPath (bank.audioPath sample)) = .ok (bank.mapPlace sample) :=
  locate_of_directories (hothers.entry?_directory h) (h.locate_map hsample).1

end OnlyMapsDiffer

/-! ## Stored maps -/

/-- `Stored start bank analyzer analysed tree`: the tree is the tree at the start with the maps of
some samples added, each whole and right. The audio whose map is not there has not been analysed,
and no audio has been analysed twice. -/
structure Stored (start : FileTree) (bank : Voicebank α) (analyzer : Analyzer α) [BitPattern α]
    (analysed : List String) (tree : FileTree) : Prop where
  others : OnlyMapsDiffer start bank tree
  maps : ∀ sample ∈ bank.samples,
    (tree.entry? (bank.mapPlace sample) = none ∧ bank.audioPlace sample ∉ analysed.map place) ∨
    ∃ frq, analysisOf analyzer start (bank.audioPath sample) = .ok frq ∧
      tree.entry? (bank.mapPlace sample) = some (.file frq.toBytes)
  once : (analysed.map place).Nodup

namespace Stored

variable [BitPattern α] {analysed : List String} {frq : Frq α}

theorem of_start (h : Analysable start bank analyzer extension) :
    Stored start bank analyzer [] start where
  others _ _ := rfl
  maps _ hsample := .inl ⟨(h.locate_map hsample).2.1, List.not_mem_nil⟩
  once := List.nodup_nil

/-- A map may be stored where there is none yet. -/
theorem write (hstored : Stored start bank analyzer analysed tree)
    (h : Analysable start bank analyzer extension) (hsample : sample ∈ bank.samples)
    (hfrq : analysisOf analyzer start (bank.audioPath sample) = .ok frq)
    (habsent : bank.audioPlace sample ∉ analysed.map place) :
    Stored start bank analyzer (bank.audioPath sample :: analysed)
      ((tree.put (bank.mapPlace sample) []).put (bank.mapPlace sample) frq.toBytes) := by
  have hnames : bank.mapPlace sample ≠ [] :=
    ne_nil_of_ne_directory (ne_directory_of_eq_none (h.locate_map hsample).2.1)
  constructor
  · intro names hother
    rw [entry?_put_of_ne (hother sample hsample), entry?_put_of_ne (hother sample hsample),
      hstored.others names hother]
  · intro other hother
    by_cases heq : bank.mapPlace other = bank.mapPlace sample
    · -- A sample that shares the map shares the audio, and with it the analysis.
      refine .inr ⟨frq, ?_, ?_⟩
      · rw [h.audioPath_eq_of_mapPlace hother hsample heq, hfrq]
      · rw [heq, entry?_put_self hnames]
    · rw [entry?_put_of_ne heq, entry?_put_of_ne heq]
      refine (hstored.maps other hother).imp_left fun ⟨hnone, hnew⟩ => ⟨hnone, ?_⟩
      rw [List.map_cons, List.mem_cons, not_or]
      refine ⟨fun hplace => heq ?_, hnew⟩
      rw [mapPlace, mapPlace, h.audioPath_eq_of_audioPlace hother hsample hplace]
  · exact List.nodup_cons.mpr ⟨habsent, hstored.once⟩

end Stored

/-! ## Sessions -/

/-- `Consistent start bank analyzer loaded tree`: what is kept in memory and in the tree is right.
-/
structure Consistent [BitPattern α] (start : FileTree) (bank : Voicebank α) (analyzer : Analyzer α)
    (loaded : Loaded α) (tree : FileTree) : Prop where
  audio : loaded.audio.Holds fun name audio =>
    ∃ sample, bank.get name = .ok sample ∧ audioOf start (bank.audioPath sample) = .ok audio
  maps : loaded.maps.Holds fun name frq =>
    ∃ sample, bank.get name = .ok sample ∧
      analysisOf analyzer start (bank.audioPath sample) = .ok frq
  stored : Stored start bank analyzer loaded.analysed tree

omit [Scalar α] in
theorem mem_samples_of_get {name : String} (hget : bank.get name = .ok sample) :
    sample ∈ bank.samples := by
  rw [get] at hget
  cases hfind : bank.find? name with
  | none => rw [hfind] at hget; cases hget
  | some found =>
    rw [hfind] at hget
    obtain ⟨place, -, hplace⟩ := Option.bind_eq_some_iff.mp hfind
    rw [← Except.ok.inj hget]
    exact Array.mem_of_getElem? hplace

namespace Consistent

variable [BitPattern α] {loaded : Loaded α} {name : String} {audio : Segment α} {frq : Frq α}

theorem of_start (h : Analysable start bank analyzer extension) :
    Consistent start bank analyzer .empty start :=
  ⟨.empty, .empty, .of_start h⟩

/-- Loading audio returns the audio of the alias and keeps it. -/
theorem run_loadAudio (hcons : Consistent start bank analyzer loaded tree)
    (h : Analysable start bank analyzer extension) (hget : bank.get name = .ok sample)
    (haudio : audioOf start (bank.audioPath sample) = .ok audio) :
    ∃ kept, run (bank.loadAudio name : ExceptT (VoicebankError α) (Session α) _).run loaded tree =
        (.ok audio, { loaded with audio := kept }, tree) ∧
      Consistent start bank analyzer { loaded with audio := kept } tree := by
  have hpath : bank.pathTo name = .ok (bank.audioPath sample) := by rw [pathTo, hget]; rfl
  rw [loadAudio, run_bind_except, run_ofExcept, hpath]
  cases hkept : loaded.audio.get? name with
  | some found =>
    obtain ⟨sample', hget', hfound⟩ := hcons.audio.value name found hkept
    have hsample : sample' = sample := Except.ok.inj (hget'.symm.trans hget)
    rw [hsample, haudio] at hfound
    obtain rfl : audio = found := Except.ok.inj hfound
    exact ⟨_, run_getOrFill_hit reaches_audio hkept, hcons.audio.claim name, hcons.maps,
      hcons.stored⟩
  | none =>
    have hfill := run_ofFile (bank.audioPath sample)
      { loaded with audio := (loaded.audio.claim name).2 } tree
    rw [hcons.stored.others.audioOf_eq h (mem_samples_of_get hget), haudio] at hfill
    have hrun := run_getOrFill_miss reaches_audio hkept hfill
    exact ⟨_, hrun, hcons.audio.store_claim ⟨sample, hget, haudio⟩, hcons.maps, hcons.stored⟩

/-- Analysing returns the analysis and stores it. -/
theorem run_analyzeMap (hcons : Consistent start bank analyzer loaded tree)
    (h : Analysable start bank analyzer extension) (hget : bank.get name = .ok sample)
    (hfrq : analysisOf analyzer start (bank.audioPath sample) = .ok frq)
    (hnone : tree.entry? (bank.mapPlace sample) = none)
    (hnew : bank.audioPlace sample ∉ loaded.analysed.map place) :
    ∃ loaded' tree', run (bank.analyzeMap analyzer name (mapPath (bank.audioPath sample)) :
        ExceptT (VoicebankError α) (Session α) _).run loaded tree = (.ok frq, loaded', tree') ∧
      loaded'.maps = loaded.maps ∧ Consistent start bank analyzer loaded' tree' := by
  have hsample := mem_samples_of_get hget
  have hpath : bank.pathTo name = .ok (bank.audioPath sample) := by rw [pathTo, hget]; rfl
  obtain ⟨audio, haudio, hanalysis⟩ := Except.bind_eq_ok.mp hfrq
  obtain ⟨kept, hload, hcons'⟩ := hcons.run_loadAudio h hget haudio
  have hcreate := create_eq_ok.mpr ⟨_, hcons.stored.others.locate_map h hsample,
    ne_directory_of_eq_none hnone,
    hcons.stored.others.entry?_directory h _ (h.locate_map hsample).2.2, rfl⟩
  refine ⟨{ loaded with audio := kept, analysed := bank.audioPath sample :: loaded.analysed }, _,
    ?_, rfl, hcons'.audio, hcons'.maps, hcons.stored.write h hsample hfrq hnew⟩
  rw [analyzeMap, run_bind_except, hload]
  simp only [hpath]
  rw [run_bind_except, run_noteAnalysis]
  simp only [hanalysis]
  rw [run_bind_except, run_ofExcept]
  simp only
  rw [run_bind_except, run_write hcreate]
  rfl

/-- What is not kept in memory is read from the stored map, or else analysed. -/
theorem run_fill (hcons : Consistent start bank analyzer loaded tree)
    (h : Analysable start bank analyzer extension)
    (hpattern : ∀ x : α, BitPattern.ofBits (BitPattern.toBits x) = x)
    (hget : bank.get name = .ok sample)
    (hfrq : analysisOf analyzer start (bank.audioPath sample) = .ok frq) :
    ∃ loaded' tree', run (do
        if ← FileAccess.isFile (mapPath (bank.audioPath sample)) then
          readMap (mapPath (bank.audioPath sample))
        else bank.analyzeMap analyzer name (mapPath (bank.audioPath sample)) :
        ExceptT (VoicebankError α) (Session α) _).run loaded tree = (.ok frq, loaded', tree') ∧
      loaded'.maps = loaded.maps ∧ Consistent start bank analyzer loaded' tree' := by
  rw [run_bind_except, run_isFile]
  have hsample := mem_samples_of_get hget
  have hlocate := hcons.stored.others.locate_map h hsample
  rcases hcons.stored.maps sample hsample with ⟨hnone, hnew⟩ | ⟨found, hfound, hstored⟩
  · have hfile : tree.isFile (mapPath (bank.audioPath sample)) = false := by
      rw [isFile, hlocate]
      simp only [hnone]
    rw [hfile]
    exact hcons.run_analyzeMap h hget hfrq hnone hnew
  · obtain rfl : frq = found := Except.ok.inj (hfrq.symm.trans hfound)
    have hread : tree.read (mapPath (bank.audioPath sample)) = .ok frq.toBytes :=
      read_eq_ok.mpr ⟨_, hlocate, hstored⟩
    obtain ⟨frq', hfrq', hframes⟩ := h.analysed sample hsample
    obtain rfl : frq = frq' := Except.ok.inj (hfrq.symm.trans hfrq')
    have hbytes : Frq.ofBytes frq.toBytes = .ok frq := by
      have happend := Frq.ofBytes_toBytes_append hpattern hframes []
      rwa [List.append_nil] at happend
    rw [isFile_iff.mpr ⟨_, hread⟩]
    refine ⟨loaded, tree, ?_, rfl, hcons⟩
    simp only [if_true]
    rw [run_readMap, mapOf, hread]
    simp only [Except.mapError, Except.ok_bind, hbytes]

/-- Loading a map returns the analysis of the audio of the alias. -/
theorem run_loadMap (hcons : Consistent start bank analyzer loaded tree)
    (h : Analysable start bank analyzer extension)
    (hpattern : ∀ x : α, BitPattern.ofBits (BitPattern.toBits x) = x)
    (hget : bank.get name = .ok sample)
    (hfrq : analysisOf analyzer start (bank.audioPath sample) = .ok frq) :
    ∃ loaded' tree', run (bank.loadMap analyzer name :
        ExceptT (VoicebankError α) (Session α) _).run loaded tree = (.ok frq, loaded', tree') ∧
      Consistent start bank analyzer loaded' tree' := by
  have hpath : bank.mapPathTo name = .ok (mapPath (bank.audioPath sample)) := by
    rw [mapPathTo, pathTo, hget]
    rfl
  rw [loadMap, run_bind_except, run_ofExcept, hpath]
  cases hkept : loaded.maps.get? name with
  | some found =>
    obtain ⟨sample', hget', hfound⟩ := hcons.maps.value name found hkept
    have hsample : sample' = sample := Except.ok.inj (hget'.symm.trans hget)
    rw [hsample, hfrq] at hfound
    obtain rfl : frq = found := Except.ok.inj hfound
    exact ⟨_, _, run_getOrFill_hit reaches_maps hkept, hcons.audio, hcons.maps.claim name,
      hcons.stored⟩
  | none =>
    have hclaimed : Consistent start bank analyzer
        { loaded with maps := (loaded.maps.claim name).2 } tree :=
      ⟨hcons.audio, hcons.maps.claim name, hcons.stored⟩
    obtain ⟨loaded', tree', hfill, hmaps, hcons'⟩ := hclaimed.run_fill h hpattern hget hfrq
    refine ⟨_, _, run_getOrFill_miss reaches_maps hkept hfill, hcons'.audio, ?_, hcons'.stored⟩
    rw [hmaps]
    exact hcons.maps.store_claim ⟨sample, hget, hfrq⟩

end Consistent

/-! ## Results of loading -/

section Aliases

variable [BitPattern α] (h : Analysable start bank analyzer extension) (name : String)

include h

/-- As long as what is kept is right, loading audio has the result of decoding it anew. -/
theorem has_loadAudio :
    (within (Consistent start bank analyzer)).Has
      (bank.loadAudio name : ExceptT (VoicebankError α) (Session α) _).run
      (audioFor start bank name) := by
  intro loaded tree hcons
  rw [audioFor]
  cases hget : bank.get name with
  | error error =>
    have hpath : bank.pathTo name = .error error := by rw [pathTo, hget]; rfl
    rw [loadAudio, run_bind_except, run_ofExcept, hpath]
    exact ⟨loaded, tree, rfl, hcons⟩
  | ok sample =>
    obtain ⟨frq, hfrq, -⟩ := h.analysed sample (mem_samples_of_get hget)
    obtain ⟨audio, haudio, -⟩ := Except.bind_eq_ok.mp hfrq
    obtain ⟨kept, hload, hcons'⟩ := hcons.run_loadAudio h hget haudio
    rw [hload, Except.ok_bind, haudio]
    exact ⟨_, tree, rfl, hcons'⟩

/-- As long as what is kept is right, loading a map has the result of analysing the audio anew. -/
theorem has_loadMap (hpattern : ∀ x : α, BitPattern.ofBits (BitPattern.toBits x) = x) :
    (within (Consistent start bank analyzer)).Has
      (bank.loadMap analyzer name : ExceptT (VoicebankError α) (Session α) _).run
      (analysisFor analyzer start bank name) := by
  intro loaded tree hcons
  rw [analysisFor]
  cases hget : bank.get name with
  | error error =>
    have hpath : bank.mapPathTo name = .error error := by rw [mapPathTo, pathTo, hget]; rfl
    rw [loadMap, run_bind_except, run_ofExcept, hpath]
    exact ⟨loaded, tree, rfl, hcons⟩
  | ok sample =>
    obtain ⟨frq, hfrq, -⟩ := h.analysed sample (mem_samples_of_get hget)
    obtain ⟨loaded', tree', hload, hcons'⟩ := hcons.run_loadMap h hpattern hget hfrq
    rw [hload, Except.ok_bind, hfrq]
    exact ⟨loaded', tree', rfl, hcons'⟩

end Aliases

end SingingVoice.Voicebank
