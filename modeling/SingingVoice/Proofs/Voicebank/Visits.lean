import SingingVoice.Proofs.Voicebank.Transparency

/-!
# Visits to a voicebank

A voicebank is visited again and again: frequency maps are loaded, what is kept in memory is
forgotten, the voicebank is opened anew. Whatever the order of the visits, `loads_transparent` says
that each load answers as if the audio were analysed there and then, and that nevertheless no audio
file is analysed twice.
-/

namespace SingingVoice.Voicebank

open FileTree Session

/-- What is done with a voicebank. -/
inductive Visit where
  /-- The frequency map of an alias is loaded. -/
  | load (name : String)
  /-- What is kept in memory is forgotten. -/
  | teardown
  /-- The voicebank is opened anew, perhaps with a check that its audio is there. -/
  | reopen (checked : Bool)
deriving DecidableEq, Repr

variable {α : Type} [Scalar α] [Numeral α] [BitPattern α]

/-- What a visit to a voicebank answers; only a load answers with a frequency map. -/
abbrev Answer (α : Type) :=
  Except (VoicebankError α) (Option (Frq α))

/-- A voicebank that has just been opened has nothing loaded. The list of analyses goes on. -/
def startAfresh : Session α Unit :=
  modifyThe (Loaded α) fun loaded => { Loaded.empty with analysed := loaded.analysed }

/-- One visit. The voicebank after it comes with the answer; it is another one only if the directory
has been opened anew. -/
def visit (analyzer : Analyzer α) (bank : Voicebank α) :
    Visit → Session α (Answer α × Voicebank α)
  | .load name => do return ((← (bank.loadMap analyzer name).run).map some, bank)
  | .teardown => do
    Voicebank.teardown α
    return (.ok none, bank)
  | .reopen checked => do
    match ← (if checked then ofDirectoryChecked bank.dir else ofDirectory bank.dir).run with
    | .ok bank => do
      startAfresh
      return (.ok none, bank)
    | .error error => return (.error error, bank)

/-- One visit after another. -/
def visits (analyzer : Analyzer α) : Voicebank α → List Visit → Session α (List (Answer α))
  | _, [] => return []
  | bank, first :: rest => do
    let (answer, bank) ← visit analyzer bank first
    return answer :: (← visits analyzer bank rest)

/-- What a visit would answer if nothing were ever kept. -/
def answer (analyzer : Analyzer α) (start : FileTree) (bank : Voicebank α) : Visit → Answer α
  | .load name => Except.map some do
    let sample ← bank.get name
    analysisOf analyzer start (bank.audioPath sample)
  | .teardown => .ok none
  | .reopen _ => .ok none

variable {start : FileTree} {bank : Voicebank α} {analyzer : Analyzer α} {extension : String}

/-! ## Opening -/

omit [Scalar α] [Numeral α] [BitPattern α] in
theorem dir_insert (bank : Voicebank α) (sample : Sample α) :
    (bank.insert sample).dir = bank.dir := by
  rw [insert]
  split <;> rfl

omit [Scalar α] [Numeral α] [BitPattern α] in
theorem mem_samples_insert {bank : Voicebank α} {sample other : Sample α}
    (hother : other ∈ (bank.insert sample).samples) : other = sample ∨ other ∈ bank.samples := by
  rw [insert] at hother
  split at hother
  · exact (Array.mem_or_eq_of_mem_setIfInBounds hother).symm
  · exact (Array.mem_push.mp hother).symm

omit [Scalar α] [Numeral α] [BitPattern α] in
/-- A voicebank of samples lies in its directory and has no other samples. -/
theorem ofSamples_spec (dir : String) (samples : List (Sample α)) :
    (ofSamples dir samples).dir = dir ∧
      ∀ sample ∈ (ofSamples dir samples).samples, sample ∈ samples := by
  have hfold : ∀ bank : Voicebank α, (samples.foldl insert bank).dir = bank.dir ∧
      ∀ sample ∈ (samples.foldl insert bank).samples, sample ∈ samples ∨ sample ∈ bank.samples := by
    induction samples with
    | nil => exact fun bank => ⟨rfl, fun _ hsample => .inr hsample⟩
    | cons first rest ih =>
      intro bank
      obtain ⟨hdir, hsamples⟩ := ih (bank.insert first)
      refine ⟨hdir.trans (dir_insert bank first), fun sample hsample => ?_⟩
      rcases hsamples sample hsample with hrest | hinsert
      · exact .inl (List.mem_cons_of_mem _ hrest)
      · refine (mem_samples_insert hinsert).imp_left fun heq => ?_
        rw [heq]
        exact List.mem_cons_self ..
  obtain ⟨hdir, hsamples⟩ := hfold (empty dir)
  exact ⟨hdir, fun sample hsample => (hsamples sample hsample).resolve_right (by simp [empty])⟩

/-! ## Visits -/

section Answers

variable (h : Analysable start bank analyzer extension)
  (hpattern : ∀ x : α, BitPattern.ofBits (BitPattern.toBits x) = x)
  (hopen : bankOf start bank.dir = .ok bank)

include h hpattern hopen

/-- As long as what is kept is right, a visit answers as if nothing were kept. -/
theorem has_visit (next : Visit) :
    (within (Consistent start bank analyzer)).Has (visit analyzer bank next)
      (answer analyzer start bank next, bank) := by
  cases next with
  | load name => exact (within _).bind (has_loadMap h name hpattern) ((within _).of_pure _)
  | teardown =>
    intro loaded tree hcons
    exact ⟨{ loaded with audio := loaded.audio.clear, maps := loaded.maps.clear }, tree, rfl,
      .clear loaded.audio, .clear loaded.maps, hcons.stored⟩
  | reopen checked =>
    intro loaded tree hcons
    have hbank := hcons.stored.others.bankOf_eq h hopen
    have hplain : run (ofDirectory bank.dir : ExceptT _ (Session α) _).run loaded tree =
        (.ok bank, loaded, tree) := by
      rw [run_ofDirectory, hbank]
    have hchecked : run (ofDirectoryChecked bank.dir : ExceptT _ (Session α) _).run loaded tree =
        (.ok bank, loaded, tree) := by
      have hfiles : ∀ path ∈ bank.samples.toList.map bank.audioPath, tree.isFile path := by
        intro path hpath
        obtain ⟨sample, hsample, rfl⟩ := List.mem_map.mp hpath
        exact hcons.stored.others.isFile_audio h (Array.mem_toList_iff.mp hsample)
      rw [ofDirectoryChecked, run_bind_except, hplain]
      simp only
      rw [run_bind_except, run_checkFiles hfiles]
      rfl
    have hrun : run (if checked then ofDirectoryChecked bank.dir else ofDirectory bank.dir :
        ExceptT _ (Session α) _).run loaded tree = (.ok bank, loaded, tree) := by
      cases checked
      · exact hplain
      · exact hchecked
    rw [visit, run_bind, hrun]
    exact ⟨{ Loaded.empty with analysed := loaded.analysed }, tree, rfl, .empty, .empty,
      hcons.stored⟩

/-- As long as what is kept is right, a series of visits answers as if nothing were kept. -/
theorem has_visits (series : List Visit) :
    (within (Consistent start bank analyzer)).Has (visits analyzer bank series)
      (series.map (answer analyzer start bank)) := by
  induction series with
  | nil => exact (within _).of_pure _
  | cons next rest ih =>
    exact (within _).bind (has_visit h hpattern hopen next)
      ((within _).bind ih ((within _).of_pure _))

end Answers

omit [Scalar α] [BitPattern α] in
/-- A voicebank remembers the directory that it was read from. -/
theorem dir_of_bankOf {dir : String} (hopen : bankOf start dir = .ok bank) : bank.dir = dir := by
  obtain ⟨bytes, -, hbank⟩ := Except.bind_eq_ok.mp hopen
  obtain ⟨samples, -, hsamples⟩ := Except.bind_eq_ok.mp hbank
  rw [← Except.ok.inj hsamples]
  exact (ofSamples_spec dir samples).1

/-- A voicebank is opened whose samples can all be analysed and have no frequency maps yet. Whatever
is loaded from it, forgotten and opened anew, and however the aliases share audio, every answer is
the one that a new analysis of the audio at the start would give, every known alias has such an
answer, and no audio file is analysed twice. -/
theorem loads_transparent {dir : String}
    (hopen : (run (ofDirectory dir : ExceptT (VoicebankError α) (Session α) _).run .empty start).1 =
      .ok bank)
    (h : Analysable start bank analyzer extension)
    (hpattern : ∀ x : α, BitPattern.ofBits (BitPattern.toBits x) = x) (series : List Visit) :
    let outcome := run (visits analyzer bank series) .empty start
    outcome.1 = series.map (answer analyzer start bank) ∧
      (∀ name sample, bank.get name = .ok sample →
        ∃ frq, analysisOf analyzer start (bank.audioPath sample) = .ok frq ∧
          answer analyzer start bank (.load name) = .ok (some frq)) ∧
      (outcome.2.1.analysed.map place).Nodup := by
  rw [run_ofDirectory] at hopen
  have hbank : bankOf start bank.dir = .ok bank := by rw [dir_of_bankOf hopen]; exact hopen
  obtain ⟨loaded, tree, hrun, hcons⟩ :=
    has_visits h hpattern hbank series .empty start (.of_start h)
  rw [hrun]
  refine ⟨rfl, fun name sample hget => ?_, hcons.stored.once⟩
  obtain ⟨frq, hfrq, -⟩ := h.analysed sample (mem_samples_of_get hget)
  refine ⟨frq, hfrq, ?_⟩
  rw [answer, hget, Except.ok_bind, hfrq]
  rfl

/-! ## An example -/

/-- The configuration of two aliases that share their audio. -/
def sharedConfig : List UInt8 :=
  Utf8.encode "a.wav=a,1,2,3,4,5\na.wav=i,6,7,8,9,10\n"

/-- Audio of one sample. -/
def sharedAudio : List UInt8 :=
  Segment.waveHeader (.mono 100) 1 ++ [5, 0]

/-- The directory `vb` with the configuration and the audio. -/
def sharedTree : FileTree :=
  (put (put ⟨(∅ : Std.HashMap _ _).insert ["vb"] .directory⟩ ["vb", "oto.ini"] sharedConfig)
    ["vb", "a.wav"] sharedAudio)

/-- The voicebank in the directory `vb`. -/
def sharedBank : Voicebank Double :=
  ofSamples "vb"
    ((parseConfig (String.ofList (Utf8.decodeLossy sharedConfig))).toOption.getD [])

/-- The frequency map that takes each sample for a frame of 440 Hz. -/
def concertPitchMap (audio : Segment Double) : Frq Double :=
  let pitch : Double := ⟨0x407b800000000000⟩
  ⟨100, pitch, audio.samples.toList.map fun x => ⟨pitch, x⟩⟩

/-- An analysis that always succeeds. -/
def concertPitch : Analyzer Double :=
  fun audio => .ok (concertPitchMap audio)

theorem entry?_sharedTree_dir : sharedTree.entry? ["vb"] = some .directory := by
  rw [sharedTree, entry?_put_of_ne (by decide), entry?_put_of_ne (by decide)]
  simp [ entry?]

theorem locate_sharedTree (path name : String)
    (hpath : components path = ["vb", name] ∧ IsName name ∧ name.utf8ByteSize ≤ maxNameSize ∧
      path.isEmpty = false ∧ ¬ (path.toList.contains '\x00' ∨ maxPathSize < path.utf8ByteSize) ∧
      Path.isAbsolute path = false) :
    sharedTree.locate path = .ok ["vb", name] := by
  obtain ⟨hcomps, hname, hsize, hempty, hbad, habsolute⟩ := hpath
  refine locate_eq_ok.mpr ⟨hempty, hbad, habsolute, ?_⟩
  rw [hcomps, walk_cons_eq_ok]
  refine ⟨rfl, by decide, ?_⟩
  have henter : enter [] "vb" = ["vb"] := by decide
  rw [henter, walk_cons_eq_ok, enter_of_isName hname]
  exact ⟨entry?_sharedTree_dir, hsize, rfl⟩

theorem read_sharedTree_config : sharedTree.read "vb/oto.ini" = .ok sharedConfig := by
  refine read_eq_ok.mpr ⟨["vb", "oto.ini"], locate_sharedTree _ _ (by decide), ?_⟩
  rw [sharedTree, entry?_put_of_ne (by decide), entry?_put_self (by decide)]

theorem read_sharedTree_audio : sharedTree.read "vb/a.wav" = .ok sharedAudio := by
  refine read_eq_ok.mpr ⟨["vb", "a.wav"], locate_sharedTree _ _ (by decide), ?_⟩
  rw [sharedTree, entry?_put_self (by decide)]

theorem locate_sharedTree_map :
    sharedTree.locate "vb/a_wav.frq" = .ok ["vb", "a_wav.frq"] ∧
      sharedTree.entry? ["vb", "a_wav.frq"] = none := by
  refine ⟨locate_sharedTree _ _ (by decide), ?_⟩
  rw [sharedTree, entry?_put_of_ne (by decide), entry?_put_of_ne (by decide)]
  simp [ entry?]

/-- Both aliases of the example have their audio in one file. -/
theorem audio_sharedBank {sample : Sample Double} (hsample : sample ∈ sharedBank.samples) :
    sample.file = "a.wav" ∧ sharedBank.audioPath sample = "vb/a.wav" := by
  have hfiles : ((parseConfig (α := Double)
      (String.ofList (Utf8.decodeLossy sharedConfig))).toOption.getD []).map Sample.file =
        ["a.wav", "a.wav"] := by
    decide +kernel
  have hfile : sample.file = "a.wav" := by
    have hmem := List.mem_map_of_mem (f := Sample.file)
      ((ofSamples_spec "vb" _).2 sample hsample)
    rw [hfiles] at hmem
    simpa using hmem
  refine ⟨hfile, ?_⟩
  rw [audioPath, hfile, sharedBank, (ofSamples_spec "vb" _).1]
  decide

/-- Both aliases of the example are known. -/
theorem exists_get_sharedBank {name : String} (hname : name ∈ ["a", "i"]) :
    ∃ sample, sharedBank.get name = .ok sample := by
  have hnames : ((parseConfig (α := Double)
      (String.ofList (Utf8.decodeLossy sharedConfig))).toOption.getD []).map Sample.name =
        ["a", "i"] := by
    decide +kernel
  obtain ⟨first, rest, hsamples, hfirst, hrest⟩ := List.map_eq_cons_iff.mp hnames
  obtain ⟨second, none, rfl, hsecond, hnone⟩ := List.map_eq_cons_iff.mp hrest
  obtain rfl := List.map_eq_nil_iff.mp hnone
  rw [sharedBank, hsamples]
  rcases List.mem_pair.mp hname with rfl | rfl <;>
    simp [get, find?, ofSamples, insert, empty, hfirst, hsecond, Std.HashMap.getElem_insert]

/-- The audio of the example can be decoded. -/
theorem audioOf_sharedTree :
    ∃ audio : Segment Double, audioOf sharedTree "vb/a.wav" = .ok audio ∧
      audio.samples.size = 1 ∧ (audio.setChannels .mono).samples.size = 1 := by
  have hdecode : ((Segment.ofWave (α := Double) sharedAudio).toOption.map fun audio =>
      (audio.samples.size, (audio.setChannels .mono).samples.size)) = some (1, 1) := by
    decide +kernel
  cases haudio : Segment.ofWave (α := Double) sharedAudio with
  | error error => rw [haudio] at hdecode; cases hdecode
  | ok audio =>
    rw [haudio] at hdecode
    refine ⟨audio, ?_, Prod.ext_iff.mp (Option.some.inj hdecode)⟩
    rw [audioOf, read_sharedTree_audio]
    simp only [Except.mapError, Except.ok_bind, haudio]

theorem analysisOf_sharedTree :
    ∃ frq, analysisOf concertPitch sharedTree "vb/a.wav" = .ok frq ∧
      frq.frames.length ≤ Frq.maxFrames := by
  obtain ⟨audio, haudio, hsize, -⟩ := audioOf_sharedTree
  refine ⟨concertPitchMap audio, ?_, ?_⟩
  · rw [analysisOf, haudio]
    rfl
  · rw [concertPitchMap, List.length_map, Array.length_toList, hsize]
    decide

/-- The samples of the example can be analysed if their audio can. -/
theorem analysable_sharedBank {analyzer : Analyzer Double}
    (hanalysis : ∃ frq, analysisOf analyzer sharedTree "vb/a.wav" = .ok frq ∧
      frq.frames.length ≤ Frq.maxFrames) :
    Analysable sharedTree sharedBank analyzer "wav" where
  extension_ne := by decide
  normal sample hsample := by
    rw [(audio_sharedBank hsample).1]
    decide
  extension_eq sample hsample := by
    rw [(audio_sharedBank hsample).1]
    decide
  analysed sample hsample := by
    rw [(audio_sharedBank hsample).2]
    exact hanalysis
  absent sample hsample := by
    have hmap : mapPath "vb/a.wav" = "vb/a_wav.frq" := by decide
    rw [(audio_sharedBank hsample).2, hmap, isFile, locate_sharedTree_map.1]
    simp only [locate_sharedTree_map.2]
  writable sample hsample := by
    have hmap : mapPath "vb/a.wav" = "vb/a_wav.frq" := by decide
    rw [(audio_sharedBank hsample).2, hmap]
    exact ⟨_, create_eq_ok.mpr ⟨_, locate_sharedTree_map.1,
      ne_directory_of_eq_none locate_sharedTree_map.2, entry?_sharedTree_dir, rfl⟩⟩

theorem run_ofDirectory_sharedTree :
    (run (ofDirectory "vb" : ExceptT (VoicebankError Double) (Session Double) _).run .empty
      sharedTree).1 = .ok sharedBank := by
  have hconfig : Path.join "vb" configFile = "vb/oto.ini" := by decide
  have hparse : (parseConfig (α := Double)
      (String.ofList (Utf8.decodeLossy sharedConfig))).toOption.isSome := by
    decide +kernel
  rw [run_ofDirectory, bankOf, hconfig, read_sharedTree_config]
  simp only [Except.mapError, Except.ok_bind]
  cases hsamples : parseConfig (α := Double) (String.ofList (Utf8.decodeLossy sharedConfig)) with
  | error error => rw [hsamples] at hparse; cases hparse
  | ok samples => rw [sharedBank, hsamples]; rfl

/-- Two aliases share audio. It is loaded under both, before and after the memory is cleared and the
voicebank is opened again. -/
theorem shared_audio_analysed_once :
    let series : List Visit :=
      [.load "a", .load "i", .teardown, .load "i", .reopen true, .load "a", .load "u"]
    let outcome := run (visits concertPitch sharedBank series) .empty sharedTree
    (run (ofDirectory "vb" : ExceptT (VoicebankError Double) (Session Double) _).run .empty
      sharedTree).1 = .ok sharedBank ∧
    Analysable sharedTree sharedBank concertPitch "wav" ∧
    outcome.1 = series.map (answer concertPitch sharedTree sharedBank) ∧
    (outcome.2.1.analysed.map place).Nodup := by
  intro series outcome
  obtain ⟨hanswers, -, honce⟩ :=
    loads_transparent run_ofDirectory_sharedTree (analysable_sharedBank analysisOf_sharedTree)
      (fun _ => rfl) series
  exact ⟨run_ofDirectory_sharedTree, analysable_sharedBank analysisOf_sharedTree, hanswers, honce⟩

end SingingVoice.Voicebank
