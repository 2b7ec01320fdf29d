import SingingVoice.Proofs.Voicebank.Race
import SingingVoice.Proofs.Voicebank.Visits

/-!
# Torn frequency maps

A frequency map is stored without care for those who read it meanwhile or after a write that breaks
off. `torn_map_fails_loads` says what follows for the aliases of one audio file, however their loads
are interleaved: the file of the map holds a beginning of the map, every beginning may be left by a
load that itself succeeds, and once it is left and nobody is about to write, every load fails, from
a voicebank that has just been opened as well. Two loads are enough for a failure, even if every
write succeeds: `concurrent_load_fails`.
-/

namespace SingingVoice.Voicebank

open FileTree Session Race

variable {α : Type} [BitPattern α]

namespace Race

variable {path : String} {frq : Frq α} {tree tree' : FileTree} {written : List UInt8}

/-! ## Loads one by one -/

/-- What a load that is alone does next. -/
theorem steps_alone {before after : Progress α}
    (haction : Action path frq tree before tree' after) :
    Steps path frq ⟨tree, [before]⟩ ⟨tree', [after]⟩ :=
  .single (.act (i := 0) rfl haction)

/-- A load makes the file and writes a part of the map. -/
theorem steps_write (hcreate : tree.create path = .ok tree') (hwritten : written <+: frq.toBytes) :
    Steps path frq ⟨tree, [.missing]⟩ ⟨tree'.put (place path) written, [.returned (.ok frq)]⟩ := by
  have hwrite := append_of_create hcreate written
  rw [← overwrite_of_create hcreate] at hwrite
  exact (steps_alone (.create hcreate)).trans (steps_alone (.write hwritten hwrite))

/-- A load finds no map and leaves a part of it. -/
theorem steps_broken_write (habsent : tree.isFile path = false)
    (hcreate : tree.create path = .ok tree') (hwritten : written <+: frq.toBytes) :
    Steps path frq ⟨tree, []⟩ ⟨tree'.put (place path) written, [.returned (.ok frq)]⟩ :=
  .head (.begin _)
    ((steps_alone (.check_missing habsent)).trans (steps_write hcreate hwritten))

/-- One load makes the file, another one looks for it and reads it, and then the first one writes
the map. -/
theorem steps_overlapping (habsent : tree.isFile path = false)
    (hcreate : tree.create path = .ok tree') (hfile : tree'.isFile path) :
    Steps path frq ⟨tree, []⟩ ⟨tree'.put (place path) frq.toBytes,
      [.returned (.ok frq), .returned (mapOf tree' path)]⟩ := by
  have hwrite := append_of_create hcreate frq.toBytes
  rw [← overwrite_of_create hcreate] at hwrite
  refine .head (.begin _) (.head (.begin _) ?_)
  refine .head (.act (i := 0) rfl (.check_missing habsent)) ?_
  refine .head (.act (i := 0) rfl (.create hcreate)) ?_
  refine .head (.act (i := 1) rfl (.check_found hfile)) (.head (.act (i := 1) rfl .read) ?_)
  exact .single (.act (i := 0) rfl (.write (List.prefix_refl _) hwrite))

section Loads

variable [Scalar α] {bank : Voicebank α} {analyzer : Analyzer α} {name : String}
  {loaded loaded' : Loaded α}

/-- A load that is alone and whose alias is not in memory goes through these steps. -/
theorem steps_of_run {audio : Segment α}
    (hload : run (bank.loadAudio name : ExceptT (VoicebankError α) (Session α) _).run loaded tree =
      (.ok audio, loaded', tree))
    (hanalysis : analyzer audio = .ok frq) :
    let outcome := run (do
      if ← FileAccess.isFile path then readMap path else bank.analyzeMap analyzer name path :
      ExceptT (VoicebankError α) (Session α) _).run loaded tree
    Steps path frq ⟨tree, [.begun]⟩ ⟨outcome.2.2, [.returned outcome.1]⟩ := by
  intro outcome
  cases hfile : tree.isFile path with
  | true =>
    have houtcome : outcome = (mapOf tree path, loaded, tree) := by
      simp only [outcome]
      rw [run_bind_except, run_isFile, hfile]
      exact run_readMap
    rw [houtcome]
    exact (steps_alone (.check_found hfile)).trans (steps_alone .read)
  | false =>
    have houtcome : outcome = run (do
        let _ ← FileAccess.write path frq.toBytes
        return frq : ExceptT (VoicebankError α) (Session α) _).run
        { loaded' with analysed := (bank.pathTo name).toOption.getD name :: loaded'.analysed }
        tree := by
      simp only [outcome]
      rw [run_bind_except, run_isFile, hfile]
      simp only [Bool.false_eq_true, if_false]
      rw [analyzeMap, run_bind_except, hload]
      simp only
      rw [run_bind_except, run_noteAnalysis]
      simp only [hanalysis]
      rw [run_bind_except, run_ofExcept]
    have hcheck : Steps path frq ⟨tree, [.begun]⟩ ⟨tree, [.missing]⟩ :=
      steps_alone (.check_missing hfile)
    rw [houtcome, run_bind_except]
    cases hcreate : tree.create path with
    | error fault =>
      rw [run_write_error hcreate]
      exact hcheck.trans (steps_alone .giveUp)
    | ok tree' =>
      rw [run_write hcreate]
      exact hcheck.trans (steps_write hcreate (List.prefix_refl _))

end Loads

end Race

/-! ## Loads of a voicebank -/

variable [Scalar α]

section Loads

variable {bank : Voicebank α} {analyzer : Analyzer α} {name path : String} {loaded : Loaded α}
  {tree : FileTree}

/-- A voicebank with nothing of an alias in memory reads the map that is there, whatever it is. -/
theorem run_loadMap_of_isFile (hpath : bank.mapPathTo name = .ok path)
    (hkept : loaded.maps.get? name = none) (hfile : tree.isFile path) :
    ∃ loaded', run (bank.loadMap analyzer name : ExceptT _ (Session α) _).run loaded tree =
      (mapOf tree path, loaded', tree) := by
  have hfill : run (do
      if ← FileAccess.isFile path then readMap path else bank.analyzeMap analyzer name path :
      ExceptT (VoicebankError α) (Session α) _).run
        { loaded with maps := (loaded.maps.claim name).2 } tree =
      (mapOf tree path, { loaded with maps := (loaded.maps.claim name).2 }, tree) := by
    rw [run_bind_except, run_isFile, hfile]
    exact run_readMap
  rw [loadMap, run_bind_except, run_ofExcept, hpath]
  cases hread : (mapOf tree path : Except _ (Frq α)) with
  | error error =>
    rw [hread] at hfill
    exact ⟨_, run_getOrFill_error reaches_maps hkept hfill⟩
  | ok frq =>
    rw [hread] at hfill
    exact ⟨_, run_getOrFill_miss reaches_maps hkept hfill⟩

end Loads

/-- Opens a voicebank and loads a frequency map from it. -/
def loadAfresh [Numeral α] (dir : String) (analyzer : Analyzer α) (name : String) :
    ExceptT (VoicebankError α) (Session α) (Frq α) := do
  (← ofDirectory dir).loadMap analyzer name

variable [Numeral α] {start : FileTree} {bank : Voicebank α} {analyzer : Analyzer α}
  {extension : String} {sample : Sample α} {frq : Frq α}

/-- A voicebank that has just been opened reads the map that is there, whatever it is. -/
theorem run_loadAfresh {tree : FileTree} {dir name path : String}
    (hothers : OnlyMapsDiffer start bank tree) (h : Analysable start bank analyzer extension)
    (hopen : bankOf start dir = .ok bank) (hpath : bank.mapPathTo name = .ok path)
    (hfile : tree.isFile path) :
    ∃ loaded, run (loadAfresh dir analyzer name).run .empty tree =
      (mapOf tree path, loaded, tree) := by
  obtain rfl := dir_of_bankOf hopen
  have hkept : (Loaded.empty : Loaded α).maps.get? name = none := by
    simp [Loaded.empty]
  rw [loadAfresh, run_bind_except, run_ofDirectory, hothers.bankOf_eq h hopen]
  exact run_loadMap_of_isFile hpath hkept hfile

/-- The loads of the aliases of one audio file are interleaved in any way, and any of their writes
may break off. The audio stays as it is, the file of the map holds a beginning of it, and a load
returns the analysis or finds that the file is no frequency map. The latter is what every load from
a voicebank that has just been opened does if the map is torn, and every further load at all if
nobody is about to write the map. And each beginning of the map may be left in this way by a load
that returns the analysis. -/
theorem torn_map_fails_loads {dir name : String}
    (hopen : (run (ofDirectory dir : ExceptT (VoicebankError α) (Session α) _).run .empty start).1 =
      .ok bank)
    (h : Analysable start bank analyzer extension)
    (hpattern : ∀ x : α, BitPattern.ofBits (BitPattern.toBits x) = x)
    (hget : bank.get name = .ok sample)
    (hfrq : analysisOf analyzer start (bank.audioPath sample) = .ok frq) :
    let path := mapPath (bank.audioPath sample)
    (∀ race, Steps path frq ⟨start, []⟩ race →
      analysisOf analyzer race.tree (bank.audioPath sample) = .ok frq ∧
      (∀ result, .returned result ∈ race.loads →
        result = .ok frq ∨ ∃ fault, result = .error (.format fault)) ∧
      ∀ bytes, race.tree.read path = .ok bytes →
        bytes <+: frq.toBytes ∧
        ((bytes = frq.toBytes ∧ mapOf race.tree path = .ok frq) ∨
          (bytes ≠ frq.toBytes ∧
            ∃ fault, (mapOf race.tree path : Except _ (Frq α)) = .error (.format fault))) ∧
        (∀ other, bank.pathTo other = bank.pathTo name →
          ∃ loaded, run (loadAfresh dir analyzer other).run .empty race.tree =
            (mapOf race.tree path, loaded, race.tree)) ∧
        (Settled path race → ∀ later, Steps path frq race later →
          later.tree = race.tree ∧ ReadSince path race later)) ∧
    ∀ written, written <+: frq.toBytes →
      ∃ race, Steps path frq ⟨start, []⟩ race ∧ race.loads = [.returned (.ok frq)] ∧
        race.tree.read path = .ok written ∧ Settled path race := by
  intro path
  have hsample := mem_samples_of_get hget
  rw [run_ofDirectory] at hopen
  obtain ⟨hlocate, hnone, -⟩ := h.locate_map hsample
  obtain ⟨_, hfrq', hframes⟩ := h.analysed sample hsample
  obtain rfl := Except.ok.inj (hfrq.symm.trans hfrq')
  have hstart : Begun start path frq (bank.mapPlace sample) ⟨start, []⟩ :=
    ⟨fun _ _ => rfl, hlocate, .inl hnone, nofun, nofun⟩
  refine ⟨fun race hrace => ?_, fun written hwritten => ?_⟩
  · have hbegun := hstart.steps hpattern hframes hrace
    have hothers : OnlyMapsDiffer start bank race.tree :=
      fun names hnames => hbegun.others names (hnames sample hsample)
    refine ⟨?_, hbegun.returned, fun bytes hread => ?_⟩
    · rw [analysisOf, hothers.audioOf_eq h hsample]
      exact hfrq
    · have hbegins := hbegun.prefix_of_read hread
      refine ⟨hbegins, mapOf_of_beginning hpattern hframes hread hbegins, fun other hother => ?_,
        fun hsettled later hlater => (hsettled.steps hlater).2⟩
      have hpath : bank.mapPathTo other = .ok path := by
        rw [mapPathTo, hother, pathTo, hget]
        rfl
      exact run_loadAfresh hothers h hopen hpath (isFile_iff.mpr ⟨bytes, hread⟩)
  · obtain ⟨tree', hcreate⟩ := h.writable sample hsample
    have hrace := steps_broken_write (h.absent sample hsample) hcreate hwritten
    have hread := read_put_of_create hcreate written
    exact ⟨_, hrace, rfl, hread, isFile_iff.mpr ⟨written, hread⟩, by simp, by simp⟩

/-- A load returns the analysis and leaves a map without its last byte. Then the other alias of the
audio cannot be loaded from a voicebank that has just been opened. -/
theorem incomplete_map_fails_loads :
    ∃ (frq : Frq Double) (race : Race Double) (fault : Frq.Fault) (loaded : Loaded Double),
      analysisOf concertPitch sharedTree "vb/a.wav" = .ok frq ∧
      Steps "vb/a_wav.frq" frq ⟨sharedTree, []⟩ race ∧ race.loads = [.returned (.ok frq)] ∧
      race.tree.read "vb/a_wav.frq" = .ok frq.toBytes.dropLast ∧
      run (loadAfresh "vb" concertPitch "i").run .empty race.tree =
        (.error (.format fault), loaded, race.tree) := by
  obtain ⟨sample, hget⟩ : ∃ sample, sharedBank.get "a" = .ok sample :=
    exists_get_sharedBank (by decide)
  obtain ⟨sample', hget'⟩ : ∃ sample, sharedBank.get "i" = .ok sample :=
    exists_get_sharedBank (by decide)
  obtain ⟨frq, hfrq, -⟩ := analysisOf_sharedTree
  have haudio := (audio_sharedBank (mem_samples_of_get hget)).2
  have haudio' := (audio_sharedBank (mem_samples_of_get hget')).2
  have hmap : mapPath "vb/a.wav" = "vb/a_wav.frq" := by decide
  obtain ⟨hraces, hleft⟩ := torn_map_fails_loads run_ofDirectory_sharedTree
    (analysable_sharedBank analysisOf_sharedTree) (fun _ => rfl) hget (by rw [haudio]; exact hfrq)
  rw [haudio, hmap] at hraces hleft
  obtain ⟨race, hrace, hloads, hread, -⟩ := hleft _ (List.dropLast_prefix frq.toBytes)
  obtain ⟨-, -, hreads⟩ := hraces race hrace
  obtain ⟨-, hmaps, hafresh, -⟩ := hreads _ hread
  have hstrict : frq.toBytes.dropLast ≠ frq.toBytes := by
    intro heq
    have hlength := congrArg List.length heq
    rw [List.length_dropLast, Frq.toBytes, Frq.length_encode, Frq.headerSize] at hlength
    omega
  obtain ⟨-, fault, hfault⟩ := hmaps.resolve_left fun hwhole => hstrict hwhole.1
  obtain ⟨loaded, hrun⟩ := hafresh "i" (by rw [pathTo, pathTo, hget, hget', Except.map, Except.map,
    haudio, haudio'])
  rw [hfault] at hrun
  exact ⟨frq, race, fault, loaded, hfrq, hrace, hloads, hread, hrun⟩

/-- The maps of two aliases of one audio file are loaded at the same time. Both loads do what they
do without any fault, and yet one of them fails, because it finds the file before it is written. -/
theorem concurrent_load_fails :
    ∃ (frq : Frq Double) (race : Race Double),
      sharedBank.mapPathTo "a" = .ok "vb/a_wav.frq" ∧
      sharedBank.mapPathTo "i" = .ok "vb/a_wav.frq" ∧
      analysisOf concertPitch sharedTree "vb/a.wav" = .ok frq ∧
      Steps "vb/a_wav.frq" frq ⟨sharedTree, []⟩ race ∧
      race.tree.read "vb/a_wav.frq" = .ok frq.toBytes ∧
      race.loads = [.returned (.ok frq), .returned (.error (.format (.truncatedHeader 0)))] := by
  have hmap : mapPath "vb/a.wav" = "vb/a_wav.frq" := by decide
  have hpath : ∀ name ∈ ["a", "i"], sharedBank.mapPathTo name = .ok "vb/a_wav.frq" := by
    intro name hname
    obtain ⟨sample, hget⟩ := exists_get_sharedBank hname
    rw [mapPathTo, pathTo, hget, Except.map, Except.map,
      (audio_sharedBank (mem_samples_of_get hget)).2, hmap]
  obtain ⟨frq, hfrq, -⟩ := analysisOf_sharedTree
  obtain ⟨hlocate, hnone⟩ := locate_sharedTree_map
  have habsent : sharedTree.isFile "vb/a_wav.frq" = false := by
    rw [isFile, hlocate]
    simp only [hnone]
  have hcreate := create_eq_ok.mpr
    ⟨_, hlocate, ne_directory_of_eq_none hnone, entry?_sharedTree_dir, rfl⟩
  obtain ⟨hlocate', hempty⟩ := entry?_of_create hcreate
  have hread := read_eq_ok.mpr ⟨_, hlocate', hempty⟩
  refine ⟨frq, _, hpath "a" (by decide), hpath "i" (by decide), hfrq,
    steps_overlapping habsent hcreate (isFile_iff.mpr ⟨_, hread⟩),
    read_put_of_create hcreate frq.toBytes, ?_⟩
  rw [mapOf, hread]
  rfl

end SingingVoice.Voicebank
