import Mathlib
import SingingVoice.Voicebank.Basic

/-!
# Looking samples up by their aliases

A voicebank keeps its samples in a row and an index from aliases to places in it. The two agree
whatever samples are added (`Indexed`, `indexed_insert`), so a voicebank made of a list of samples
gives for each alias the last sample of the list that has it, and has the aliases in the order in
which they first occur in the list (`samples_found_by_alias`).
-/

namespace SingingVoice.Voicebank

variable {α : Type} {bank : Voicebank α} {samples : List (Sample α)} {sample : Sample α}
  {name : String}

/-! ## The index -/

/-- The index of a voicebank has the aliases of its samples, each with its place. -/
structure Indexed (bank : Voicebank α) : Prop where
  index_iff : ∀ (name : String) (place : Nat),
    bank.index[name]? = some place ↔ bank.names[place]? = some name

/-- The alias at a place is that of the sample there. -/
theorem getElem?_names (bank : Voicebank α) (place : Nat) :
    bank.names[place]? = bank.samples[place]?.map Sample.name := by
  simp [names]

/-- There are as many aliases as samples. -/
theorem length_names (bank : Voicebank α) : bank.names.length = bank.size := by
  simp [names, size]

/-- No alias occurs twice, as the index has one place for each. -/
theorem Indexed.nodup (h : Indexed bank) : bank.names.Nodup := by
  rw [List.nodup_iff_injective_get]
  intro first second hsame
  have hfirst := (h.index_iff (bank.names.get first) first).mpr
    (List.getElem?_eq_getElem first.isLt)
  have hsecond := (h.index_iff (bank.names.get second) second).mpr
    (List.getElem?_eq_getElem second.isLt)
  rw [hsame, hsecond] at hfirst
  exact Fin.ext (Option.some.inj hfirst).symm

/-- The voicebank contains the aliases of its samples. -/
theorem Indexed.contains_iff (h : Indexed bank) :
    bank.contains name = true ↔ name ∈ bank.names := by
  rw [contains, Std.HashMap.contains_eq_isSome_getElem?, Option.isSome_iff_exists,
    List.mem_iff_getElem?]
  simp only [h.index_iff]

/-- The sample that is found by an alias is the one that has it. -/
theorem Indexed.find?_eq_some_iff (h : Indexed bank) :
    bank.find? name = some sample ↔ sample ∈ bank.samples ∧ sample.name = name := by
  rw [find?, Option.bind_eq_some_iff, Array.mem_iff_getElem?]
  constructor
  · rintro ⟨place, hplace, hsample⟩
    rw [h.index_iff, getElem?_names, hsample] at hplace
    exact ⟨⟨place, hsample⟩, Option.some.inj hplace⟩
  · rintro ⟨⟨place, hsample⟩, rfl⟩
    refine ⟨place, ?_, hsample⟩
    rw [h.index_iff, getElem?_names, hsample]
    rfl

/-! ## Adding a sample -/

/-- A sample takes the place of the one with its alias, or is put behind the others if there is
none. -/
theorem Indexed.insert_cases (h : Indexed bank) (sample : Sample α) :
    (∃ place, bank.names[place]? = some sample.name ∧
      bank.insert sample = { bank with samples := bank.samples.setIfInBounds place sample }) ∨
    (sample.name ∉ bank.names ∧
      bank.insert sample = ⟨bank.dir, bank.samples.push sample,
        bank.index.insert sample.name bank.samples.size⟩) := by
  rw [insert]
  cases hindex : bank.index[sample.name]? with
  | some place => exact .inl ⟨place, (h.index_iff _ _).mp hindex, rfl⟩
  | none =>
    refine .inr ⟨fun hmem => ?_, rfl⟩
    obtain ⟨place, hplace⟩ := List.mem_iff_getElem?.mp hmem
    rw [← h.index_iff, hindex] at hplace
    cases hplace

/-- A known alias keeps its place. -/
theorem names_replace {place : Nat} (hplace : bank.names[place]? = some sample.name) :
    (bank.samples.setIfInBounds place sample).toList.map Sample.name = bank.names := by
  obtain ⟨hlt, hname⟩ := List.getElem?_eq_some_iff.mp hplace
  rw [Array.toList_setIfInBounds, List.map_set, ← hname]
  exact List.set_getElem_self hlt

/-- A new alias is put behind the others, and a known one leaves the aliases as they are. -/
theorem Indexed.names_insert (h : Indexed bank) (sample : Sample α) :
    (bank.insert sample).names =
      if sample.name ∈ bank.names then bank.names else bank.names ++ [sample.name] := by
  rcases h.insert_cases sample with ⟨place, hplace, hinsert⟩ | ⟨hnew, hinsert⟩
  · rw [hinsert, if_pos (List.mem_of_getElem? hplace)]
    exact names_replace hplace
  · rw [hinsert, if_neg hnew]
    simp [names]

/-- The index stays right when a sample is added. -/
theorem Indexed.insert (h : Indexed bank) (sample : Sample α) : Indexed (bank.insert sample) where
  index_iff name place := by
    rw [h.names_insert]
    rcases h.insert_cases sample with ⟨place', hplace', hinsert⟩ | ⟨hnew, hinsert⟩
    · rw [hinsert, if_pos (List.mem_of_getElem? hplace')]
      exact h.index_iff name place
    · rw [hinsert, if_neg hnew]
      show (bank.index.insert sample.name bank.samples.size)[name]? = some place ↔ _
      have hlength : bank.names.length = bank.samples.size := length_names bank
      rw [Std.HashMap.getElem?_insert, List.getElem?_append, hlength]
      by_cases hname : sample.name = name
      · subst hname
        have hnowhere : bank.names[place]? ≠ some sample.name :=
          fun hold => hnew (List.mem_of_getElem? hold)
        grind
      · have hlast : [sample.name][place - bank.samples.size]? ≠ some name := by grind
        have hbehind := h.index_iff name place
        grind

/-- The sample that has been added is among the samples. -/
theorem Indexed.mem_insert (h : Indexed bank) (sample : Sample α) :
    sample ∈ (bank.insert sample).samples := by
  rcases h.insert_cases sample with ⟨place, hplace, hinsert⟩ | ⟨-, hinsert⟩
  · have hlt : place < bank.samples.size := by
      rw [← size, ← length_names]
      exact (List.getElem?_eq_some_iff.mp hplace).1
    rw [hinsert]
    exact Array.mem_setIfInBounds hlt
  · rw [hinsert]
    exact Array.mem_push_self

/-- Samples with other aliases stay where they are. -/
theorem Indexed.mem_insert_iff (h : Indexed bank) {other : Sample α}
    (hother : other.name ≠ sample.name) :
    other ∈ (bank.insert sample).samples ↔ other ∈ bank.samples := by
  have hne : other ≠ sample := fun heq => hother (congrArg Sample.name heq)
  rcases h.insert_cases sample with ⟨place, hplace, hinsert⟩ | ⟨-, hinsert⟩
  · rw [getElem?_names] at hplace
    rw [hinsert, Array.mem_iff_getElem?, Array.mem_iff_getElem?]
    -- what is written over has the alias of the sample
    refine exists_congr fun place' => ?_
    show (bank.samples.setIfInBounds place sample)[place']? = some other ↔ _
    rw [Array.getElem?_setIfInBounds]
    split_ifs <;> grind
  · rw [hinsert]
    exact Array.mem_push.trans (or_iff_left hne)

/-- After a sample is added its alias finds it, and other aliases find what they found. -/
theorem Indexed.find?_insert (h : Indexed bank) (sample : Sample α) (name : String) :
    (bank.insert sample).find? name =
      if sample.name = name then some sample else bank.find? name := by
  split_ifs with hname
  · exact (h.insert sample).find?_eq_some_iff.mpr ⟨h.mem_insert sample, hname⟩
  · refine Option.ext fun other => ?_
    rw [(h.insert sample).find?_eq_some_iff, h.find?_eq_some_iff]
    refine and_congr_left fun hother => h.mem_insert_iff ?_
    rw [hother]
    exact Ne.symm hname

/-! ## Voicebanks of lists of samples -/

/-- A voicebank without samples has nothing in its index. -/
theorem indexed_empty (dir : String) : Indexed (empty dir : Voicebank α) where
  index_iff name place := by
    simp [empty, names]

/-- The voicebank of one sample more. -/
theorem ofSamples_concat (dir : String) (samples : List (Sample α)) (sample : Sample α) :
    ofSamples dir (samples ++ [sample]) = (ofSamples dir samples).insert sample :=
  List.foldl_concat insert (empty dir) sample samples

/-- The index of a voicebank of samples is right. -/
theorem indexed_ofSamples (dir : String) (samples : List (Sample α)) :
    Indexed (ofSamples dir samples) := by
  induction samples using List.reverseRecOn with
  | nil => exact indexed_empty dir
  | append_singleton samples sample ih =>
    rw [ofSamples_concat]
    exact ih.insert sample

/-- The aliases are in the order in which they first occur. -/
theorem names_ofSamples (dir : String) (samples : List (Sample α)) :
    (ofSamples dir samples).names = (samples.map Sample.name).eraseDups := by
  induction samples using List.reverseRecOn with
  | nil => rfl
  | append_singleton samples sample ih =>
    rw [ofSamples_concat, (indexed_ofSamples dir samples).names_insert, ih, List.map_append,
      List.eraseDups_append]
    show _ = _ ++ (List.removeAll [sample.name] (samples.map Sample.name)).eraseDups
    generalize samples.map Sample.name = aliases
    by_cases hold : sample.name ∈ aliases <;> simp [List.removeAll, List.eraseDups_cons, hold]

/-- An alias finds the last sample that has it. -/
theorem find?_ofSamples (dir : String) (samples : List (Sample α)) (name : String) :
    (ofSamples dir samples).find? name =
      samples.reverse.find? fun sample => sample.name = name := by
  induction samples using List.reverseRecOn with
  | nil => simp [ofSamples, find?, empty]
  | append_singleton samples sample ih =>
    rw [ofSamples_concat, (indexed_ofSamples dir samples).find?_insert, ih, List.reverse_append]
    by_cases hname : sample.name = name <;> simp [hname]

/-- The last sample of a list with an alias is one that no other with this alias follows. -/
theorem find?_reverse_eq_some_iff :
    (samples.reverse.find? fun sample => sample.name = name) = some sample ↔
      ∃ before after, samples = before ++ sample :: after ∧ sample.name = name ∧
        ∀ other ∈ after, other.name ≠ name := by
  rw [List.find?_eq_some_iff_append]
  constructor
  · rintro ⟨hname, after, before, hsplit, hother⟩
    refine ⟨before.reverse, after.reverse, ?_, by simpa using hname, by simpa using hother⟩
    rw [← List.reverse_reverse samples, hsplit]
    simp
  · rintro ⟨before, after, rfl, hname, hother⟩
    exact ⟨by simpa using hname, after.reverse, before.reverse, by simp, by simpa using hother⟩

/-- An alias gets the sample that it finds. -/
theorem get_eq_ok_iff : bank.get name = .ok sample ↔ bank.find? name = some sample := by
  rw [get]
  cases bank.find? name <;> simp

/-- An alias that finds nothing gets the error that it is not there. -/
theorem get_eq_error_iff {error : VoicebankError α} :
    bank.get name = .error error ↔ error = .notFound name ∧ bank.find? name = none := by
  rw [get]
  cases bank.find? name <;> simp [eq_comm]

/-- What a list of samples says of the voicebank made of it. -/
structure OfList (samples : List (Sample α)) (bank : Voicebank α) : Prop where
  /-- No two samples have one alias. -/
  distinct : bank.names.Nodup
  /-- The index has exactly the aliases of the samples, each with the place of its sample. -/
  index_iff : ∀ (name : String) (place : Nat), bank.index[name]? = some place ↔
    ∃ sample, bank.samples[place]? = some sample ∧ sample.name = name
  /-- The aliases are in the order in which they first occur in the list. -/
  order : bank.names = (samples.map Sample.name).eraseDups
  /-- An alias gets the last sample of the list that has it. -/
  get_ok_iff : ∀ (name : String) (sample : Sample α), bank.get name = .ok sample ↔
    ∃ before after, samples = before ++ sample :: after ∧ sample.name = name ∧
      ∀ other ∈ after, other.name ≠ name
  /-- The samples of the voicebank are those that their aliases get. -/
  mem_iff : ∀ sample, sample ∈ bank.samples ↔ bank.get sample.name = .ok sample
  /-- The only error is that there is no sample with an alias, and it is that of the aliases that
  are not in the list. -/
  get_error_iff : ∀ (name : String) (error : VoicebankError α), bank.get name = .error error ↔
    error = .notFound name ∧ ∀ sample ∈ samples, sample.name ≠ name
  /-- An alias is contained exactly if it gets a sample. -/
  contains_iff : ∀ name : String, bank.contains name = true ↔ ∃ sample, bank.get name = .ok sample
  /-- There are as many samples as different aliases. -/
  size : bank.size = (samples.map Sample.name).toFinset.card

/-- A voicebank made of a list of samples has the aliases that occur in the list, each once and in
the order of their first occurrences, and each gets the last sample of the list that has it. The
index has the places of the samples, and the only error is that an alias does not occur in the
list. -/
theorem samples_found_by_alias (dir : String) (samples : List (Sample α)) :
    OfList samples (ofSamples dir samples) where
  distinct := (indexed_ofSamples dir samples).nodup
  index_iff name place := by
    rw [(indexed_ofSamples dir samples).index_iff, getElem?_names, Option.map_eq_some_iff]
  order := names_ofSamples dir samples
  get_ok_iff name sample := by
    rw [get_eq_ok_iff, find?_ofSamples, find?_reverse_eq_some_iff]
  mem_iff sample := by
    rw [get_eq_ok_iff, (indexed_ofSamples dir samples).find?_eq_some_iff, and_iff_left rfl]
  get_error_iff name error := by
    rw [get_eq_error_iff, find?_ofSamples, List.find?_eq_none]
    simp
  contains_iff name := by
    have hindexed := indexed_ofSamples dir samples
    rw [hindexed.contains_iff]
    simp only [get_eq_ok_iff, hindexed.find?_eq_some_iff]
    simp [names]
  size := by
    have hnodup := (indexed_ofSamples dir samples).nodup
    rw [← length_names, ← List.toFinset_card_of_nodup hnodup, names_ofSamples]
    congr 1
    ext name
    simp

end SingingVoice.Voicebank
