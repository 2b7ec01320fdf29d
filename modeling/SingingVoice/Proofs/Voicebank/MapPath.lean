import SingingVoice.Proofs.FileTree.Places
import SingingVoice.Voicebank.Basic

/-!
# Where frequency maps are stored

The frequency map of an audio file lies in the directory of the audio, under a name that still tells
the name of the audio and its extension. So audio files with one extension never share a map
(`place_eq_of_mapPath`), and a map is no file with an extension other than its own
(`place_ne_mapPath`).
-/

namespace SingingVoice

/-! ## Extensions -/

namespace Path

variable {name stem ext : String}

/-- What follows the last point is the extension, unless nothing stands before the point. -/
theorem splitExtension_append (hstem : stem ≠ "") (hext : '.' ∉ ext.toList) :
    splitExtension (stem ++ "." ++ ext) = (stem, some ext) := by
  have hall : ∀ c ∈ ext.toList.reverse, decide (c ≠ '.') = true := fun c hc =>
    decide_eq_true (fun heq => hext (heq ▸ List.mem_reverse.mp hc))
  have htext : (stem ++ "." ++ ext).toList.reverse =
      ext.toList.reverse ++ '.' :: stem.toList.reverse := by
    simp
  have hempty : stem.toList.reverse.isEmpty = false := by
    simpa using hstem
  simp only [splitExtension, htext, List.takeWhile_append_of_pos hall,
    List.dropWhile_append_of_pos hall]
  simp [hempty]

/-- A name with an extension is its stem, a point and the extension. -/
theorem eq_of_splitExtension (hsplit : splitExtension name = (stem, some ext)) :
    name = stem ++ "." ++ ext := by
  simp only [splitExtension] at hsplit
  split at hsplit
  case h_1 rest hrest =>
    split at hsplit
    case isTrue => cases hsplit
    case isFalse =>
      cases hsplit
      have hname := List.takeWhile_append_dropWhile (p := (· ≠ '.')) (l := name.toList.reverse)
      rw [hrest] at hname
      apply String.toList_inj.mp
      rw [← List.reverse_inj]
      refine hname.symm.trans ?_
      simp
  case h_2 => cases hsplit

theorem exists_splitExtension {path file : String} (hpath : FileTree.EndsIn path file)
    (hext : extension? path = some ext) : ∃ stem, splitExtension file = (stem, some ext) := by
  rw [extension?, hpath.fileName?, Option.bind_some] at hext
  exact ⟨(splitExtension file).1, Prod.ext rfl hext⟩

end Path

/-! ## Names of frequency maps -/

namespace Voicebank

open FileTree

variable {path path' file file' name stem ext : String}

/-- The name of the frequency map that belongs to an audio file. -/
def mapName (stem ext : String) : String :=
  stem ++ "_" ++ ext ++ ".frq"

/-- Frequency maps have an extension of their own. -/
theorem splitExtension_mapName (stem ext : String) :
    Path.splitExtension (mapName stem ext) = (stem ++ "_" ++ ext, some "frq") := by
  have hstem : stem ++ "_" ++ ext ≠ "" := fun heq => by
    have hlength := congrArg String.length heq
    simp at hlength
  have hname : mapName stem ext = (stem ++ "_" ++ ext) ++ "." ++ "frq" := by
    have hfrq : ".frq" = "." ++ "frq" := by decide
    rw [mapName, hfrq, ← String.append_assoc]
  rw [hname]
  exact Path.splitExtension_append hstem (by decide)

theorem isName_mapName (stem ext : String) : IsName (mapName stem ext) := by
  have hlength : 4 < (mapName stem ext).length := by
    have hfrq : ".frq".length = 4 := by decide
    have hline : "_".length = 1 := by decide
    rw [mapName, String.length_append, String.length_append, String.length_append, hfrq, hline]
    omega
  constructor
  · rintro heq; rw [heq] at hlength; exact absurd hlength (by decide)
  · rintro heq; rw [heq] at hlength; exact absurd hlength (by decide)
  · rintro heq; rw [heq] at hlength; exact absurd hlength (by decide)

/-- The map of an audio file lies in the directory of the audio. -/
theorem place_mapPath (hpath : EndsIn path file)
    (hsplit : Path.splitExtension file = (stem, some ext)) :
    place (mapPath path) = (place path).dropLast ++ [mapName stem ext] := by
  have hslash : '/' ∉ (mapName stem ext).toList := by
    have hfile := hpath.exists_front.1
    rw [Path.eq_of_splitExtension hsplit] at hfile
    simp only [String.toList_append, List.mem_append, not_or] at hfile
    simp [mapName, hfile]
  rw [← hpath.place_withFileName (isName_mapName stem ext) hslash, mapPath, Path.stem?,
    Path.extension?, hpath.fileName?]
  simp only [Option.map_some, Option.bind_some, hsplit, Option.getD_some]
  rfl

/-- A file with another extension is no frequency map. -/
theorem place_ne_mapPath {other : String} (hother : EndsIn other name)
    (hname : Path.extension? other ≠ some "frq") (hpath : EndsIn path file)
    (hext : Path.extension? path = some ext) : place other ≠ place (mapPath path) := by
  intro heq
  obtain ⟨stem, hsplit⟩ := Path.exists_splitExtension hpath hext
  obtain ⟨parent, -, hplace⟩ := hother.exists_parent
  rw [hplace, place_mapPath hpath hsplit] at heq
  obtain rfl : name = mapName stem ext := (List.append_inj' heq rfl).2 |> List.singleton_inj.mp
  rw [Path.extension?, hother.fileName?, Option.bind_some, splitExtension_mapName] at hname
  exact hname rfl

/-- Audio files with one extension that share a frequency map are one file. -/
theorem place_eq_of_mapPath (hpath : EndsIn path file) (hpath' : EndsIn path' file')
    (hext : Path.extension? path = some ext) (hext' : Path.extension? path' = some ext)
    (heq : place (mapPath path) = place (mapPath path')) : place path = place path' := by
  obtain ⟨stem, hsplit⟩ := Path.exists_splitExtension hpath hext
  obtain ⟨stem', hsplit'⟩ := Path.exists_splitExtension hpath' hext'
  obtain ⟨parent, -, hplace⟩ := hpath.exists_parent
  obtain ⟨parent', -, hplace'⟩ := hpath'.exists_parent
  rw [place_mapPath hpath hsplit, place_mapPath hpath' hsplit', hplace, hplace',
    List.dropLast_concat, List.dropLast_concat] at heq
  obtain ⟨hparent, hmap⟩ := List.append_inj' heq rfl
  have hstem : stem = stem' := by
    have hmap := String.toList_inj.mpr (List.singleton_inj.mp hmap)
    simp only [mapName, String.toList_append, List.append_cancel_right_eq] at hmap
    exact String.toList_inj.mp hmap
  rw [hplace, hplace', hparent, Path.eq_of_splitExtension hsplit,
    Path.eq_of_splitExtension hsplit', hstem]

end Voicebank

end SingingVoice
