import SingingVoice.Voicebank.Config
import Std.Data.HashMap

/-!
# Voicebanks

A voicebank is a directory of recorded samples, looked up by their aliases. Among samples with one
alias the last wins and takes the place of the first.
-/

namespace SingingVoice

/-- The samples of a directory, with an index from aliases to their places. -/
structure Voicebank (α : Type) where
  /-- The directory of the audio files. -/
  dir : String
  /-- The samples, in the order in which their aliases first occurred. -/
  samples : Array (Sample α)
  /-- The place of the sample with an alias. -/
  index : Std.HashMap String Nat

namespace Voicebank

variable {α : Type}

/-- The name of the sample configuration in the directory of a voicebank. -/
def configFile : String :=
  "oto.ini"

/-- The voicebank without samples. -/
def empty (dir : String) : Voicebank α :=
  ⟨dir, #[], ∅⟩

/-- Adds a sample, in place of one with the same alias if there is one. -/
def insert (bank : Voicebank α) (sample : Sample α) : Voicebank α :=
  match bank.index[sample.name]? with
  | some place => { bank with samples := bank.samples.setIfInBounds place sample }
  | none =>
    { bank with
      samples := bank.samples.push sample
      index := bank.index.insert sample.name bank.samples.size }

/-- The voicebank of the given samples. -/
def ofSamples (dir : String) (samples : List (Sample α)) : Voicebank α :=
  samples.foldl insert (empty dir)

/-- The sample with an alias, if there is one. -/
def find? (bank : Voicebank α) (name : String) : Option (Sample α) :=
  bank.index[name]?.bind fun place => bank.samples[place]?

/-- The sample with an alias. -/
def get (bank : Voicebank α) (name : String) : Except (VoicebankError α) (Sample α) :=
  match bank.find? name with
  | some sample => .ok sample
  | none => .error (.notFound name)

/-- Whether there is a sample with an alias. -/
def contains (bank : Voicebank α) (name : String) : Bool :=
  bank.index.contains name

/-- The number of samples. -/
def size (bank : Voicebank α) : Nat :=
  bank.samples.size

/-- Whether there are no samples. -/
def isEmpty (bank : Voicebank α) : Bool :=
  bank.samples.isEmpty

/-- The aliases, in the order of the samples. -/
def names (bank : Voicebank α) : List String :=
  bank.samples.toList.map Sample.name

/-- The path of the audio of a sample. -/
def audioPath (bank : Voicebank α) (sample : Sample α) : String :=
  Path.join bank.dir sample.file

/-- The path of the frequency map that belongs to an audio file: the extension becomes part of the
name, so `a.wav` has its map in `a_wav.frq`. -/
def mapPath (audio : String) : String :=
  let stem := (Path.stem? audio).getD ""
  let name := match Path.extension? audio with
    | some extension => stem ++ "_" ++ extension ++ ".frq"
    | none => stem ++ ".frq"
  Path.withFileName audio name

/-- The path of the audio of an alias. -/
def pathTo (bank : Voicebank α) (name : String) : Except (VoicebankError α) String :=
  (bank.get name).map bank.audioPath

/-- The path of the frequency map of an alias. -/
def mapPathTo (bank : Voicebank α) (name : String) : Except (VoicebankError α) String :=
  (bank.pathTo name).map mapPath

end Voicebank

end SingingVoice
