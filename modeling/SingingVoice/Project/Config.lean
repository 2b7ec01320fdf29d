import SingingVoice.Engine
import SingingVoice.Value.Basic
import SingingVoice.Yaml.Reading
import SingingVoice.Yaml.Render

/-!
# Settings of a project

The settings say where the voicebank is and how to render. They are read from a document, in which
every entry may be absent, and are valid if the sample rate and the number of workers are positive
and the crossfade is a finite number that is not negative.

There are two ways to read settings. By themselves they are read from the scalars as they are
written (`Config.ofNode`), so any scalar may stand for a text, but only a decimal numeral for the
crossfade. In a project they are read from what the scalars mean (`Config.ofValues?`).
-/

namespace SingingVoice

/-- The settings of a project. -/
structure Config (α : Type) where
  /-- The name of the project. -/
  name : String
  /-- Who made it. -/
  author : String
  /-- The directory of the voicebank. -/
  voicebank : String
  /-- The sample rate of the result. -/
  sampleRate : UInt32
  /-- How many notes are rendered at once. -/
  workers : UInt64
  /-- How vowels are stretched. -/
  stretch : StretchMode
  /-- The time over which a consonant blends into its vowel, in milliseconds. -/
  crossfade : α
deriving BEq, DecidableEq, Repr

namespace Config

/-- The entries of settings. -/
inductive Field where
  | name
  | author
  | voicebank
  | sampleRate
  | workers
  | stretch
  | crossfade
deriving DecidableEq, Repr

namespace Field

/-- The name of an entry in documents. -/
def key : Field → String
  | name => "name"
  | author => "author"
  | voicebank => "voicebank"
  | sampleRate => "sample_rate"
  | workers => "workers"
  | stretch => "stretch"
  | crossfade => "crossfade_ms"

/-- All entries. -/
def all : List Field :=
  [name, author, voicebank, sampleRate, workers, stretch, crossfade]

/-- The entry with a name. -/
def ofKey? (key : String) : Option Field :=
  all.find? fun field => field.key = key

end Field

/-- The names of the ways to stretch. -/
def modeName : StretchMode → String
  | .loop => "loop"
  | .ola => "ola"

/-- The ways to stretch, in their order. -/
def modes : List StretchMode :=
  [.loop, .ola]

/-- The way to stretch with a name. -/
def modeOfName? (name : String) : Option StretchMode :=
  modes.find? fun mode => modeName mode = name

variable {α : Type}

/-- The settings where none are given, with a number of workers. -/
def standard [Scalar α] (workers : UInt64) : Config α where
  name := ""
  author := ""
  voicebank := ""
  sampleRate := 44100
  workers := workers
  stretch := .ola
  crossfade := 0.0

/-- Checks the settings; the first entry that is not valid is reported. -/
def validate [Scalar α] (config : Config α) : Except (ConfigFault α) Unit :=
  if config.sampleRate = 0 then .error .zeroSampleRate
  else if config.workers = 0 then .error .zeroWorkers
  else if !Scalar.isFinite config.crossfade ∨ config.crossfade < 0.0 then
    .error (.badCrossfade config.crossfade)
  else .ok ()

/-- The format of the result: one channel at the sample rate. -/
def format (config : Config α) : Format :=
  .mono config.sampleRate.toNat

/-- The settings of the standard engine. -/
def engineSettings [Scalar α] (config : Config α) : Engine.Settings α :=
  .ofMode config.stretch

/-- The settings with the voicebank seen from the directory of a file. -/
def resolvePaths (config : Config α) (file : String) : Config α :=
  match Path.parent? file with
  | none => config
  | some dir =>
    if Path.isRelative config.voicebank then
      { config with voicebank := Path.join dir config.voicebank }
    else config

/-! ## Writing -/

/-- The entry of a text that is left out when it is empty. -/
def textEntry (field : Field) (text : String) : List (String × Value) :=
  if text.isEmpty then [] else [(field.key, .text text)]

/-- The entries of the settings. -/
def entries [Numeral α] (config : Config α) : List (String × Value) :=
  textEntry .name config.name ++ textEntry .author config.author ++
    [(Field.voicebank.key, .text config.voicebank),
     (Field.sampleRate.key, .nat config.sampleRate.toNat),
     (Field.workers.key, .nat config.workers.toNat),
     (Field.stretch.key, .text (modeName config.stretch)),
     (Field.crossfade.key, .ofNumeral config.crossfade)]

/-- The settings as a value. -/
def toValue [Numeral α] (config : Config α) : Value :=
  .record config.entries

/-- The settings as a document. -/
def toYaml [Numeral α] (config : Config α) : String :=
  config.toValue.yaml

/-! ## Reading -/

/-- How entries are read from a source. -/
structure Leaves (m : Type → Type) (σ : Type) (α : Type) where
  /-- A text. -/
  text : σ → m String
  /-- A natural number below a bound. -/
  natBelow : Nat → σ → m Nat
  /-- A number. -/
  number : σ → m α
  /-- A way to stretch. -/
  mode : σ → m StretchMode

/-- The settings with an entry that is read from a source. -/
def readField {m : Type → Type} [Monad m] {σ : Type} (leaves : Leaves m σ α) (config : Config α)
    (field : Field) (source : σ) : m (Config α) := do
  match field with
  | .name => return { config with name := ← leaves.text source }
  | .author => return { config with author := ← leaves.text source }
  | .voicebank => return { config with voicebank := ← leaves.text source }
  | .sampleRate =>
    return { config with sampleRate := .ofNat (← leaves.natBelow UInt32.size source) }
  | .workers => return { config with workers := .ofNat (← leaves.natBelow UInt64.size source) }
  | .stretch => return { config with stretch := ← leaves.mode source }
  | .crossfade => return { config with crossfade := ← leaves.number source }

/-- The settings with entries that are read from their sources. -/
def readFields {m : Type → Type} [Monad m] {σ : Type} (leaves : Leaves m σ α) (config : Config α)
    (fields : List (Field × σ)) : m (Config α) :=
  fields.foldlM (fun config (field, source) => config.readField leaves field source) config

/-- The entries that are settings, each of which may stand only once. Other entries are ignored. -/
def fields? {σ : Type} (entries : List (String × σ)) : Option (List (Field × σ)) :=
  let fields := entries.filterMap fun (key, source) => (Field.ofKey? key).map fun field =>
    (field, source)
  if (fields.map Prod.fst).Nodup then some fields else none

/-- Settings from scalars as they are written. -/
def nodeLeaves [Numeral α] : Leaves Yaml.Reading Yaml.Node α where
  text := Yaml.Node.text
  natBelow := Yaml.Node.natBelow
  number node := Numeral.ofDecimal <$> node.float
  mode node := do modeOfName? (← node.word)

/-- The way to stretch that a value names: a text, or a map with the name or the place of the way as
its only key and with nothing as the value. -/
def modeOfValue? : Value → Option StretchMode
  | .text name => modeOfName? name
  | .map [(.text name, .null)] | .map [(.text name, .map [])] => modeOfName? name
  | .map [(.nat place, .null)] | .map [(.nat place, .map [])] => modes[place]?
  | _ => none

/-- Settings from values. -/
def valueLeaves [Numeral α] : Leaves Option Value α where
  text := Value.text?
  natBelow := Value.natBelow?
  number := Value.numeral?
  mode := modeOfValue?

/-- The keys of entries as they are written. -/
def withTextKeys {σ : Type} (entries : List (Yaml.Node × σ)) : Yaml.Reading (List (String × σ)) :=
  entries.mapM fun (key, value) => return (← key.text, value)

/-- Reads the settings in the root of a document. -/
def ofNode [Numeral α] (default : Config α) (node : Yaml.Node) : Yaml.Reading (Config α) := do
  readFields nodeLeaves default (← fields? (← withTextKeys (← node.entries)))

/-- Reads the settings among the entries of a project. -/
def ofValues? [Numeral α] (default : Config α) (entries : List (String × Value)) :
    Option (Config α) := do
  readFields valueLeaves default (← fields? entries)

/-- Reads and checks settings in a document. -/
def ofYaml [Scalar α] [Numeral α] (default : Config α) (text : String) :
    Except (RenderError α) (Config α) := do
  match (Yaml.Document.ofText? text).bind fun doc => doc.read? (ofNode default doc.root) with
  | none => throw .malformed
  | some config =>
    config.validate.mapError .config
    return config

end Config

end SingingVoice
