import SingingVoice.Cache
import SingingVoice.Decimal.Basic
import SingingVoice.Decimal.Binary64
import SingingVoice.Decimal.Numeral
import SingingVoice.Double
import SingingVoice.Engine
import SingingVoice.FileTree
import SingingVoice.Format
import SingingVoice.Frq.Basic
import SingingVoice.Frq.Codec
import SingingVoice.Note.Basic
import SingingVoice.Note.Value
import SingingVoice.Path
import SingingVoice.Pitch
import SingingVoice.PitchShift
import SingingVoice.Project.Basic
import SingingVoice.Project.Config
import SingingVoice.Project.File
import SingingVoice.Proofs.Cache.Callers
import SingingVoice.Proofs.Cache.FillOnce
import SingingVoice.Proofs.Cache.Slots
import SingingVoice.Proofs.Decimal.Alphabet
import SingingVoice.Proofs.Decimal.Nearest
import SingingVoice.Proofs.Decimal.Ratio
import SingingVoice.Proofs.Decimal.Shortest
import SingingVoice.Proofs.Decimal.Text
import SingingVoice.Proofs.Determinism
import SingingVoice.Proofs.Exact.Duration
import SingingVoice.Proofs.Exact.Scalar
import SingingVoice.Proofs.FileTree.Places
import SingingVoice.Proofs.FileTree.Writing
import SingingVoice.Proofs.Frq.Acceptance
import SingingVoice.Proofs.Frq.Average
import SingingVoice.Proofs.Frq.Coverage
import SingingVoice.Proofs.Frq.Layout
import SingingVoice.Proofs.Frq.RoundTrip
import SingingVoice.Proofs.NoteNames
import SingingVoice.Proofs.PitchShift
import SingingVoice.Proofs.Project.Directory
import SingingVoice.Proofs.Project.Document
import SingingVoice.Proofs.Project.Reloading
import SingingVoice.Proofs.Project.Rendering
import SingingVoice.Proofs.Project.Settings
import SingingVoice.Proofs.Project.Tracks
import SingingVoice.Proofs.Render.Consonant
import SingingVoice.Proofs.Render.Crossfade
import SingingVoice.Proofs.Render.Failure
import SingingVoice.Proofs.Render.Lengths
import SingingVoice.Proofs.Render.Longer
import SingingVoice.Proofs.Render.Lookahead
import SingingVoice.Proofs.Render.Notes
import SingingVoice.Proofs.Render.Shapes
import SingingVoice.Proofs.Render.Splice
import SingingVoice.Proofs.Render.Timeline
import SingingVoice.Proofs.Resampling.Calls
import SingingVoice.Proofs.Resampling.Channels
import SingingVoice.Proofs.Resampling.Conversion
import SingingVoice.Proofs.Resampling.Interleaving
import SingingVoice.Proofs.Result
import SingingVoice.Proofs.Segment.Attenuation
import SingingVoice.Proofs.Segment.Conformity
import SingingVoice.Proofs.Segment.Crossfading
import SingingVoice.Proofs.Segment.Export
import SingingVoice.Proofs.Segment.Frames
import SingingVoice.Proofs.Segment.Joined
import SingingVoice.Proofs.Segment.Layouts
import SingingVoice.Proofs.Segment.Milliseconds
import SingingVoice.Proofs.Segment.Mixdown
import SingingVoice.Proofs.Segment.Mixing
import SingingVoice.Proofs.Segment.Overlays
import SingingVoice.Proofs.Segment.Parts
import SingingVoice.Proofs.Segment.Positions
import SingingVoice.Proofs.Segment.Reexport
import SingingVoice.Proofs.Segment.Regions
import SingingVoice.Proofs.Segment.Seams
import SingingVoice.Proofs.Segment.Sizes
import SingingVoice.Proofs.Segment.Wholeness
import SingingVoice.Proofs.Segment.Windows
import SingingVoice.Proofs.Stretch.Average
import SingingVoice.Proofs.Stretch.Durations
import SingingVoice.Proofs.Text.Line
import SingingVoice.Proofs.Voicebank.Aliases
import SingingVoice.Proofs.Voicebank.Configuration
import SingingVoice.Proofs.Voicebank.Grammar
import SingingVoice.Proofs.Voicebank.MapPath
import SingingVoice.Proofs.Voicebank.Race
import SingingVoice.Proofs.Voicebank.Record
import SingingVoice.Proofs.Voicebank.Session
import SingingVoice.Proofs.Voicebank.Slicing
import SingingVoice.Proofs.Voicebank.TornMap
import SingingVoice.Proofs.Voicebank.Transparency
import SingingVoice.Proofs.Voicebank.Visits
import SingingVoice.Proofs.Wave.Reading
import SingingVoice.Proofs.Word
import SingingVoice.Proofs.WorkerPool.Course
import SingingVoice.Proofs.WorkerPool.Interleaving
import SingingVoice.Proofs.WorkerPool.Ledger
import SingingVoice.Proofs.WorkerPool.Nested
import SingingVoice.Proofs.WorkerPool.Outcome
import SingingVoice.Proofs.Yaml.Layout
import SingingVoice.Proofs.Yaml.Scalars
import SingingVoice.Proofs.Yin.Buffers
import SingingVoice.Proofs.Yin.Loudness
import SingingVoice.Proofs.Yin.Period
import SingingVoice.Proofs.Yin.Refinement
import SingingVoice.Render.Basic
import SingingVoice.Render.Error
import SingingVoice.Resampling.Basic
import SingingVoice.Resampling.Interleave
import SingingVoice.Resampling.Sinc
import SingingVoice.Scalar
import SingingVoice.Segment.Basic
import SingingVoice.Segment.Conform
import SingingVoice.Segment.Draft
import SingingVoice.Segment.Error
import SingingVoice.Segment.Fade
import SingingVoice.Segment.File
import SingingVoice.Segment.Join
import SingingVoice.Segment.Overlay
import SingingVoice.Stretch
import SingingVoice.Text.Line
import SingingVoice.Text.Quoted
import SingingVoice.Text.Unicode
import SingingVoice.Text.Utf8
import SingingVoice.Value.Basic
import SingingVoice.Value.Json
import SingingVoice.Voicebank.Basic
import SingingVoice.Voicebank.Config
import SingingVoice.Voicebank.Error
import SingingVoice.Voicebank.Loading
import SingingVoice.Voicebank.Sample
import SingingVoice.Wave.Codec
import SingingVoice.Wave.Fault
import SingingVoice.Wave.Header
import SingingVoice.Word
import SingingVoice.WorkerPool
import SingingVoice.Yaml.Character
import SingingVoice.Yaml.Cursor
import SingingVoice.Yaml.Node
import SingingVoice.Yaml.Reading
import SingingVoice.Yaml.Render
import SingingVoice.Yaml.Resolution
import SingingVoice.Yaml.Scalar
import SingingVoice.Yaml.Style
import SingingVoice.Yaml.Tag
import SingingVoice.Yaml.Token
import SingingVoice.Yin
