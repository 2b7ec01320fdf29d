import SingingVoice.FileTree
import SingingVoice.Wave.Codec

/-!
# Segments in files

Wave files are read into segments and written from them. An error in the bytes of a file carries the
path of the file.
-/

namespace SingingVoice.Segment

variable {α : Type} [Scalar α] {m : Type → Type} [Monad m] [MonadStateOf FileTree m]

/-- The same error with the path of the file whose bytes it is about. -/
def inFile (path : String) : SegmentError α → SegmentError α
  | .decode fault => .decodeFile path fault
  | error => error

/-- The segment in the wave file at a path. -/
def ofFile (path : String) : ExceptT (SegmentError α) m (Segment α) := do
  match ← FileAccess.read path with
  | .error fault => throw (.file fault)
  | .ok bytes => MonadExcept.ofExcept ((ofWave bytes).mapError (inFile path))

/-- Writes the segment into a wave file. -/
def toFile (segment : Segment α) (path : String) : ExceptT (SegmentError α) m Unit := do
  match ← FileAccess.write path segment.toWave with
  | .error fault => throw (.file fault)
  | .ok () => MonadExcept.ofExcept segment.finishWave

end SingingVoice.Segment
