import SingingVoice.Path
import SingingVoice.Segment.Error
import SingingVoice.Text.Line
import Std.Data.HashMap

/-!
# File trees

A file tree is a directory with files and directories in it, each found under the list of names that
leads to it. Paths are walked from the top of the tree, one component at a time; an empty component
and `.` stay where they are and `..` goes back, but each only from a directory. Every operation is
one step, so that programs that share a tree can be interleaved.
-/

namespace SingingVoice

/-- What is found under a path. -/
inductive FileEntry where
  /-- A directory. -/
  | directory
  /-- A file with its bytes. -/
  | file (bytes : List UInt8)
deriving DecidableEq, Repr, Inhabited

/-- A directory with all that is in it. -/
structure FileTree where
  /-- The entries under the lists of names that lead to them. The tree itself is not among them. -/
  entries : Std.HashMap (List String) FileEntry

namespace FileTree

/-- The tree with nothing in it. -/
def empty : FileTree :=
  ⟨∅⟩

/-- The longest name of an entry, in bytes. -/
def maxNameSize : Nat :=
  255

/-- The longest path, in bytes. -/
def maxPathSize : Nat :=
  4095

/-- The entry under a list of names. -/
def entry? (tree : FileTree) (names : List String) : Option FileEntry :=
  if names.isEmpty then some .directory else tree.entries[names]?

/-- The components of a path. -/
def components (path : String) : List String :=
  (Line.splitOn '/' path.toList).map String.ofList

/-- Walks components from a directory. All but the last must lead to directories; the last may lead
to nothing. -/
def walk (tree : FileTree) : List String → List String → Except FileFault (List String)
  | here, [] => .ok here
  | here, name :: rest =>
    match tree.entry? here with
    | none => .error .notFound
    | some (.file _) => .error .unusable
    | some .directory =>
      if name = "" ∨ name = "." then walk tree here rest
      else if name = ".." then walk tree here.dropLast rest
      else if maxNameSize < name.utf8ByteSize then .error .unusable
      else walk tree (here ++ [name]) rest

/-- Why a path from the root leads to no entry of a tree: the root is taken to be a directory with
nothing in it. -/
def outsideFault (path : String) : FileFault :=
  match empty.walk [] (components path) with
  | .ok [] => .unusable
  | .ok _ => .notFound
  | .error fault => fault

/-- The list of names that a path leads to. No name holds a null character, and no path from the
root leads into the tree. Whether a path is too long shows before it is walked. -/
def locate (tree : FileTree) (path : String) : Except FileFault (List String) :=
  if path.isEmpty then .error .notFound
  else if path.toList.contains '\x00' ∨ maxPathSize < path.utf8ByteSize then .error .unusable
  else if Path.isAbsolute path then .error (outsideFault path)
  else tree.walk [] (components path)

/-- Whether a path leads to a file. -/
def isFile (tree : FileTree) (path : String) : Bool :=
  match tree.locate path with
  | .error _ => false
  | .ok names =>
    match tree.entry? names with
    | some (.file _) => true
    | _ => false

/-- The bytes of the file at a path. -/
def read (tree : FileTree) (path : String) : Except FileFault (List UInt8) := do
  match tree.entry? (← tree.locate path) with
  | none => throw .notFound
  | some .directory => throw .unusable
  | some (.file bytes) => return bytes

/-- Makes an empty file at a path, in place of a file that is there. -/
def create (tree : FileTree) (path : String) : Except FileFault FileTree := do
  let names ← tree.locate path
  match tree.entry? names, tree.entry? names.dropLast with
  | some .directory, _ => throw .unusable
  | _, some .directory => return ⟨tree.entries.insert names (.file [])⟩
  | _, some (.file _) => throw .unusable
  | _, none => throw .notFound

/-- Adds bytes at the end of the file at a path. -/
def append (tree : FileTree) (path : String) (bytes : List UInt8) : Except FileFault FileTree := do
  let names ← tree.locate path
  match tree.entry? names with
  | none => throw .notFound
  | some .directory => throw .unusable
  | some (.file before) => return ⟨tree.entries.insert names (.file (before ++ bytes))⟩

/-- Makes the directories along a path. -/
def makeDirectory (tree : FileTree) (path : String) : FileTree :=
  let names := (components path).filter (· ≠ "")
  let leading := (List.range (names.length + 1)).drop 1 |>.map names.take
  leading.foldl
    (fun tree names => if (tree.entry? names).isSome then tree
      else ⟨tree.entries.insert names .directory⟩)
    tree

/-- Removes the entry at a path and all that is below it. -/
def remove (tree : FileTree) (path : String) : FileTree :=
  let names := (components path).filter (· ≠ "")
  ⟨tree.entries.filter fun other _ => ¬ names.isPrefixOf other⟩

end FileTree

/-! ## Programs on a file tree

Each of these is one step of a program that works on a file tree, but for `write`, which is two. -/

namespace FileAccess

variable {m : Type → Type} [MonadStateOf FileTree m]

/-- Whether a path leads to a file. -/
def isFile (path : String) : m Bool :=
  modifyGetThe FileTree fun tree => (tree.isFile path, tree)

/-- The bytes of the file at a path. -/
def read (path : String) : m (Except FileFault (List UInt8)) :=
  modifyGetThe FileTree fun tree => (tree.read path, tree)

/-- A step that changes the tree unless it fails. -/
def change (f : FileTree → Except FileFault FileTree) : m (Except FileFault Unit) :=
  modifyGetThe FileTree fun tree =>
    match f tree with
    | .ok tree => (.ok (), tree)
    | .error fault => (.error fault, tree)

/-- Makes an empty file at a path. -/
def create (path : String) : m (Except FileFault Unit) :=
  change fun tree => tree.create path

/-- Adds bytes at the end of the file at a path. -/
def append (path : String) (bytes : List UInt8) : m (Except FileFault Unit) :=
  change fun tree => tree.append path bytes

/-- Writes a whole file: makes it and then puts the bytes into it. -/
def write [Monad m] (path : String) (bytes : List UInt8) : m (Except FileFault Unit) := do
  match ← create path with
  | .error fault => return .error fault
  | .ok () => append path bytes

end FileAccess

end SingingVoice
