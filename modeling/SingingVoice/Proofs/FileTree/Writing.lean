import SingingVoice.Proofs.FileTree.Places

/-!
# What reading sees and what writing changes

Reading a path depends on the entry at its place only. Writing puts a file at the place of a path
and leaves every other entry alone; since it never takes a directory away, every path leads where it
led before.
-/

namespace SingingVoice.FileTree

/-- The tree with a file in place of the entry under a list of names. -/
def put (tree : FileTree) (names : List String) (bytes : List UInt8) : FileTree :=
  ⟨tree.entries.insert names (.file bytes)⟩

variable {tree tree' : FileTree} {names other : List String} {path : String} {bytes : List UInt8}

/-! ## Entries -/

theorem entry?_put_self (hnames : names ≠ []) (bytes : List UInt8) :
    entry? (tree.put names bytes) names = some (.file bytes) := by
  simp [put, entry?, hnames]

theorem entry?_put_of_ne (hne : other ≠ names) (bytes : List UInt8) :
    entry? (tree.put names bytes) other = tree.entry? other := by
  simp [put, entry?, Std.HashMap.getElem?_insert, hne.symm]

/-- The top of a tree is a directory. -/
theorem ne_nil_of_ne_directory (hnames : tree.entry? names ≠ some .directory) : names ≠ [] := by
  rintro rfl
  exact hnames rfl

theorem ne_directory_of_eq_none (hnone : tree.entry? names = none) :
    tree.entry? names ≠ some .directory := by
  simp [hnone]

/-- Putting a file where no directory is takes no directory away. -/
theorem entry?_put_of_directory (hnames : tree.entry? names ≠ some .directory)
    (hother : tree.entry? other = some .directory) :
    entry? (tree.put names bytes) other = some .directory := by
  rw [entry?_put_of_ne, hother]
  rintro rfl
  exact hnames hother

/-! ## Reading -/

theorem read_eq_ok :
    tree.read path = .ok bytes ↔
      ∃ names, tree.locate path = .ok names ∧ tree.entry? names = some (.file bytes) := by
  rw [read, Except.bind_eq_ok]
  refine exists_congr fun names => and_congr_right fun _ => ?_
  cases tree.entry? names with
  | none => simp [throw, throwThe, MonadExceptOf.throw]
  | some entry =>
    cases entry with
    | directory => simp [throw, throwThe, MonadExceptOf.throw]
    | file before => simp [pure, Except.pure]

/-- There is a file at a path if it can be read. -/
theorem isFile_iff : tree.isFile path ↔ ∃ bytes, tree.read path = .ok bytes := by
  simp only [read_eq_ok, isFile]
  cases tree.locate path with
  | error fault => simp
  | ok names =>
    cases hentry : tree.entry? names with
    | none => simp [hentry]
    | some entry => cases entry <;> simp [hentry]

/-! ## Writing -/

/-- A file is created in a directory, at the place of a path that is no directory itself. -/
theorem create_eq_ok :
    tree.create path = .ok tree' ↔
      ∃ names, tree.locate path = .ok names ∧ tree.entry? names ≠ some .directory ∧
        tree.entry? names.dropLast = some .directory ∧ tree' = tree.put names [] := by
  rw [create, Except.bind_eq_ok]
  refine exists_congr fun names => and_congr_right fun _ => ?_
  split
  case h_1 hentry => simp [hentry, throw, throwThe, MonadExceptOf.throw]
  case h_2 hfront hentry =>
    have hentry : tree.entry? names ≠ some .directory := hentry
    simp only [ne_eq, hentry, not_false_eq_true, hfront, true_and, put]
    exact ⟨fun h => (Except.ok.inj h).symm, fun h => congrArg Except.ok h.symm⟩
  case h_3 hfront _ => simp [hfront, throw, throwThe, MonadExceptOf.throw]
  case h_4 hfront _ => simp [hfront, throw, throwThe, MonadExceptOf.throw]

/-- Bytes are added to a file that is there. -/
theorem append_eq_ok :
    tree.append path bytes = .ok tree' ↔
      ∃ names before, tree.locate path = .ok names ∧ tree.entry? names = some (.file before) ∧
        tree' = tree.put names (before ++ bytes) := by
  rw [append, Except.bind_eq_ok]
  refine exists_congr fun names => ?_
  cases tree.entry? names with
  | none => simp [throw, throwThe, MonadExceptOf.throw]
  | some entry =>
    cases entry with
    | directory => simp [throw, throwThe, MonadExceptOf.throw]
    | file before => simp [pure, Except.pure, put, eq_comm]

/-- A file that has just been made is empty. -/
theorem entry?_of_create (hcreate : tree.create path = .ok tree') :
    tree'.locate path = .ok (place path) ∧ tree'.entry? (place path) = some (.file []) := by
  obtain ⟨names, hlocate, hnames, -, rfl⟩ := create_eq_ok.mp hcreate
  have hlocate' : (tree.put names []).locate path = .ok names :=
    locate_of_directories (fun _ => entry?_put_of_directory hnames) hlocate
  rw [← eq_place_of_locate hlocate]
  exact ⟨hlocate', entry?_put_self (ne_nil_of_ne_directory hnames) []⟩

/-- Bytes are added to a file that has just been made at the place of its path. -/
theorem append_of_create (hcreate : tree.create path = .ok tree') (bytes : List UInt8) :
    tree'.append path bytes = .ok (tree'.put (place path) bytes) := by
  obtain ⟨hlocate, hempty⟩ := entry?_of_create hcreate
  exact append_eq_ok.mpr ⟨place path, [], hlocate, hempty, rfl⟩

/-- What is put in the place of a file that has just been made is read from there. -/
theorem read_put_of_create (hcreate : tree.create path = .ok tree') (bytes : List UInt8) :
    (tree'.put (place path) bytes).read path = .ok bytes := by
  obtain ⟨hlocate, hempty⟩ := entry?_of_create hcreate
  have hdirectory : tree'.entry? (place path) ≠ some .directory := by
    rw [hempty]
    exact nofun
  have hlocate' : (tree'.put (place path) bytes).locate path = .ok (place path) :=
    locate_of_directories (fun _ => entry?_put_of_directory hdirectory) hlocate
  exact read_eq_ok.mpr
    ⟨place path, hlocate', entry?_put_self (ne_nil_of_ne_directory hdirectory) bytes⟩

/-- Writes bytes over the front of the file at a path, as a program does that has opened the file
before and has written nothing yet. -/
def overwrite (tree : FileTree) (path : String) (bytes : List UInt8) :
    Except FileFault FileTree := do
  let names ← tree.locate path
  match tree.entry? names with
  | none => throw .notFound
  | some .directory => throw .unusable
  | some (.file before) => return tree.put names (bytes ++ before.drop bytes.length)

/-- What is behind the bytes stays. -/
theorem overwrite_eq_ok :
    tree.overwrite path bytes = .ok tree' ↔
      ∃ names before, tree.locate path = .ok names ∧ tree.entry? names = some (.file before) ∧
        tree' = tree.put names (bytes ++ before.drop bytes.length) := by
  rw [overwrite, Except.bind_eq_ok]
  refine exists_congr fun names => ?_
  cases tree.entry? names with
  | none => simp [throw, throwThe, MonadExceptOf.throw]
  | some entry =>
    cases entry with
    | directory => simp [throw, throwThe, MonadExceptOf.throw]
    | file before => simp [pure, Except.pure, eq_comm]

/-- On a file that has just been made, to write over the front is to add at the end. -/
theorem overwrite_of_create (hcreate : tree.create path = .ok tree') (bytes : List UInt8) :
    tree'.overwrite path bytes = tree'.append path bytes := by
  obtain ⟨hlocate, hempty⟩ := entry?_of_create hcreate
  rw [overwrite, append, hlocate, Except.ok_bind, Except.ok_bind, hempty]
  simp [put]

end SingingVoice.FileTree
