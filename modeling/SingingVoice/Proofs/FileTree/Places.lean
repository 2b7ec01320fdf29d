import SingingVoice.FileTree
import SingingVoice.Proofs.Result
import SingingVoice.Proofs.Text.Line

/-!
# Where paths lead

If a path leads anywhere in a tree, where it leads is written in the path: `place` follows the
components of a path without looking at the tree. Seen from a directory a path leads on from the
place of the directory (`place_join`), and with another file name it leads to another entry of the
same directory (`place_withFileName`).
-/

namespace SingingVoice.FileTree

/-- The list of names that a component leads to. -/
def enter (here : List String) (name : String) : List String :=
  if name = "" ∨ name = "." then here
  else if name = ".." then here.dropLast
  else here ++ [name]

/-- The list of names that a path leads to, if it leads anywhere. -/
def place (path : String) : List String :=
  (components path).foldl enter []

/-- A component that is the name of an entry. -/
structure IsName (name : String) : Prop where
  ne_empty : name ≠ ""
  ne_here : name ≠ "."
  ne_back : name ≠ ".."

/-- A component is compared with the three that are no names. -/
instance (name : String) : Decidable (IsName name) :=
  decidable_of_iff (name ≠ "" ∧ name ≠ "." ∧ name ≠ "..")
    ⟨fun h => ⟨h.1, h.2.1, h.2.2⟩, fun h => ⟨h.ne_empty, h.ne_here, h.ne_back⟩⟩

/-- A path whose components are all names: it is relative and makes no detours. -/
def IsNormal (path : String) : Prop :=
  ∀ name ∈ components path, IsName name

/-- Each component of a path is looked at. -/
instance (path : String) : Decidable (IsNormal path) :=
  inferInstanceAs (Decidable (∀ name ∈ components path, IsName name))

variable {tree tree' : FileTree} {here names comps : List String} {path dir name file : String}

theorem enter_of_isName (hname : IsName name) : enter here name = here ++ [name] := by
  rw [enter, if_neg (not_or.mpr ⟨hname.ne_empty, hname.ne_here⟩), if_neg hname.ne_back]

theorem foldl_enter_of_isName (hcomps : ∀ name ∈ comps, IsName name) :
    comps.foldl enter here = here ++ comps := by
  induction comps generalizing here with
  | nil => simp
  | cons name comps ih =>
    obtain ⟨hname, hcomps⟩ := List.forall_mem_cons.mp hcomps
    rw [List.foldl_cons, enter_of_isName hname, ih hcomps, List.append_assoc, List.singleton_append]

/-! ## Walking -/

/-- A walk goes on from a directory by a component that is not too long. -/
theorem walk_cons_eq_ok :
    tree.walk here (name :: comps) = .ok names ↔
      tree.entry? here = some .directory ∧ name.utf8ByteSize ≤ maxNameSize ∧
        tree.walk (enter here name) comps = .ok names := by
  rw [walk, enter]
  cases hentry : tree.entry? here with
  | none => simp
  | some entry =>
    cases entry with
    | file bytes => simp
    | directory =>
      simp only [true_and]
      split
      case isTrue hstay =>
        -- These components are short.
        have hsize : name.utf8ByteSize ≤ maxNameSize := by
          rcases hstay with rfl | rfl <;> decide
        simp [hsize]
      case isFalse =>
        split
        case isTrue hback =>
          have hsize : name.utf8ByteSize ≤ maxNameSize := by subst hback; decide
          simp [hsize]
        case isFalse =>
          split
          case isTrue hlong => simp [Nat.not_le.mpr hlong]
          case isFalse hshort => simp [Nat.not_lt.mp hshort]

/-- A walk that succeeds ends where the components lead. -/
theorem eq_foldl_enter_of_walk (hwalk : tree.walk here comps = .ok names) :
    names = comps.foldl enter here := by
  induction comps generalizing here with
  | nil => exact (Except.ok.inj hwalk).symm
  | cons name comps ih =>
    obtain ⟨-, -, hwalk⟩ := walk_cons_eq_ok.mp hwalk
    exact ih hwalk

/-- A walk ends in the same place in every tree that has the same directories. -/
theorem walk_of_directories
    (hkept : ∀ names, tree.entry? names = some .directory → tree'.entry? names = some .directory)
    (hwalk : tree.walk here comps = .ok names) : tree'.walk here comps = .ok names := by
  induction comps generalizing here with
  | nil => exact hwalk
  | cons name comps ih =>
    obtain ⟨hhere, hsize, hwalk⟩ := walk_cons_eq_ok.mp hwalk
    exact walk_cons_eq_ok.mpr ⟨hkept here hhere, hsize, ih hwalk⟩

/-- A path that leads anywhere is short enough, relative and can be walked. -/
theorem locate_eq_ok :
    tree.locate path = .ok names ↔
      path.isEmpty = false ∧ ¬ (path.toList.contains '\x00' ∨ maxPathSize < path.utf8ByteSize) ∧
        Path.isAbsolute path = false ∧ tree.walk [] (components path) = .ok names := by
  rw [locate]
  split
  case isTrue hempty => exact ⟨nofun, fun h => absurd hempty (Bool.eq_false_iff.mp h.1)⟩
  case isFalse hempty =>
    split
    case isTrue hbad => exact ⟨nofun, fun h => absurd hbad h.2.1⟩
    case isFalse hbad =>
      split
      case isTrue habsolute =>
        exact ⟨nofun, fun h => absurd habsolute (Bool.eq_false_iff.mp h.2.2.1)⟩
      case isFalse habsolute =>
        exact ⟨fun h => ⟨Bool.eq_false_iff.mpr hempty, hbad, Bool.eq_false_iff.mpr habsolute, h⟩,
          fun h => h.2.2.2⟩

/-- A path that leads anywhere leads to its place. -/
theorem eq_place_of_locate (hlocate : tree.locate path = .ok names) : names = place path :=
  eq_foldl_enter_of_walk (locate_eq_ok.mp hlocate).2.2.2

theorem locate_of_directories
    (hkept : ∀ names, tree.entry? names = some .directory → tree'.entry? names = some .directory)
    (hlocate : tree.locate path = .ok names) : tree'.locate path = .ok names := by
  obtain ⟨hempty, hbad, habsolute, hwalk⟩ := locate_eq_ok.mp hlocate
  exact locate_eq_ok.mpr ⟨hempty, hbad, habsolute, walk_of_directories hkept hwalk⟩

/-! ## Components -/

/-- The place of the path that is spelled by characters. -/
def placeOf (cs : List Char) : List String :=
  ((cs.splitOn '/').map String.ofList).foldl enter []

theorem components_eq (path : String) :
    components path = (path.toList.splitOn '/').map String.ofList := by
  rw [components, Line.splitOn_eq]

/-- A path can be put together from its components. -/
theorem components_injective {other : String} (heq : components path = components other) :
    path = other := by
  rw [components_eq, components_eq] at heq
  have hparts := List.map_injective_iff.mpr (fun _ _ => String.ofList_inj.mp) heq
  have hjoin : ∀ path : String, ['/'].intercalate (path.toList.splitOn '/') = path.toList :=
    fun _ => List.intercalate_splitOn '/'
  apply String.toList_inj.mp
  rw [← hjoin path, hparts, hjoin other]

theorem place_eq_placeOf (path : String) : place path = placeOf path.toList := by
  rw [place, components_eq, placeOf]

theorem placeOf_append_slash (a b : List Char) :
    placeOf (a ++ '/' :: b) = ((b.splitOn '/').map String.ofList).foldl enter (placeOf a) := by
  rw [placeOf, List.splitOn_append_cons_self, List.map_append, List.foldl_append, placeOf]

/-- A slash at the end leads nowhere else. -/
theorem placeOf_concat_slash (a : List Char) : placeOf (a ++ ['/']) = placeOf a := by
  rw [placeOf_append_slash]
  rfl

/-- Dropping slashes and single points from the end changes no place. -/
theorem placeOf_dropEmpty (reversed : List Char) :
    placeOf (Path.dropEmpty reversed).reverse = placeOf reversed.reverse := by
  fun_induction Path.dropEmpty reversed with
  | case1 c rest ih =>
    have hslash : ('/' :: c :: rest).reverse = (c :: rest).reverse ++ ['/'] := List.reverse_cons
    rw [ih, hslash, placeOf_concat_slash]
  | case2 rest ih =>
    have hpoint : ('.' :: '/' :: rest).reverse = rest.reverse ++ '/' :: ['.'] := by simp
    rw [ih, hpoint, placeOf_append_slash, List.reverse_cons, placeOf_concat_slash]
    rfl
  | case3 => rfl

/-- Seen from a directory, the components of a relative path come after others that lead to the
directory. -/
theorem components_join (dir : String) (hname : Path.isAbsolute name = false) :
    ∃ front, components (Path.join dir name) = front ++ components name ∧
      front.foldl enter [] = place dir := by
  rw [Path.join, hname]
  split
  case isTrue hdir =>
    obtain rfl : dir = "" := by simpa using hdir
    exact ⟨[], rfl, rfl⟩
  case isFalse =>
    split
    case isTrue hslash =>
      obtain ⟨before, hbefore⟩ := List.getLast?_eq_some_iff.mp hslash
      refine ⟨components (String.ofList before), ?_, ?_⟩
      · simp only [components_eq, String.toList_append, hbefore, String.toList_ofList,
          List.append_assoc, List.singleton_append, List.splitOn_append_cons_self, List.map_append]
      · rw [place_eq_placeOf, hbefore, placeOf_concat_slash, placeOf, components_eq,
          String.toList_ofList]
    case isFalse =>
      refine ⟨components dir, ?_, rfl⟩
      have hslash : "/".toList = ['/'] := rfl
      simp only [components_eq, String.toList_append, hslash, List.append_assoc,
        List.singleton_append, List.splitOn_append_cons_self, List.map_append]

/-- Seen from a directory, a relative path leads on from the place of the directory. -/
theorem place_join (dir : String) (hname : Path.isAbsolute name = false) :
    place (Path.join dir name) = (components name).foldl enter (place dir) := by
  obtain ⟨front, hcomps, hfront⟩ := components_join dir hname
  rw [place, hcomps, List.foldl_append, hfront]

/-! ## The last component -/

/-- `EndsIn path file`: the last component of a path is the name of a file. -/
structure EndsIn (path file : String) : Prop where
  isName : IsName file
  last : (components path).getLast? = some file

namespace EndsIn

/-- A name has no slash, and a path that ends in it has nothing or a slash before it. The second
list is what stands before the name, backwards. -/
theorem exists_front (hpath : EndsIn path file) :
    '/' ∉ file.toList ∧
      ∃ front, path.toList = front.reverse ++ file.toList ∧
        (front = [] ∨ ∃ rest, front = '/' :: rest) := by
  have hlast := hpath.last
  rw [components_eq, List.getLast?_map] at hlast
  generalize path.toList = cs at hlast ⊢
  induction cs using Line.parts_induction '/' with
  | last cs hcs =>
    rw [List.splitOn_eq_singleton hcs] at hlast
    obtain rfl : String.ofList cs = file := by simpa using hlast
    rw [String.toList_ofList]
    exact ⟨hcs, [], rfl, .inl rfl⟩
  | more part rest hpart ih =>
    rw [List.splitOn_append_cons_self_of_not_mem hpart,
      List.getLast?_cons_of_ne_nil (List.splitOn_ne_nil _ _)] at hlast
    obtain ⟨hfile, front, hrest, hfront⟩ := ih hlast
    refine ⟨hfile, front ++ '/' :: part.reverse, by simp [hrest], .inr ?_⟩
    rcases hfront with rfl | ⟨before, rfl⟩
    · exact ⟨_, rfl⟩
    · exact ⟨_, rfl⟩

/-- No character of a name is dropped from the end of a path. -/
theorem dropEmpty_append (hname : IsName file) (hslash : '/' ∉ file.toList) (front : List Char) :
    Path.dropEmpty (file.toList.reverse ++ front) = file.toList.reverse ++ front := by
  rw [← List.mem_reverse] at hslash
  have hpoint : file.toList.reverse ≠ ['.'] := fun heq => by
    have hfile : file.toList = ['.'] := by simpa using congrArg List.reverse heq
    exact hname.ne_here (String.toList_inj.mp hfile)
  have hempty : file.toList.reverse ≠ [] := fun heq => by
    have hfile : file.toList = [] := by simpa using heq
    exact hname.ne_empty (String.toList_inj.mp hfile)
  generalize file.toList.reverse = reversed at hslash hpoint hempty
  match reversed, hempty with
  | [c], _ =>
    unfold Path.dropEmpty
    split
    next heq => cases heq; exact absurd (List.mem_singleton_self _) hslash
    next heq => cases heq; exact absurd rfl hpoint
    next => rfl
  | c :: d :: rest, _ =>
    unfold Path.dropEmpty
    split
    next heq => cases heq; exact absurd (List.mem_cons_self ..) hslash
    next heq => cases heq; exact absurd (List.mem_cons_of_mem _ (List.mem_cons_self ..)) hslash
    next => rfl

/-- The last component of a path is split off as its file name. -/
theorem exists_splitLast (hpath : EndsIn path file) :
    ∃ front, path.toList = front.reverse ++ file.toList ∧
      (front = [] ∨ ∃ rest, front = '/' :: rest) ∧
      (Path.body path).reverse = file.toList.reverse ++ front ∧
      Path.splitLast (file.toList.reverse ++ front) = (file.toList.reverse, front) := by
  obtain ⟨hslash, front, htext, hfront⟩ := hpath.exists_front
  have hall : ∀ c ∈ file.toList.reverse, decide (c ≠ '/') = true := fun c hc =>
    decide_eq_true (fun heq => hslash (heq ▸ List.mem_reverse.mp hc))
  refine ⟨front, htext, hfront, ?_, ?_⟩
  · rw [Path.body, List.reverse_reverse, htext, List.reverse_append, List.reverse_reverse,
      dropEmpty_append hpath.isName hslash]
  · rw [Path.splitLast, List.takeWhile_append_of_pos hall, List.dropWhile_append_of_pos hall]
    rcases hfront with rfl | ⟨rest, rfl⟩
    · simp
    · simp

theorem fileName? (hpath : EndsIn path file) : Path.fileName? path = some file := by
  obtain ⟨front, -, -, hbody, hsplit⟩ := hpath.exists_splitLast
  have hname : ¬ (file.toList = [] ∨ file.toList = ['.'] ∨ file.toList = ['.', '.']) := by
    rintro (heq | heq | heq)
    · exact hpath.isName.ne_empty (String.toList_inj.mp heq)
    · exact hpath.isName.ne_here (String.toList_inj.mp heq)
    · exact hpath.isName.ne_back (String.toList_inj.mp heq)
  simp only [Path.fileName?, hbody, hsplit, List.reverse_reverse, if_neg hname,
    String.ofList_toList]

/-- The directory of a path leads to the place of the path without its last name. -/
theorem exists_parent (hpath : EndsIn path file) :
    ∃ parent, Path.parent? path = some parent ∧ place path = place parent ++ [file] := by
  obtain ⟨front, htext, hfront, hbody, hsplit⟩ := hpath.exists_splitLast
  have hslash := hpath.exists_front.1
  have hempty : file.toList ≠ [] := fun heq =>
    hpath.isName.ne_empty (String.toList_inj.mp heq)
  have hwhole : ¬ (file.toList.reverse ++ front = [] ∨ file.toList.reverse ++ front = ['/']) := by
    rintro (heq | heq)
    · exact hempty (by simpa using (List.append_eq_nil_iff.mp heq).1)
    · cases hreversed : file.toList.reverse with
      | nil => exact hempty (by simpa using hreversed)
      | cons c rest =>
        rw [hreversed, List.cons_append] at heq
        have hmem : c ∈ file.toList := List.mem_reverse.mp (hreversed ▸ List.mem_cons_self ..)
        exact hslash ((List.cons.inj heq).1 ▸ hmem)
  refine ⟨String.ofList (Path.dropEmpty front).reverse, ?_, ?_⟩
  · simp only [Path.parent?, hbody, if_neg hwhole, hsplit]
  · rw [place_eq_placeOf, place_eq_placeOf, String.toList_ofList, placeOf_dropEmpty, htext]
    have hfile : (file.toList.splitOn '/').map String.ofList = [file] := by
      rw [List.splitOn_eq_singleton hslash, List.map_singleton, String.ofList_toList]
    rcases hfront with rfl | ⟨rest, rfl⟩
    · rw [List.reverse_nil, List.nil_append, placeOf, hfile]
      exact enter_of_isName hpath.isName
    · rw [List.reverse_cons, List.append_assoc, List.singleton_append, placeOf_append_slash, hfile,
        placeOf_concat_slash]
      exact enter_of_isName hpath.isName

/-- With another file name a path leads to another entry of the same directory. -/
theorem place_withFileName (hpath : EndsIn path file) (hname : IsName name)
    (hslash : '/' ∉ name.toList) :
    place (Path.withFileName path name) = (place path).dropLast ++ [name] := by
  obtain ⟨parent, hparent, hplace⟩ := hpath.exists_parent
  have habsolute : Path.isAbsolute name = false := by
    rw [Path.isAbsolute, decide_eq_false_iff_not]
    exact fun hhead => hslash (List.mem_of_head? hhead)
  have hcomps : components name = [name] := by
    rw [components_eq, List.splitOn_eq_singleton hslash, List.map_singleton, String.ofList_toList]
  rw [Path.withFileName, hpath.fileName?, Option.isSome_some, if_pos rfl, hparent,
    Option.getD_some, place_join parent habsolute, hcomps, hplace, List.dropLast_concat]
  exact enter_of_isName hname

end EndsIn

/-! ## Normal paths -/

namespace IsNormal

theorem not_isAbsolute (hfile : IsNormal file) : Path.isAbsolute file = false := by
  rw [Path.isAbsolute, decide_eq_false_iff_not]
  intro hhead
  obtain ⟨rest, hrest⟩ := List.head?_eq_some_iff.mp hhead
  refine (hfile "" ?_).ne_empty rfl
  rw [components_eq, hrest, List.splitOn_cons_eq_if_modifyHead, if_pos (beq_self_eq_true _)]
  exact List.mem_cons_self ..

theorem place_join (hfile : IsNormal file) (dir : String) :
    place (Path.join dir file) = place dir ++ components file := by
  rw [FileTree.place_join dir hfile.not_isAbsolute, foldl_enter_of_isName hfile]

/-- A normal path ends in a name, from wherever it is seen. -/
theorem exists_endsIn (hfile : IsNormal file) (dir : String) :
    ∃ name, EndsIn file name ∧ EndsIn (Path.join dir file) name := by
  have hne : components file ≠ [] := by
    rw [components_eq, ne_eq, List.map_eq_nil_iff]
    exact List.splitOn_ne_nil _ _
  obtain ⟨front, hcomps, -⟩ := components_join dir hfile.not_isAbsolute
  have hname := hfile _ (List.getLast_mem hne)
  refine ⟨(components file).getLast hne, ⟨hname, List.getLast?_eq_some_getLast hne⟩, hname, ?_⟩
  rw [hcomps, List.getLast?_append_of_ne_nil _ hne, List.getLast?_eq_some_getLast hne]

end IsNormal

end SingingVoice.FileTree
