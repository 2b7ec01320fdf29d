/-!
# Path names

Paths are texts whose components are separated by slashes. Empty components and `.` past the front
name nothing, so the last component is looked for after dropping them.
-/

namespace SingingVoice.Path

/-- Whether a path starts at the root. -/
def isAbsolute (path : String) : Bool :=
  path.toList.head? = some '/'

/-- Whether a path is to be read from some directory. -/
def isRelative (path : String) : Bool :=
  !isAbsolute path

/-- The path of `name` seen from the directory `dir`. An absolute name stays as it is. -/
def join (dir name : String) : String :=
  if isAbsolute name ∨ dir.isEmpty then name
  else if dir.toList.getLast? = some '/' then dir ++ name
  else dir ++ "/" ++ name

/-- Splits a reversed path after its last component: what follows the last slash, and the rest with
that slash at its front. -/
def splitLast (reversed : List Char) : List Char × List Char :=
  (reversed.takeWhile (· ≠ '/'), reversed.dropWhile (· ≠ '/'))

/-- Drops slashes, and `.` components after a slash, from the front of a reversed path; at least the
first character of the path stays, if it is a slash or a `.`. -/
def dropEmpty : List Char → List Char
  | '/' :: c :: rest => dropEmpty (c :: rest)
  | '.' :: '/' :: rest => dropEmpty ('/' :: rest)
  | rest => rest

/-- The part of a path that names something: the path without the slashes and `.` components at its
end. -/
def body (path : String) : List Char :=
  (dropEmpty path.toList.reverse).reverse

/-- The last component of a path, if it names a file: there is none for the root, for an empty path
and for `.` and `..`. -/
def fileName? (path : String) : Option String :=
  let last := (splitLast (body path).reverse).1.reverse
  if last = [] ∨ last = ['.'] ∨ last = ['.', '.'] then none else some (String.ofList last)

/-- The directory of a path: everything before its last component, or nothing for the root and for
an empty path. -/
def parent? (path : String) : Option String :=
  let whole := (body path).reverse
  if whole = [] ∨ whole = ['/'] then none
  else
    let before := (splitLast whole).2
    some (String.ofList (dropEmpty before).reverse)

/-- The file name up to its last point and what follows it. A point at the front starts no
extension. -/
def splitExtension (name : String) : String × Option String :=
  let reversed := name.toList.reverse
  let extension := reversed.takeWhile (· ≠ '.')
  match reversed.dropWhile (· ≠ '.') with
  | '.' :: stem =>
    if stem.isEmpty then (name, none)
    else (String.ofList stem.reverse, some (String.ofList extension.reverse))
  | _ => (name, none)

/-- The file name without its extension. -/
def stem? (path : String) : Option String :=
  (fileName? path).map fun name => (splitExtension name).1

/-- The extension of the file name. -/
def extension? (path : String) : Option String :=
  (fileName? path).bind fun name => (splitExtension name).2

/-- The path with its file name replaced; without a file name, the name is added. -/
def withFileName (path name : String) : String :=
  if (fileName? path).isSome then join ((parent? path).getD "") name
  else join path name

end SingingVoice.Path
