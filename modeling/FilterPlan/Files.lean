import FilterPlan.Text.Basic

/-!
# Files

The file system as the program sees it, and the one that a list of relative paths with texts spells out. A
path is a list of names between slashes; an empty name and `.` stay where they are, `..` goes up, and each
of them needs a folder to start from.
-/

namespace FilterPlan

/-- What stands at a path. -/
inductive Files.Entry where
  /-- A file with its text. -/
  | file (text : Text)
  /-- A folder, or something else without a text. -/
  | folder
deriving DecidableEq, Repr

/-- A file system. -/
structure Files where
  /-- What stands at a path, if anything does. -/
  entry? : Text → Option Files.Entry

namespace Files

/-- Whether anything stands at the path. -/
def hasEntry (files : Files) (path : Text) : Bool :=
  (files.entry? path).isSome

/-- The text of the file at the path. -/
def text? (files : Files) (path : Text) : Option Text :=
  match files.entry? path with
  | some (.file text) => some text
  | _ => none

/-- The file system with the given entries. -/
def ofEntries (entries : List (Text × Entry)) : Files where
  entry? path := entries.lookup path

/-- The names of a path. -/
def names (path : Text) : List Text :=
  path.fields (· == '/')

/-- Whether the name leaves a path where it is. -/
def isIdle (name : Text) : Bool :=
  name.isEmpty || name == "."

/-- A place in a tree of files. -/
inductive Place where
  /-- The names that lead from the top to it. -/
  | inside (names : List Text)
  /-- A folder above the top. -/
  | above
deriving DecidableEq, Repr

/-- The file or folder that the names lead to from the top. -/
def lookUp? (tree : List (Text × Text)) (path : List Text) : Option Entry :=
  match tree.find? fun file => names file.1 == path with
  | some file => some (.file file.2)
  | none => if path.isEmpty || tree.any fun file => path.isPrefixOf (names file.1) then some .folder else none

/-- Goes from a folder to where a name leads. -/
def go? (tree : List (Text × Text)) (place : Place) (name : Text) : Option Place :=
  match place with
  | .above => if isIdle name || name == ".." then some .above else none
  | .inside path =>
    if lookUp? tree path ≠ some .folder then none
    else if isIdle name then some (.inside path)
    else if name == ".." then some (if path.isEmpty then .above else .inside path.dropLast)
    else if (lookUp? tree (path ++ [name])).isSome then some (.inside (path ++ [name]))
    else none

/-- What stands at a path relative to the top of the tree. Of absolute paths only the root exists. -/
def find? (tree : List (Text × Text)) (path : Text) : Option Entry :=
  if path.isEmpty then none
  else if path.head? = some '/' then
    if (names path).all fun name => isIdle name || name == ".." then some .folder else none
  else
    match (names path).foldlM (go? tree) (.inside []) with
    | some (.inside path) => lookUp? tree path
    | some .above => some .folder
    | none => none

/-- The file system in which exactly the given files stand, by relative path. -/
def ofTree (tree : List (Text × Text)) : Files where
  entry? := find? tree

/-- A path behind another: they are joined by a slash unless one stands there already. -/
def join (base path : Text) : Text :=
  if base.isEmpty || base.getLast? = some '/' then base ++ path else base ++ "/" ++ path

/-- The path with a leading `~` replaced by the home folder, if there is one. What follows loses the names
without effect at its ends. -/
def expandHome (home? : Option Text) (path : Text) : Text :=
  match home?, names path with
  | some home, first :: rest =>
    if first = "~" then
      join home (Text.joinWith "/" ((rest.dropWhile isIdle).reverse.dropWhile isIdle).reverse)
    else path
  | _, _ => path

end Files

end FilterPlan
