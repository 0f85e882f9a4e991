import Lectern.Files.Path
import Lectern.OrderedMap

/-!
# File trees

A finite tree of files and folders as a value. An entry is found at its location, the names on
the way from the root, and locations are ordered name by name, so that a folder comes directly
before what it holds. A path leads to a location from the root or from the working folder; every
part of it but the last must lead through a folder, and none may be longer than names are. Links,
which are followed where there are any, are left out.
-/

namespace Lectern

/-- The names on the way from the root. -/
abbrev Location := List Text

/-- What is found at a location. -/
inductive Entry where
  | file (bytes : ByteArray)
  | folder

/-- Files and folders by location. The root is a folder without an entry of its own. -/
structure FileTree where
  entries : OrderedMap Location Entry
  working : Location

namespace FileTree

/-- What is found at a location. -/
def entry? (tree : FileTree) (location : Location) : Option Entry :=
  if location = [] then some .folder else tree.entries.get? location

/-- The tree with an entry put at a location. -/
def put (tree : FileTree) (location : Location) (entry : Entry) : FileTree :=
  { tree with entries := tree.entries.insert location entry }

/-- Looks up what is found at a location whose folder is known to exist. -/
def lookUp (tree : FileTree) (location : Location) : Except FileError (Option Entry) :=
  if location.getLast?.any fun name => Path.nameLimit < Text.byteLength name then
    .error .nameTooLong
  else .ok (tree.entry? location)

/-- One part further on the way that a path leads. -/
def step (tree : FileTree) (here : Location) (part : Text) : Except FileError Location := do
  match ← tree.lookUp here with
  | none => .error .notFound
  | some (.file _) => .error .notFolder
  | some .folder =>
    .ok (if Path.isIdle part then here else if part = ".." then here.dropLast else here ++ [part])

/-- The location that the parts of a path lead to, whether or not there is an entry. -/
def follow (tree : FileTree) (path : Path) : Except FileError Location :=
  (path.splitOn '/').foldlM tree.step (if path.isAbsolute then [] else tree.working)

/-- The location that a path leads to, whether or not there is an entry. -/
def locate (tree : FileTree) (path : Path) : Except FileError Location := do
  path.check
  tree.follow path

/-- The location that a path leads to and the entry there. -/
def find (tree : FileTree) (path : Path) : Except FileError (Location × Entry) := do
  let location ← tree.locate path
  match ← tree.lookUp location with
  | some entry => .ok (location, entry)
  | none => .error .notFound

/-- The content of a file. -/
def readFile (tree : FileTree) (path : Path) : Except FileError ByteArray := do
  match ← tree.find path with
  | (_, .file bytes) => .ok bytes
  | (_, .folder) => .error .isFolder

/-- The path without the slashes it ends with. -/
def dropSlashes (path : Path) : Path := (path.reverse.dropWhile (· = '/')).reverse

/-- The location that a path leads to when the slashes at its end do not count; a path of nothing
but slashes leads to the root. -/
def locateBare (tree : FileTree) (path : Path) : Except FileError Location := do
  path.check
  if dropSlashes path = [] then .ok [] else tree.follow (dropSlashes path)

/-- The tree with a file written. A path that ends with a slash cannot name a file to write. -/
def writeFile (tree : FileTree) (path : Path) (bytes : ByteArray) : Except FileError FileTree := do
  let location ← tree.locateBare path
  if path.getLast? = some '/' then .error .isFolder
  else
    match ← tree.lookUp location with
    | some .folder => .error .isFolder
    | _ => .ok (tree.put location (.file bytes))

/-- The tree with one folder made. -/
def makeFolder (tree : FileTree) (path : Path) : Except FileError FileTree := do
  let location ← tree.locateBare path
  match ← tree.lookUp location with
  | some _ => .error .alreadyExists
  | none => .ok (tree.put location .folder)

/-- The names from one location down to another one below it. -/
def below? (folder location : Location) : Option Location :=
  match folder.isPrefixOf? location with
  | some [] => none
  | names => names

/-- What is below a folder, by the paths that a walk takes, in the order of the locations. -/
def entriesBelow (tree : FileTree) (folder : Location) (path : Path) : List (Path × Entry) :=
  tree.entries.entries.filterMap fun (location, entry) =>
    (below? folder location).map fun names => (path.through names, entry)

/-- The files among what a walk meets. A folder is opened when it is met, and where its path cannot
be used the walk stops. -/
def filesMet : List (Path × Entry) → Except (Path × FileError) (List Path)
  | [] => .ok []
  | (path, .file _) :: rest => do
    let others ← filesMet rest
    .ok (path :: others)
  | (path, .folder) :: rest => do
    path.check.mapError fun error => (path, error)
    filesMet rest

/-- The paths of the files below a folder, in the order of their locations; a file alone is found
as itself. -/
def filesBelow (tree : FileTree) (path : Path) : Except (Path × FileError) (List Path) :=
  match tree.find path with
  | .error error => .error (path, error)
  | .ok (_, .file _) => .ok [path]
  | .ok (folder, .folder) => filesMet (tree.entriesBelow folder path)

end FileTree
end Lectern
