import Lectern.Files.FileError
import Lectern.Files.Path
import Lectern.Session.Notice

/-!
# Hosts

What commands need from the world around them: files, folders, and places for notices and
output. Commands are written for any host, so one text of a command runs on the file trees of
`Session.Machine` as well as on a disk.
-/

namespace Lectern

/-- What a path names. -/
inductive EntryKind where
  | file
  | folder
  deriving DecidableEq

/-- The operations that commands use. -/
class Host (m : Type → Type) where
  /-- What a path names, if anything. -/
  kind? : Path → m (Option EntryKind)
  /-- The content of a file. -/
  readBytes : Path → m (Except FileError ByteArray)
  /-- Makes or replaces a file. -/
  writeBytes : Path → ByteArray → m (Except FileError Unit)
  /-- Makes one folder. -/
  makeFolder : Path → m (Except FileError Unit)
  /-- The files below a folder, each folder by name and at once with what it holds, or the path at
  which the walk stops. -/
  filesBelow : Path → m (Except (Path × FileError) (List Path))
  /-- Shows a notice if the threshold admits it. -/
  notify : Notice → m Unit
  /-- Sets the threshold for notices. -/
  setThreshold : Level → m Unit
  /-- Writes a text and a line feed to the output. -/
  print : Text → m Unit

/-- Commands that may fail use the host that they run on. -/
instance {m : Type → Type} [Monad m] [Host m] {ε : Type} : Host (ExceptT ε m) where
  kind? path := ExceptT.lift (Host.kind? path)
  readBytes path := ExceptT.lift (Host.readBytes path)
  writeBytes path bytes := ExceptT.lift (Host.writeBytes path bytes)
  makeFolder path := ExceptT.lift (Host.makeFolder path)
  filesBelow path := ExceptT.lift (Host.filesBelow path)
  notify notice := ExceptT.lift (Host.notify notice)
  setThreshold level := ExceptT.lift (Host.setThreshold level)
  print text := ExceptT.lift (Host.print text)

namespace Host

variable {m : Type → Type} [Monad m] [Host m]

/-- Whether a path names a file. -/
def isFile (path : Path) : m Bool := do pure ((← kind? path) = some .file)

/-- Whether a path names a folder. -/
def isFolder (path : Path) : m Bool := do pure ((← kind? path) = some .folder)

/-- Whether a path names anything. -/
def exists? (path : Path) : m Bool := do pure (← kind? path).isSome

/-- Shows notices one after another. -/
def notifyAll : List Notice → m Unit
  | [] => pure ()
  | notice :: rest => do
    notify notice
    notifyAll rest

/-- Fails with the given wrapping of an error. -/
def orFail {ε α : Type} (wrap : ε → Failure) (action : m (Except ε α)) : ExceptT Failure m α :=
  ExceptT.mk do
    match ← action with
    | .ok value => pure (.ok value)
    | .error error => pure (.error (wrap error))

/-- The content of a file as text. -/
def readText (task : FileTask) (path : Path) : ExceptT Failure m Text := do
  let bytes ← orFail (.file task path) (readBytes path)
  match Text.ofBytes? bytes with
  | some text => pure text
  | none => throw (.file task path .notText)

/-- Makes a folder and those above it that are missing; the first argument bounds their number. -/
def makeFoldersWithin : Nat → Path → m (Except FileError Unit)
  | 0, _ => pure (.error .notFound)
  | more + 1, path => do
    if path = [] then return .ok ()
    match ← makeFolder path with
    | .ok () => pure (.ok ())
    | .error .notFound =>
      match Path.parent? path with
      | none => pure (.error (.other "failed to create whole tree"))
      | some parent =>
        match ← makeFoldersWithin more parent with
        | .error error => pure (.error error)
        | .ok () =>
          match ← makeFolder path with
          | .ok () => pure (.ok ())
          | .error error => do
            if ← isFolder path then pure (.ok ()) else pure (.error error)
    | .error error => do
      if ← isFolder path then pure (.ok ()) else pure (.error error)

/-- Makes a folder with those above it, unless the path names something or is empty. -/
def ensureFolder (path : Path) : ExceptT Failure m Unit := do
  if path ≠ [] ∧ !(← exists? path) then
    orFail (.file .makeFolder path) (makeFoldersWithin (path.length + 1) path)

/-- Makes or replaces a file, with the folder it stands in. -/
def writeText (path : Path) (content : Text) : ExceptT Failure m Unit := do
  match Path.parent? path with
  | some parent => ensureFolder parent
  | none => pure ()
  orFail (.file .write path) (writeBytes path (Text.toBytes content))

/-- The paths that name files and have an extension, in any ASCII case. -/
def keepFiles (extension : Text) : List Path → m (List Path)
  | [] => pure []
  | path :: rest => do
    let file ← isFile path
    let others ← keepFiles extension rest
    if file && (Path.extension? path).any (Text.equalIgnoringCase · extension) then
      pure (path :: others)
    else pure others

/-- The files below a folder with an extension, in any ASCII case. Dots in front of the extension
do not matter. -/
def filesWithExtension (folder : Path) (extension : Text) : ExceptT Failure m (List Path) := do
  let files ← orFail (fun stop => .walk stop.1 stop.2) (filesBelow folder)
  keepFiles (extension.dropWhile (· = '.')) files

end Host
end Lectern
