import Lectern.Cli.Run

/-!
# The program

The host of the program is a disk and a terminal: notices go to the error stream with the time
since the start of the program, output to the output stream.
-/

namespace Lectern.Main

/-- The threshold for notices and the time at which the program started. -/
structure Terminal where
  threshold : Level
  started : Nat

/-- Commands run on a disk and a terminal. -/
abbrev Live := StateT Terminal IO

/-- The number by which the system tells that a path leads through a file. -/
def notFolderCode : UInt32 := 20

/-- The number by which the system tells that a name is too long. -/
def nameTooLongCode : UInt32 := 36

/-- The file error behind an error of the system. -/
def fileError : IO.Error → FileError
  | .noFileOrDirectory .. => .notFound
  | .alreadyExists .. => .alreadyExists
  | .inappropriateType _ code _ => if code = notFolderCode then .notFolder else .isFolder
  | .invalidArgument _ code details =>
    if code = nameTooLongCode then .nameTooLong else .other details
  | error => .other (toString error)

/-- The answer of an action on a path of a disk, or the file error that it stops with. -/
def attempt {α : Type} (path : Path) (action : IO α) : Live (Except FileError α) := do
  match path.check with
  | .error error => pure (.error error)
  | .ok () =>
    match ← action.toBaseIO with
    | .ok value => pure (.ok value)
    | .error error => pure (.error (fileError error))

/-- The bytes of a file on the disk. -/
def bytesOnDisk (path : Path) : IO ByteArray :=
  IO.FS.withFile (String.ofList path) .read fun handle => handle.readBinToEnd

/-- What a path names on the disk: only a folder can be listed, and only a file be read. -/
def kindOnDisk? (path : Path) : IO (Option EntryKind) := do
  if path.check matches .error _ then return none
  try
    let metadata ← (← IO.FS.realPath (String.ofList path)).metadata
    match metadata.type with
    | .file => pure (some .file)
    | .dir => pure (some .folder)
    | _ => pure none
  catch _ => pure none

/-- What a folder on the disk holds by name, and whether it is a folder itself and no link. -/
def listOnDisk (path : Path) : IO (List (Text × Bool)) := do
  let folder ← IO.FS.realPath (String.ofList path)
  let entries ← folder.readDir
  let names := (entries.toList.map fun entry => entry.fileName.toList).mergeSort Text.atMost
  names.mapM fun name => do
    try
      let metadata ← (folder / String.ofList name).symlinkMetadata
      pure (name, metadata.type == .dir)
    catch _ => pure (name, false)

/-- What is below a folder and no folder, each folder by name and at once with what it holds, or the
path at which the walk stops. -/
partial def walkOnDisk (path : Path) : ExceptT (Path × FileError) Live (List Path) := do
  let listed : Live (Except FileError _) := attempt path (listOnDisk path)
  let entries ← ExceptT.adapt (fun error => (path, error)) (ExceptT.mk listed)
  let below ← entries.mapM fun (name, isFolder) =>
    if isFolder then walkOnDisk (Path.join path name) else pure [Path.join path name]
  pure below.flatten

/-- Two digits of a number. -/
def twoDigits (n : Nat) : Text := Text.ofNat (n / 10 % 10) ++ Text.ofNat (n % 10)

/-- A span of milliseconds in hours, minutes, seconds and thousandths. -/
def clock (span : Nat) : Text :=
  twoDigits (span / 3600000) ++ ":" ++ twoDigits (span / 60000 % 60) ++ ":"
    ++ twoDigits (span / 1000 % 60) ++ "." ++ Text.ofNat (span / 100 % 10)
    ++ twoDigits (span % 100)

instance : Host Live where
  kind? path := kindOnDisk? path
  readBytes path := attempt path (bytesOnDisk path)
  writeBytes path bytes := attempt path (IO.FS.writeBinFile (String.ofList path) bytes)
  makeFolder path := attempt path (IO.FS.createDir (String.ofList path))
  filesBelow path := do
    if (← kindOnDisk? path) = some .file then pure (.ok [path]) else (walkOnDisk path).run
  notify notice := do
    let terminal ← get
    if terminal.threshold.admits notice.level then
      let now ← IO.monoMsNow
      IO.eprintln (String.ofList (notice.line (clock (now - terminal.started))))
  setThreshold threshold := modify fun terminal => { terminal with threshold }
  print text := IO.println (String.ofList text)

end Lectern.Main

open Lectern in
/-- Runs the program with its arguments. -/
def main (arguments : List String) : IO UInt32 := do
  let started ← IO.monoMsNow
  let (code, _) ←
    (Cli.run (m := Main.Live) (arguments.map String.toList)).run ⟨.info, started⟩
  pure (UInt32.ofNat code.toNat)
