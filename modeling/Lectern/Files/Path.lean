import Lectern.Files.FileError

/-!
# Paths

A path is the text that names a file or folder. Its parts stand between slashes; empty parts and
single dots count for nothing except at the front, where a slash makes the path absolute and a
single dot is kept. Names and paths have a greatest length, and no path that can be used holds the
character NUL.
-/

namespace Lectern

/-- The text that names a file or folder. -/
abbrev Path := Text

namespace Path

/-- The greatest number of bytes in a name. -/
def nameLimit : Nat := 255

/-- The greatest number of bytes in a path. -/
def lengthLimit : Nat := 4095

/-- Refuses a path that cannot name anything, whatever files there are. -/
def check (path : Path) : Except FileError Unit :=
  if path.any fun c => c.toNat = 0 then .error .nulInName
  else if path = [] then .error .notFound
  else if lengthLimit < Text.byteLength path then .error .nameTooLong
  else .ok ()

/-- Whether a part between slashes counts for nothing. -/
def isIdle (part : Text) : Bool := part = [] || part = ['.']

/-- Whether a path begins at the root. -/
def isAbsolute (path : Path) : Bool := path.head? = some '/'

/-- What stands before the parts of a path: a slash, a single dot, or nothing. -/
def front (path : Path) : Text :=
  match path with
  | '/' :: _ => ['/']
  | ['.'] => ['.']
  | '.' :: '/' :: _ => ['.']
  | _ => []

/-- The parts without the idle ones at their end. -/
def dropIdleEnd (parts : List Text) : List Text := (parts.reverse.dropWhile isIdle).reverse

/-- The parts behind the front of a path, up to the last one that counts. -/
def parts (path : Path) : List Text :=
  dropIdleEnd ((path.drop path.front.length).splitOn '/')

/-- The path without its last part; `none` for the root and for the empty path. -/
def parent? (path : Path) : Option Path :=
  match path.parts with
  | [] => if path.front = ['.'] then some [] else none
  | parts => some (path.front ++ ['/'].intercalate (dropIdleEnd parts.dropLast))

/-- The last part, unless it leads upwards. -/
def fileName? (path : Path) : Option Text :=
  path.parts.getLast?.filter (· ≠ ['.', '.'])

/-- A file name before and behind its last dot. A name with no dot, or with its only dot in
front, has nothing behind it. -/
def splitName (name : Text) : Text × Option Text :=
  let behind := (name.reverse.takeWhile (· ≠ '.')).reverse
  let before := (name.reverse.dropWhile (· ≠ '.')).reverse.dropLast
  if '.' ∈ name ∧ before ≠ [] then (before, some behind) else (name, none)

/-- The file name before its last dot; empty for a path without a file name. -/
def stem (path : Path) : Text := (path.fileName?.map fun name => (splitName name).1).getD []

/-- The file name behind its last dot. -/
def extension? (path : Path) : Option Text := path.fileName?.bind fun name => (splitName name).2

/-- A path inside a folder; an absolute one stands for itself. -/
def join (folder inner : Path) : Path :=
  if inner.isAbsolute then inner
  else if folder = [] ∨ folder.getLast? = some '/' then folder ++ inner
  else folder ++ '/' :: inner

/-- The path that leads from a folder through further names. -/
def through (folder : Path) (names : List Text) : Path := names.foldl join folder

end Path
end Lectern
