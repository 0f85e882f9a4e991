import Lectern.Files.FileTree
import Lectern.Session.Host

/-!
# Machines

A host that is a value: a file tree, and what was shown and printed so far. Running a command on
a machine is a function from machines to answers and machines.
-/

namespace Lectern

/-- A file tree with the notices and output of a session. -/
structure Machine where
  tree : FileTree
  threshold : Level
  notices : List Notice
  output : Text

/-- Commands run on machines. -/
abbrev Simulated := StateM Machine

namespace Machine

/-- A machine before any command, with everything shown. -/
def fresh (tree : FileTree) : Machine := ⟨tree, .trace, [], []⟩

/-- The machine with a changed tree, or the machine as it was with the error. -/
def update (machine : Machine) : Except FileError FileTree → Except FileError Unit × Machine
  | .ok tree => (.ok (), { machine with tree })
  | .error error => (.error error, machine)

/-- What a path names on a tree. -/
def kindOn (tree : FileTree) (path : Path) : Option EntryKind :=
  match tree.find path with
  | .ok (_, .file _) => some .file
  | .ok (_, .folder) => some .folder
  | .error _ => none

instance : Host Simulated where
  kind? path := fun machine => (kindOn machine.tree path, machine)
  readBytes path := fun machine => (machine.tree.readFile path, machine)
  writeBytes path bytes := fun machine => machine.update (machine.tree.writeFile path bytes)
  makeFolder path := fun machine => machine.update (machine.tree.makeFolder path)
  filesBelow path := fun machine => (machine.tree.filesBelow path, machine)
  notify notice := fun machine =>
    ((), if machine.threshold.admits notice.level then
      { machine with notices := machine.notices ++ [notice] } else machine)
  setThreshold threshold := fun machine => ((), { machine with threshold })
  print text := fun machine => ((), { machine with output := machine.output ++ text ++ ['\n'] })

/-- Runs a command that may fail. -/
def run {α : Type} (machine : Machine) (command : ExceptT Failure Simulated α) :
    Except Failure α × Machine :=
  command.run.run machine

end Machine
end Lectern
