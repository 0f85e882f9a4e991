import Lectern.Proofs.Files.Changes
import Lectern.Session.Machine

/-!
# Runs on machines

What running a command on a machine gives, by one equation per operation, and what it does to the
tree. Notices leave the tree alone, making missing folders extends it (`extends_ensureFolder`), and
writing a text either fails after that or puts one file in the end (`run_writeText_cases`).
-/

namespace Lectern

/-- The text of a file. -/
def FileTree.readText (tree : FileTree) (path : Path) : Except FileError Text :=
  match tree.readFile path with
  | .ok bytes => (Text.ofBytes? bytes).elim (.error .notText) .ok
  | .error error => .error error

namespace Machine

/-- The machine after a notice. -/
def tell (machine : Machine) (notice : Notice) : Machine :=
  if machine.threshold.admits notice.level then
    { machine with notices := machine.notices ++ [notice] }
  else machine

/-- The machine after notices one after another. -/
def tellAll (machine : Machine) (notices : List Notice) : Machine := notices.foldl tell machine

@[simp] theorem tree_tell (machine : Machine) (notice : Notice) :
    (machine.tell notice).tree = machine.tree := by
  rw [tell]
  split <;> rfl

@[simp] theorem tree_tellAll (machine : Machine) (notices : List Notice) :
    (machine.tellAll notices).tree = machine.tree := by
  induction notices generalizing machine with
  | nil => rfl
  | cons notice rest ih =>
    rw [tellAll, List.foldl_cons]
    exact (ih (machine.tell notice)).trans (tree_tell machine notice)

/-! ## Equations -/

section

variable {α β : Type} (machine : Machine)

theorem run_bind (command : ExceptT Failure Simulated α)
    (next : α → ExceptT Failure Simulated β) :
    machine.run (command >>= next) =
      match machine.run command with
      | (.ok value, after) => after.run (next value)
      | (.error failure, after) => (.error failure, after) := by
  rw [run, ExceptT.run_bind, StateT.run_bind, run]
  rcases command.run.run machine with ⟨failure | value, after⟩ <;> rfl

theorem run_bind_of_ok {machine after : Machine} {command : ExceptT Failure Simulated α} {value : α}
    (ran : machine.run command = (.ok value, after)) (next : α → ExceptT Failure Simulated β) :
    machine.run (command >>= next) = after.run (next value) := by
  rw [run_bind, ran]

theorem run_bind_of_error {machine after : Machine} {command : ExceptT Failure Simulated α}
    {failure : Failure} (ran : machine.run command = (.error failure, after))
    (next : α → ExceptT Failure Simulated β) :
    machine.run (command >>= next) = (.error failure, after) := by
  rw [run_bind, ran]

@[simp] theorem run_isFile (path : Path) :
    machine.run (Host.isFile path) =
      (.ok (kindOn machine.tree path = some .file), machine) := rfl

@[simp] theorem run_exists? (path : Path) :
    machine.run (Host.exists? path) = (.ok (kindOn machine.tree path).isSome, machine) := rfl

@[simp] theorem run_notify (notice : Notice) :
    machine.run (Host.notify notice) = (.ok (), machine.tell notice) := rfl

@[simp] theorem run_notifyAll (notices : List Notice) :
    machine.run (Host.notifyAll notices) = (.ok (), machine.tellAll notices) := by
  induction notices generalizing machine with
  | nil => rfl
  | cons notice rest ih =>
    rw [Host.notifyAll, run_bind_of_ok (run_notify machine notice), ih]
    rfl

theorem run_orFail {ε : Type} (wrap : ε → Failure) (action : Simulated (Except ε α)) :
    machine.run (Host.orFail wrap action) =
      ((action machine).1.mapError wrap, (action machine).2) := by
  rw [run, Host.orFail, ExceptT.run_mk, StateT.run_bind]
  cases answer : action machine with
  | mk result after =>
    have ran : action.run machine = (result, after) := answer
    rw [ran]
    cases result <;> rfl

theorem run_readText (task : FileTask) (path : Path) :
    machine.run (Host.readText task path) =
      ((machine.tree.readText path).mapError (.file task path), machine) := by
  have read : machine.run (Host.orFail (.file task path) (Host.readBytes path)) =
      ((machine.tree.readFile path).mapError (.file task path), machine) := by
    rw [run_orFail]
    rfl
  rw [Host.readText, run_bind, read, FileTree.readText]
  cases machine.tree.readFile path with
  | error error => rfl
  | ok bytes =>
    simp only [Except.mapError]
    cases Text.ofBytes? bytes <;> rfl

end

/-! ## Making folders -/

/-- An action that only makes folders. -/
def Grows {α : Type} (action : Simulated α) : Prop :=
  ∀ machine : Machine, machine.tree.Extends (action machine).2.tree

namespace Grows

variable {α β : Type}

theorem pure (value : α) : Grows (Pure.pure value : Simulated α) :=
  fun machine => .refl machine.tree

theorem bind {action : Simulated α} {next : α → Simulated β} (first : Grows action)
    (behind : ∀ value, Grows (next value)) : Grows (action >>= next) :=
  fun machine => (first machine).trans (behind _ _)

theorem isFolder (path : Path) : Grows (Host.isFolder path : Simulated Bool) :=
  fun machine => .refl machine.tree

theorem makeFolder (path : Path) : Grows (Host.makeFolder path : Simulated _) := by
  intro machine
  change machine.tree.Extends (machine.update (machine.tree.makeFolder path)).2.tree
  cases made : machine.tree.makeFolder path with
  | error error => exact .refl machine.tree
  | ok tree => exact FileTree.extends_of_makeFolder made

/-- A folder that is there after all is no failure. -/
theorem unlessFolder (path : Path) (error : FileError) :
    Grows (do if ← Host.isFolder path then Pure.pure (.ok ()) else Pure.pure (.error error) :
      Simulated (Except FileError Unit)) := by
  refine (isFolder path).bind ?_
  intro found
  split
  · exact pure _
  · exact pure _

/-- Making a folder with all those above it that are missing only makes folders. -/
theorem makeFoldersWithin (bound : Nat) (path : Path) :
    Grows (Host.makeFoldersWithin bound path : Simulated _) := by
  induction bound generalizing path with
  | zero => exact pure _
  | succ more ih =>
    rw [Host.makeFoldersWithin]
    split
    · exact pure _
    refine (makeFolder path).bind ?_
    intro made
    split
    · exact pure _
    · -- The folder above is missing: it is made first, and then the folder is tried again.
      split
      · exact pure _
      · refine (ih _).bind ?_
        intro above
        split
        · exact pure _
        · refine (makeFolder path).bind ?_
          intro again
          split
          · exact pure _
          · exact unlessFolder path _
    · exact unlessFolder path _

end Grows

theorem extends_ensureFolder (machine : Machine) (path : Path) :
    machine.tree.Extends (machine.run (Host.ensureFolder path)).2.tree := by
  rw [Host.ensureFolder, run_bind_of_ok (run_exists? machine path)]
  split
  · rw [run_orFail]
    exact Grows.makeFoldersWithin (path.length + 1) path machine
  · exact .refl machine.tree

/-- A failure to make a folder or to write a file. -/
inductive WriteFailure : Failure → Prop where
  | folder (path : Path) (error : FileError) : WriteFailure (.file .makeFolder path error)
  | file (path : Path) (error : FileError) : WriteFailure (.file .write path error)

theorem writeFailure_of_ensureFolder {machine after : Machine} {path : Path} {failure : Failure}
    (failed : machine.run (Host.ensureFolder path) = (.error failure, after)) :
    WriteFailure failure := by
  rw [Host.ensureFolder, run_bind_of_ok (run_exists? machine path)] at failed
  split at failed
  · rw [run_orFail] at failed
    have wrapped := (Prod.mk.inj failed).1
    cases made : ((Host.makeFoldersWithin (path.length + 1) path : Simulated _) machine).1 with
    | ok done =>
      rw [made] at wrapped
      cases wrapped
    | error error =>
      rw [made] at wrapped
      rw [← Except.error.inj wrapped]
      exact .folder path error
  · cases failed

/-- Writing bytes succeeds only if the tree takes the file. -/
theorem of_run_writeBytes_eq_ok {machine after : Machine} {wrap : FileError → Failure}
    {path : Path} {bytes : ByteArray}
    (wrote : machine.run (Host.orFail wrap (Host.writeBytes path bytes)) = (.ok (), after)) :
    machine.tree.writeFile path bytes = .ok after.tree := by
  have answer : (Host.writeBytes path bytes : Simulated _) machine =
      machine.update (machine.tree.writeFile path bytes) := rfl
  rw [run_orFail, answer] at wrote
  cases written : machine.tree.writeFile path bytes with
  | error error =>
    rw [written] at wrote
    cases wrote
  | ok tree =>
    rw [written] at wrote
    cases wrote
    rfl

/-- Writing a text makes folders, and then fails or writes the file. -/
theorem run_writeText_cases (machine : Machine) (path : Path) (content : Text) :
    (∃ failure after, machine.run (Host.writeText path content) = (.error failure, after) ∧
      machine.tree.Extends after.tree ∧ WriteFailure failure) ∨
    ∃ middle after, machine.run (Host.writeText path content) = (.ok (), after) ∧
      machine.tree.Extends middle ∧
      middle.writeFile path (Text.toBytes content) = .ok after.tree := by
  have writes (ready : Machine) (grows : machine.tree.Extends ready.tree)
      (same : machine.run (Host.writeText path content) = ready.run
        (Host.orFail (.file .write path) (Host.writeBytes path (Text.toBytes content)))) :
      (∃ failure after, machine.run (Host.writeText path content) = (.error failure, after) ∧
        machine.tree.Extends after.tree ∧ WriteFailure failure) ∨
      ∃ middle after, machine.run (Host.writeText path content) = (.ok (), after) ∧
        machine.tree.Extends middle ∧
        middle.writeFile path (Text.toBytes content) = .ok after.tree := by
    have answer : (Host.writeBytes path (Text.toBytes content) : Simulated _) ready =
        ready.update (ready.tree.writeFile path (Text.toBytes content)) := rfl
    rw [same, run_orFail, answer]
    cases written : ready.tree.writeFile path (Text.toBytes content) with
    | error error => exact .inl ⟨_, ready, rfl, grows, .file path error⟩
    | ok tree => exact .inr ⟨ready.tree, { ready with tree }, rfl, grows, written⟩
  cases parent : path.parent? with
  | none =>
    refine writes machine (.refl machine.tree) ?_
    rw [Host.writeText, parent]
  | some folder =>
    have grows := extends_ensureFolder machine folder
    have same : Host.writeText path content = (do
        Host.ensureFolder folder
        Host.orFail (.file .write path) (Host.writeBytes path (Text.toBytes content)) :
      ExceptT Failure Simulated Unit) := by
      rw [Host.writeText, parent]
    rcases ensured : machine.run (Host.ensureFolder folder) with ⟨failure | made, ready⟩
    · rw [ensured] at grows
      refine .inl ⟨failure, ready, ?_, grows, writeFailure_of_ensureFolder ensured⟩
      rw [same, run_bind_of_error ensured]
    · rw [ensured] at grows
      refine writes ready grows ?_
      rw [same, run_bind_of_ok ensured]

end Machine
end Lectern
