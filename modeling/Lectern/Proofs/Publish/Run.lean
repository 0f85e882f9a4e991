import Lectern.Proofs.Publish.Languages
import Lectern.Proofs.Publish.OutputPath
import Lectern.Proofs.Session.Machine
import Lectern.Publish.Run

/-!
# What a run changes

A run first finds out what it would write (`Publisher.outputsOn`), without touching the tree, and
then writes one output after another.
-/

namespace Lectern.Publisher

/-- What a run on a deck file would write, or why there is nothing to write. -/
def outputsOn (publisher : Publisher) (tree : FileTree) (input : Path) :
    Except Failure (List Output) :=
  if Machine.kindOn tree input = some .file then
    match tree.readText input with
    | .ok source => (publisher.render (Document.parse source)).mapError (.render input)
    | .error error => .error (.file .read input error)
  else .error (.fileMissing input)

/-! ## Before the first output -/

open Machine

theorem run_loadDeck (machine : Machine) (input : Path) :
    machine.run (loadDeck input) =
      match machine.tree.readText input with
      | .ok source => (.ok (source, Document.parse source),
          machine.tellAll (Document.parseNotices source (Document.parse source)))
      | .error error => (.error (.file .read input error), machine) := by
  rw [loadDeck, run_bind, run_readText]
  cases machine.tree.readText input with
  | error error => rfl
  | ok source =>
    simp only [Except.mapError]
    rw [run_bind_of_ok (run_notifyAll machine _)]
    rfl

theorem run_checkBefore (publisher : Publisher) (machine : Machine) (source : Text)
    (document : Document) :
    ∃ told : Machine, machine.run (publisher.checkBefore source document) = (.ok (), told) ∧
      told.tree = machine.tree := by
  rw [checkBefore]
  split
  · exact ⟨_, run_notifyAll machine _, tree_tellAll machine _⟩
  · exact ⟨machine, rfl, rfl⟩

/-- A run tells what it finds, and then fails if it has nothing to write or writes its outputs. -/
theorem run_eq (publisher : Publisher) (machine : Machine) (input : Path) (force : Bool) :
    ∃ told : Machine, told.tree = machine.tree ∧
      machine.run (publisher.run input force) =
        match publisher.outputsOn machine.tree input with
        | .ok outputs => told.run (publisher.writeOutputs input force outputs)
        | .error failure => (.error failure, told) := by
  rw [run, run_bind_of_ok (run_isFile machine input), outputsOn]
  by_cases isFile : kindOn machine.tree input = some .file
  · simp only [isFile, decide_true, Bool.not_true, Bool.false_eq_true, if_false, if_true]
    rw [run_bind, run_loadDeck]
    cases machine.tree.readText input with
    | error error => exact ⟨machine, rfl, rfl⟩
    | ok source =>
      obtain ⟨told, checked, sameTree⟩ := run_checkBefore publisher
        (machine.tellAll (Document.parseNotices source (Document.parse source))) source
        (Document.parse source)
      rw [tree_tellAll] at sameTree
      dsimp only
      rw [run_bind_of_ok checked]
      cases publisher.render (Document.parse source) with
      | error error => exact ⟨told, sameTree, rfl⟩
      | ok outputs =>
        refine ⟨told.tellAll (Output.notices outputs), ?_, ?_⟩
        · rw [tree_tellAll, sameTree]
        · exact run_bind_of_ok (run_notifyAll told (Output.notices outputs)) _
  · simp only [isFile, decide_false, Bool.not_false, if_true, if_false]
    exact ⟨machine, rfl, rfl⟩

/-! ## One output -/

section

variable (publisher : Publisher) (input : Path)

/-- The file name of an output. -/
def nameFor (language : Option Text) : Text :=
  outputName input language publisher.config.output.suffix publisher.config.output.extension

theorem outputPath_eq (language : Option Text) :
    publisher.outputPath input language =
      Path.join (publisher.outputFolder input) (publisher.nameFor input language) := rfl

/-- All that the first output of a list can do: it is skipped, it fails, or it is written. -/
theorem run_writeOutputs_cons (machine : Machine) (force : Bool) (output : Output)
    (rest : List Output) :
    (∃ told : Machine, force = false ∧
      (kindOn machine.tree (publisher.outputPath input output.language)).isSome ∧
      told.tree = machine.tree ∧
      machine.run (publisher.writeOutputs input force (output :: rest)) =
        told.run (publisher.writeOutputs input force rest)) ∨
    (∃ failure after,
      machine.run (publisher.writeOutputs input force (output :: rest)) =
        (.error failure, after) ∧
      machine.tree.Extends after.tree ∧ WriteFailure failure) ∨
    ∃ (middle : FileTree) (told : Machine),
      (force = false → kindOn machine.tree (publisher.outputPath input output.language) = none) ∧
      machine.tree.Extends middle ∧
      middle.writeFile (publisher.outputPath input output.language) (Text.toBytes output.latex) =
        .ok told.tree ∧
      machine.run (publisher.writeOutputs input force (output :: rest)) =
        ((told.run (publisher.writeOutputs input force rest)).1.map
            (publisher.outputPath input output.language :: ·),
          (told.run (publisher.writeOutputs input force rest)).2) := by
  rw [writeOutputs, run_bind_of_ok (run_exists? machine _)]
  split
  · rename_i present
    rw [Bool.and_eq_true, Bool.not_eq_true'] at present
    refine .inl ⟨_, present.1, present.2, ?_, run_bind_of_ok (run_notify machine _) _⟩
    exact tree_tell machine _
  · rename_i absent
    right
    rcases run_writeText_cases machine (publisher.outputPath input output.language) output.latex
      with ⟨failure, after, ran, grows, writes⟩ | ⟨middle, ready, ran, grows, written⟩
    · exact .inl ⟨failure, after, run_bind_of_error ran _, grows, writes⟩
    · right
      refine ⟨middle, ready.tell (.written (publisher.outputPath input output.language)
        (output.language.bind fun code => (Language.englishName code).toOption)), ?_, grows, ?_, ?_⟩
      · rintro rfl
        simpa using absent
      · rw [tree_tell, written]
      · rw [run_bind_of_ok ran, run_bind_of_ok (run_notify ready _), run_bind]
        rcases (ready.tell _).run (publisher.writeOutputs input force rest) with
          ⟨failure | paths, after⟩ <;> rfl

end

end Lectern.Publisher
