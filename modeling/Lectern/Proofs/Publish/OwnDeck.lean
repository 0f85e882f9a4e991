import Lectern.Proofs.Publish.Frame

/-!
# Outputs beside their deck

The suffix is never empty, so the name of an output has a dot further behind its stem than the name
of the deck file has (`outputName_ne_fileName`). Every write of a run goes to a place with another
name than that of the deck file, and making folders touches no file. So each step of a run keeps the
deck file (`KeepsNamed`), whatever the folder for outputs is and whether or not the run succeeds.
-/

namespace Lectern

/-! ## Files of one name -/

namespace FileTree

/-- Every folder of the first tree is one of the second, and so is every file with this name. -/
structure KeepsNamed (name : Text) (before after : FileTree) : Prop where
  folders : before.KeepsFolders after
  files : ∀ folder bytes, before.entry? (folder ++ [name]) = some (.file bytes) →
    after.entry? (folder ++ [name]) = some (.file bytes)

namespace KeepsNamed

variable {name : Text} {before middle after : FileTree}

theorem refl (tree : FileTree) : KeepsNamed name tree tree := ⟨.refl tree, fun _ _ there => there⟩

theorem trans (first : KeepsNamed name before middle) (second : KeepsNamed name middle after) :
    KeepsNamed name before after :=
  ⟨first.folders.trans second.folders,
    fun folder bytes there => second.files folder bytes (first.files folder bytes there)⟩

theorem of_extends (grows : before.Extends after) : KeepsNamed name before after :=
  ⟨grows.keepsFolders, fun _ _ => grows.kept⟩

/-- Writing a file of another name. -/
theorem of_writeFile {folder : Path} {other : Text} (isName : Path.IsName other)
    (differs : other ≠ name) {bytes : ByteArray}
    (written : before.writeFile (Path.join folder other) bytes = .ok after) :
    KeepsNamed name before after := by
  refine ⟨keepsFolders_of_writeFile written, ?_⟩
  intro place content there
  obtain ⟨location, located, -, noFolder, rfl⟩ := of_writeFile_eq_ok written
  obtain ⟨-, rfl⟩ := (follow_join_eq_ok_iff folder isName).mp (locate_eq_ok_iff.mp located).2
  have elsewhere : place ++ [name] ≠ before.destination folder ++ [other] := by
    intro same
    exact differs (by simpa using (List.append_inj' same rfl).2.symm)
  rw [entry?_put (ne_root noFolder), if_neg elsewhere, there]

/-- A file found by this name is found with the same content. -/
theorem find (keeps : KeepsNamed name before after) (closed : before.Closed) {path : Path}
    (named : path.fileName? = some name) {location : Location} {bytes : ByteArray}
    (found : before.find path = .ok (location, .file bytes)) :
    after.find path = .ok (location, .file bytes) := by
  obtain ⟨located, looked⟩ := find_eq_ok_iff.mp found
  have noFolder : before.entry? location ≠ some .folder := by
    simp [entry?_eq_of_lookUp looked]
  obtain ⟨folder, last, -, isNamed, -, rfl⟩ :=
    of_follow_closed closed (locate_eq_ok_iff.mp located).2 noFolder
  obtain rfl : name = last := Option.some.inj (named.symm.trans isNamed)
  have kept := keeps.files _ bytes (entry?_eq_of_lookUp looked)
  refine find_eq_ok_iff.mpr ⟨keeps.folders.locate located, ?_⟩
  rw [lookUp_of_lookUp looked, kept]

end KeepsNamed
end FileTree

namespace Publisher

open Machine

/-! ## Names -/

/-- With a suffix, an output never has the name of its deck file. -/
theorem outputName_ne_fileName {input : Path} {name : Text} (named : input.fileName? = some name)
    {suffix : Text} (written : suffix ≠ []) (language : Option Text) (extension : Text) :
    outputName input language suffix extension ≠ name := by
  have stem : input.stem = (Path.splitName name).1 := by
    rw [Path.stem, named]
    rfl
  obtain ⟨c, more, lead⟩ : ∃ c more, language.elim [] ('_' :: ·) ++ suffix = c :: more :=
    List.exists_cons_of_ne_nil (List.append_ne_nil_of_right_ne_nil _ written)
  have output : outputName input language suffix extension =
      input.stem ++ c :: (more ++ '.' :: extension.dropWhile (· = '.')) := by
    rw [outputName, List.append_assoc _ _ suffix, lead]
    simp
  intro same
  rw [output, stem] at same
  rcases Path.splitName_cases name with whole | ⟨before, behind, noDot, shape, split⟩
  · -- The stem is the whole name, and something stands behind it.
    rw [whole] at same
    exact List.cons_ne_nil _ _ (List.append_right_eq_self.mp same)
  · -- Behind the stem the name has its last dot, and the output has one further behind.
    rw [split, shape, List.append_cancel_left_eq, List.cons.injEq] at same
    exact noDot (by simp [← same.2])

/-- The outputs of a deck file, one for each language without slashes, are told apart from each
other and from the deck file, and no run changes the deck file. -/
structure OutputsApart (publisher : Publisher) (input : Path) (name : Text) : Prop where
  distinct : ∀ language other : Option Text, (∀ tag ∈ language, '/' ∉ tag) →
    (∀ tag ∈ other, '/' ∉ tag) → language ≠ other →
      ¬ (publisher.outputPath input language).Same (publisher.outputPath input other)
  otherName : ∀ language : Option Text, (∀ tag ∈ language, '/' ∉ tag) →
    ∃ output, (publisher.outputPath input language).fileName? = some output ∧ output ≠ name
  deckKept : ∀ machine : Machine, machine.tree.Closed → TagsSlashFree machine.tree input →
    ∀ force location bytes, machine.tree.find input = .ok (location, .file bytes) →
      (machine.run (publisher.run input force)).2.tree.find input = .ok (location, .file bytes)

/-! ## Runs -/

/-- Writing outputs under other names keeps the files of a name, also where it fails. -/
theorem keepsNamed_writeOutputs (publisher : Publisher) (input : Path) (force : Bool) {name : Text}
    {outputs : List Output}
    (names : ∀ output ∈ outputs, Path.IsName (publisher.nameFor input output.language) ∧
      publisher.nameFor input output.language ≠ name) (machine : Machine) :
    machine.tree.KeepsNamed name
      (machine.run (publisher.writeOutputs input force outputs)).2.tree := by
  induction outputs generalizing machine with
  | nil => exact .refl machine.tree
  | cons output rest ih =>
    obtain ⟨⟨isName, differs⟩, namesBehind⟩ := List.forall_mem_cons.mp names
    rcases run_writeOutputs_cons publisher input machine force output rest with
      ⟨told, -, -, sameTree, ran⟩ | ⟨failure, after, ran, grows, -⟩ |
      ⟨middle, told, -, grows, wrote, ran⟩
    · rw [ran, ← sameTree]
      exact ih namesBehind told
    · rw [ran]
      exact .of_extends grows
    · rw [ran]
      rw [outputPath_eq] at wrote
      have keeps :=
        (FileTree.KeepsNamed.of_extends grows).trans (.of_writeFile isName differs wrote)
      exact keeps.trans (ih namesBehind told)

section

variable {config : Config} {requested : Option Text} {publisher : Publisher}
  (made : ofConfig config requested = .ok publisher)
  (noSlash : '/' ∉ config.output.extension) {input : Path} {name : Text}
  (named : input.fileName? = some name)
include made noSlash named

omit noSlash in
theorem nameFor_ne_fileName (language : Option Text) : publisher.nameFor input language ≠ name := by
  obtain ⟨rfl, usable⟩ := of_ofConfig_eq_ok made
  exact outputName_ne_fileName named (suffix_ne_nil usable) language config.output.extension

/-- A deck file whose tags have no slashes is kept by a run on it. -/
theorem keepsNamed_run (force : Bool) (machine : Machine)
    (tags : TagsSlashFree machine.tree input) :
    machine.tree.KeepsNamed name (machine.run (publisher.run input force)).2.tree := by
  obtain ⟨told, sameTree, ran⟩ := run_eq publisher machine input force
  cases planned : publisher.outputsOn machine.tree input with
  | error failure =>
    simp only [planned] at ran
    rw [ran, ← sameTree]
    exact .refl told.tree
  | ok outputs =>
    simp only [planned] at ran
    rw [ran, ← sameTree]
    refine keepsNamed_writeOutputs publisher input force (fun output member => ?_) told
    exact ⟨isName_of_outputsOn made noSlash named tags planned output member,
      nameFor_ne_fileName made named output.language⟩

/-- The outputs of a deck file never overwrite each other or the deck file, for every usable
configuration with an extension without slashes. -/
theorem outputsApart : publisher.OutputsApart input name where
  distinct := by
    intro language other noSlashInTag noSlashInOther differs same
    have isName := isName_nameFor made noSlash named noSlashInTag
    have isOther := isName_nameFor made noSlash named noSlashInOther
    have sameSteps := same.2
    rw [outputPath_eq, outputPath_eq, Path.steps_join _ isName.front_eq_nil,
      Path.steps_join _ isOther.front_eq_nil, isName.steps_eq, isOther.steps_eq] at sameSteps
    have sameName : publisher.nameFor input language = publisher.nameFor input other := by
      simpa using sameSteps
    exact differs (outputName_inj sameName)
  otherName := by
    intro language noSlashInTag
    have isName := isName_nameFor made noSlash named noSlashInTag
    exact ⟨_, isName.fileName?_join _, nameFor_ne_fileName made named language⟩
  deckKept := by
    intro machine closed tags force location bytes found
    exact (keepsNamed_run made noSlash named force machine tags).find closed named found

end

/-- A suffix and an extension of little but dots, with outputs in the folder of the deck. -/
theorem outputsApart_dots :
    let config := { Config.standard with output := ⟨some "./decks", ".", "..vmd"⟩ }
    ofConfig config none = .ok ⟨config, none⟩ ∧ '/' ∉ config.output.extension ∧
      Path.fileName? "decks/talk.vmd" = some ("talk.vmd" : Text) ∧
      (Publisher.mk config none).OutputsApart "decks/talk.vmd" "talk.vmd" := by
  intro config
  have made : ofConfig config none = .ok ⟨config, none⟩ := rfl
  have noSlash : '/' ∉ config.output.extension := by decide
  have named : Path.fileName? "decks/talk.vmd" = some ("talk.vmd" : Text) := by decide
  exact ⟨made, noSlash, named, outputsApart made noSlash named⟩

end Publisher
end Lectern
