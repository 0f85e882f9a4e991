import Lectern.Proofs.Files.FileTree

/-!
# Changes to a file tree

Making folders and writing files take no folder away, so a way that is open stays open and leads to
the same place. A way without steps upwards passes nothing but folders above its end; in a closed
tree these are there as soon as there is an entry at the end, so a file that was there before a
change could be found before it.
-/

namespace Lectern.FileTree

theorem locate_eq_ok_iff {tree : FileTree} {path : Path} {location : Location} :
    tree.locate path = .ok location ↔ path.check = .ok () ∧ tree.follow path = .ok location := by
  rw [locate]
  cases path.check <;> simp [bind, Except.bind]

/-! ## Trees that keep their folders -/

/-- Every folder of the first tree is one of the second, and paths begin at the same places. -/
structure KeepsFolders (before after : FileTree) : Prop where
  working : after.working = before.working
  folders : ∀ location, before.entry? location = some .folder →
    after.entry? location = some .folder

/-- The second tree is the first one with more folders. -/
structure Extends (before after : FileTree) : Prop where
  working : after.working = before.working
  entries : ∀ location, after.entry? location = before.entry? location ∨
    before.entry? location = none ∧ after.entry? location = some .folder
  closed : before.Closed → after.Closed

namespace KeepsFolders

variable {before after : FileTree}

theorem refl (tree : FileTree) : KeepsFolders tree tree := ⟨rfl, fun _ folder => folder⟩

theorem trans {middle : FileTree} (first : KeepsFolders before middle)
    (second : KeepsFolders middle after) : KeepsFolders before after :=
  ⟨second.working.trans first.working,
    fun location folder => second.folders location (first.folders location folder)⟩

theorem put {tree : FileTree} {location : Location} (below : location ≠ [])
    (noFolder : tree.entry? location ≠ some .folder) (entry : Entry) :
    KeepsFolders tree (tree.put location entry) := by
  refine ⟨rfl, ?_⟩
  intro other folder
  have differs : other ≠ location := by
    rintro rfl
    exact noFolder folder
  rw [entry?_put below, if_neg differs, folder]

variable (keeps : KeepsFolders before after)
include keeps

theorem start (path : Path) : after.start path = before.start path := by
  rw [FileTree.start, FileTree.start, keeps.working]

theorem destination (path : Path) : after.destination path = before.destination path := by
  rw [FileTree.destination, FileTree.destination, keeps.start]

theorem isFolder {location : Location} (folder : before.IsFolder location) :
    after.IsFolder location :=
  IsFolder.of_there folder (keeps.folders location folder.there)

theorem passes {here : Location} {parts : List Text} (passes : before.Passes here parts) :
    after.Passes here parts := by
  induction parts generalizing here with
  | nil => trivial
  | cons part rest ih => exact ⟨keeps.isFolder passes.1, ih passes.2⟩

theorem reaches {path : Path} (reaches : before.Reaches path) : after.Reaches path := by
  refine ⟨?_, ?_⟩
  · rw [keeps.start]
    exact keeps.passes reaches.1
  · rw [keeps.destination]
    exact keeps.isFolder reaches.2

/-- A way that is open stays open and leads to the same place. -/
theorem follow {path : Path} {location : Location} (followed : before.follow path = .ok location) :
    after.follow path = .ok location := by
  obtain ⟨passes, arrived⟩ := foldlM_step_eq_ok_iff.mp followed
  refine foldlM_step_eq_ok_iff.mpr ?_
  have started := keeps.start path
  rw [FileTree.start, FileTree.start] at started
  rw [started]
  exact ⟨keeps.passes passes, arrived⟩

theorem locate {path : Path} {location : Location} (located : before.locate path = .ok location) :
    after.locate path = .ok location := by
  rw [locate_eq_ok_iff] at located ⊢
  exact ⟨located.1, keeps.follow located.2⟩

end KeepsFolders

namespace Extends

theorem refl (tree : FileTree) : Extends tree tree :=
  ⟨rfl, fun _ => .inl rfl, fun closed => closed⟩

variable {before after : FileTree}

theorem trans {middle : FileTree} (first : Extends before middle)
    (second : Extends middle after) : Extends before after := by
  refine ⟨second.working.trans first.working, ?_, fun closed => second.closed (first.closed closed)⟩
  intro location
  rcases second.entries location with same | ⟨vacant, folder⟩
  · rw [same]
    exact first.entries location
  · rcases first.entries location with same | ⟨vacantBefore, -⟩
    · exact .inr ⟨same ▸ vacant, folder⟩
    · exact .inr ⟨vacantBefore, folder⟩

variable (grows : Extends before after)
include grows

theorem kept {location : Location} {entry : Entry}
    (found : before.entry? location = some entry) : after.entry? location = some entry := by
  rcases grows.entries location with same | ⟨vacant, -⟩
  · rw [same, found]
  · rw [vacant] at found
    cases found

theorem keepsFolders : KeepsFolders before after :=
  ⟨grows.working, fun _ => grows.kept⟩

/-- No file is new. -/
theorem file_iff {location : Location} {bytes : ByteArray} :
    after.entry? location = some (.file bytes) ↔ before.entry? location = some (.file bytes) := by
  constructor
  · intro found
    rcases grows.entries location with same | ⟨-, folder⟩
    · rwa [same] at found
    · rw [folder] at found
      cases found
  · exact grows.kept

end Extends

/-! ## Steps back -/

theorem prefix_arrive {parts : List Text} (noUp : ['.', '.'] ∉ parts) (here : Location) :
    here <+: arrive here parts := by
  induction parts generalizing here with
  | nil => exact List.prefix_refl here
  | cons part rest ih =>
    rw [List.mem_cons, not_or] at noUp
    have further : here <+: move here part := by
      rw [move]
      split
      · exact List.prefix_refl here
      · split
        · rename_i up
          exact absurd up.symm noUp.1
        · exact List.prefix_append ..
    exact further.trans (ih noUp.2 (move here part))

/-- A way without steps upwards that is open in one tree is open in any other that has folders
all along it. -/
theorem Passes.of_folders {tree other : FileTree} {here : Location} {parts : List Text}
    (noUp : ['.', '.'] ∉ parts) (passes : other.Passes here parts)
    (folders : ∀ location, location <+: arrive here parts →
      tree.entry? location = some .folder) : tree.Passes here parts := by
  induction parts generalizing here with
  | nil => trivial
  | cons part rest ih =>
    have began := folders here (prefix_arrive noUp here)
    rw [List.mem_cons, not_or] at noUp
    exact ⟨IsFolder.of_there passes.1 began, ih noUp.2 passes.2 folders⟩

/-- A folder that a path reaches in a later tree is reached before, if something was in it. -/
theorem KeepsFolders.reaches_of_entry {before after : FileTree} (keeps : KeepsFolders before after)
    (closed : before.Closed) {folder : Path} (noUp : ['.', '.'] ∉ folder.steps)
    (reaches : after.Reaches folder) {name : Text} {entry : Entry}
    (found : before.entry? (after.destination folder ++ [name]) = some entry) :
    before.Reaches folder := by
  have isFolder : before.entry? (after.destination folder) = some .folder := by
    have parent := closed _ _ found
    rwa [List.dropLast_concat] at parent
  rw [keeps.destination] at isFolder
  have passes := reaches.1
  rw [keeps.start] at passes
  refine ⟨passes.of_folders noUp ?_, ?_⟩
  · exact fun location above => closed.folder_of_prefix above isFolder
  · rw [← keeps.destination] at isFolder ⊢
    exact IsFolder.of_there reaches.2 isFolder

/-! ## Finding -/

section

variable {tree : FileTree} {path : Path} {location : Location}

/-- An entry is found by a path that leads to it. -/
theorem find_of_locate (located : tree.locate path = .ok location) {found : Option Entry}
    {other : FileTree} (looked : other.lookUp location = .ok found) {entry : Entry}
    (there : tree.entry? location = some entry) : tree.find path = .ok (location, entry) := by
  rw [find, located]
  simp [bind, Except.bind, lookUp_of_lookUp looked, there]

theorem find_eq_ok_iff {entry : Entry} :
    tree.find path = .ok (location, entry) ↔
      tree.locate path = .ok location ∧ tree.lookUp location = .ok (some entry) := by
  rw [find]
  cases located : tree.locate path with
  | error error => simp [bind, Except.bind]
  | ok place =>
    cases looked : tree.lookUp place with
    | error error =>
      simp only [looked, bind, Except.bind, reduceCtorEq, Except.ok.injEq, false_iff, not_and]
      rintro rfl
      simp [looked]
    | ok there =>
      rcases there with _ | other
      · simp only [looked, bind, Except.bind, reduceCtorEq, Except.ok.injEq, false_iff, not_and]
        rintro rfl
        simp [looked]
      · simp only [looked, bind, Except.bind, Except.ok.injEq, Prod.mk.injEq]
        constructor
        · rintro ⟨rfl, rfl⟩
          exact ⟨rfl, looked⟩
        · rintro ⟨rfl, found⟩
          exact ⟨rfl, Option.some.inj (Except.ok.inj (looked.symm.trans found))⟩

theorem of_find_eq_ok {entry : Entry} (found : tree.find path = .ok (location, entry)) :
    tree.locate path = .ok location ∧ tree.entry? location = some entry :=
  (find_eq_ok_iff.mp found).imp_right entry?_eq_of_lookUp

theorem readFile_of_find {bytes : ByteArray}
    (found : tree.find path = .ok (location, .file bytes)) :
    tree.readFile path = .ok bytes := by
  rw [readFile, found]
  rfl

end

/-! ## Making folders and writing files -/

section

variable {tree after : FileTree} {path : Path}

theorem of_locateBare_eq_ok {location : Location} (located : tree.locateBare path = .ok location) :
    path.check = .ok () ∧ (location = [] ∨ tree.follow (dropSlashes path) = .ok location) := by
  rw [locateBare] at located
  cases usable : path.check with
  | error error =>
    rw [usable] at located
    cases located
  | ok accepted =>
    rw [usable] at located
    refine ⟨rfl, ?_⟩
    change (if dropSlashes path = [] then .ok [] else tree.follow (dropSlashes path)) = _ at located
    split at located
    · exact .inl (Except.ok.inj located).symm
    · exact .inr located

/-- A folder that can be made was not there, and is put where the path leads. -/
theorem of_makeFolder_eq_ok (made : tree.makeFolder path = .ok after) :
    ∃ location, tree.locateBare path = .ok location ∧ tree.lookUp location = .ok none ∧
      tree.entry? location = none ∧ after = tree.put location .folder := by
  rw [makeFolder] at made
  cases located : tree.locateBare path with
  | error error =>
    rw [located] at made
    cases made
  | ok location =>
    cases looked : tree.lookUp location with
    | error error => simp [located, looked, bind, Except.bind] at made
    | ok found =>
      cases found with
      | some entry => simp [located, looked, bind, Except.bind] at made
      | none =>
        have result : tree.put location .folder = after := by
          simpa [located, looked, bind, Except.bind] using made
        exact ⟨location, rfl, looked, entry?_eq_of_lookUp looked, result.symm⟩

/-- Making a folder adds it and nothing else. -/
theorem extends_of_makeFolder (made : tree.makeFolder path = .ok after) : Extends tree after := by
  obtain ⟨location, located, -, there, rfl⟩ := of_makeFolder_eq_ok made
  have noFolder : tree.entry? location ≠ some .folder := by simp [there]
  have below := ne_root noFolder
  refine ⟨rfl, ?_, ?_⟩
  · intro other
    rw [entry?_put below]
    split
    · rename_i same
      exact .inr ⟨by rw [same, there], rfl⟩
    · exact .inl rfl
  · intro closed
    have followed := (of_locateBare_eq_ok located).2.resolve_left below
    obtain ⟨folder, name, -, -, reaches, rfl⟩ := of_follow_closed closed followed noFolder
    refine closed.put below ?_ noFolder .folder
    rw [List.dropLast_concat]
    exact reaches.2.there

theorem dropSlashes_eq_self (noSlash : path.getLast? ≠ some '/') : dropSlashes path = path := by
  rw [dropSlashes, ← List.rdropWhile, List.rdropWhile_eq_self_iff]
  intro nonempty
  rw [List.getLast?_eq_some_getLast nonempty] at noSlash
  simpa using noSlash

/-- Writing a file puts it where the path leads, and no folder gives way. -/
theorem of_writeFile_eq_ok {bytes : ByteArray} (written : tree.writeFile path bytes = .ok after) :
    ∃ location, tree.locate path = .ok location ∧
      tree.lookUp location = .ok (tree.entry? location) ∧
      tree.entry? location ≠ some .folder ∧ after = tree.put location (.file bytes) := by
  rw [writeFile] at written
  cases located : tree.locateBare path with
  | error error =>
    rw [located] at written
    cases written
  | ok location =>
    rw [located] at written
    change (if path.getLast? = some '/' then _ else _) = _ at written
    split at written
    · cases written
    rename_i noSlash
    obtain ⟨usable, followed⟩ := of_locateBare_eq_ok located
    cases looked : tree.lookUp location with
    | error error =>
      rw [looked] at written
      cases written
    | ok found =>
      have there := entry?_eq_of_lookUp looked
      rw [looked] at written
      have noFolder : found ≠ some .folder := by
        rintro rfl
        cases written
      have result : after = tree.put location (.file bytes) := by
        rcases found with _ | ⟨old⟩ | _
        · exact (Except.ok.inj written).symm
        · exact (Except.ok.inj written).symm
        · exact absurd rfl noFolder
      have below : location ≠ [] := ne_root (by rwa [there])
      rw [dropSlashes_eq_self noSlash] at followed
      have located := locate_eq_ok_iff.mpr ⟨usable, followed.resolve_left below⟩
      exact ⟨location, located, lookUp_of_lookUp looked, by rwa [there], result⟩

theorem keepsFolders_of_writeFile {bytes : ByteArray}
    (written : tree.writeFile path bytes = .ok after) : KeepsFolders tree after := by
  obtain ⟨location, -, -, noFolder, rfl⟩ := of_writeFile_eq_ok written
  exact .put (ne_root noFolder) noFolder _

/-- A written file is found where it was written. -/
theorem find_of_writeFile {bytes : ByteArray} (written : tree.writeFile path bytes = .ok after) :
    ∃ location, after.find path = .ok (location, .file bytes) := by
  have keeps := keepsFolders_of_writeFile written
  obtain ⟨location, located, looked, noFolder, rfl⟩ := of_writeFile_eq_ok written
  have there : FileTree.entry? (tree.put location (.file bytes)) location = some (.file bytes) := by
    rw [entry?_put (ne_root noFolder), if_pos rfl]
  exact ⟨location, find_of_locate (keeps.locate located) looked there⟩

theorem closed_of_writeFile {bytes : ByteArray} (written : tree.writeFile path bytes = .ok after)
    (closed : tree.Closed) : after.Closed := by
  obtain ⟨location, located, -, noFolder, rfl⟩ := of_writeFile_eq_ok written
  obtain ⟨folder, name, -, -, reaches, rfl⟩ :=
    of_follow_closed closed (locate_eq_ok_iff.mp located).2 noFolder
  refine closed.put (ne_root noFolder) ?_ noFolder _
  rw [List.dropLast_concat]
  exact reaches.2.there

end

end Lectern.FileTree
