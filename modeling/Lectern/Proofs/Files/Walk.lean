import Mathlib.Algebra.Order.BigOperators.Group.List
import Mathlib.Algebra.Order.Group.Nat
import Lectern.Proofs.Files.Changes

/-!
# Walks through a file tree

A walk lists each folder by name and goes into a folder as soon as it is met. On a closed tree there
is exactly one such walk below a folder, and it meets what is below in the order of the locations
(`walk_iff`), each entry once. So the files below a folder are those that the walk meets
(`filesBelow_of_walk`).
-/

namespace Lectern.FileTree

section

variable {tree : FileTree}

/-! ## Entries below a folder -/

theorem entry?_of_mem {location : Location} {entry : Entry} (below : location ≠ []) :
    (location, entry) ∈ tree.entries.entries ↔ tree.entry? location = some entry := by
  rw [FileTree.entry?, if_neg below, OrderedMap.get?_eq_some_iff]

/-- The way from a folder to what is below it. -/
theorem below?_eq_some_iff {folder location names : Location} :
    below? folder location = some names ↔ names ≠ [] ∧ location = folder ++ names := by
  have start (way : Location) : folder.isPrefixOf? location = some way ↔
      folder ++ way = location := List.isPrefixOf?_eq_some_iff_append_eq
  rw [below?]
  split
  · rename_i same
    rw [start, List.append_nil] at same
    subst same
    simp
  · rename_i further
    rw [start]
    refine ⟨?_, fun way => way.2.symm⟩
    rintro rfl
    refine ⟨?_, rfl⟩
    rintro rfl
    exact further ((start []).mpr rfl)

/-- What a file below a folder is found as. -/
def foundAs (folder : Location) (path : Path) : Location × Entry → Option Path
  | (location, entry) =>
    match entry, below? folder location with
    | .file _, some names => some (path.through names)
    | _, _ => none

theorem foundAs_eq_some_iff {folder : Location} {entry : Location × Entry} {file : Path} :
    foundAs folder path entry = some file ↔ ∃ bytes names, names ≠ [] ∧
      entry = (folder ++ names, .file bytes) ∧ file = path.through names := by
  obtain ⟨location, bytes | _⟩ := entry
  · cases below : below? folder location with
    | none =>
      have notBelow (names : Location) : ¬ (names ≠ [] ∧ location = folder ++ names) := by
        intro way
        cases below.symm.trans (below?_eq_some_iff.mpr way)
      simp only [foundAs, below, reduceCtorEq, false_iff]
      rintro ⟨other, names, nonempty, same, -⟩
      exact notBelow names ⟨nonempty, (Prod.mk.inj same).1⟩
    | some names =>
      obtain ⟨nonempty, rfl⟩ := below?_eq_some_iff.mp below
      simp only [foundAs, below, Option.some.injEq]
      constructor
      · rintro rfl
        exact ⟨bytes, names, nonempty, rfl, rfl⟩
      · rintro ⟨other, way, -, same, rfl⟩
        rw [List.append_cancel_left (Prod.mk.inj same).1]
  · simp [foundAs]

/-- Whether every folder below a path has a path that can be used, so that a walk can open it. -/
def Walkable (tree : FileTree) (path : Path) : Prop :=
  ∀ location way, tree.find path = .ok (location, .folder) →
    tree.entry? (location ++ way) = some .folder → (path.through way).check = .ok ()

/-- What is below a folder is met by its path. -/
theorem mem_entriesBelow {location : Location} {met : Path} {entry : Entry} :
    (met, entry) ∈ tree.entriesBelow location path ↔ ∃ names ≠ [],
      tree.entry? (location ++ names) = some entry ∧ met = path.through names := by
  rw [entriesBelow, List.mem_filterMap]
  constructor
  · rintro ⟨⟨place, there⟩, member, read⟩
    obtain ⟨names, below, same⟩ := Option.map_eq_some_iff.mp read
    obtain ⟨rfl, rfl⟩ := Prod.mk.inj same
    obtain ⟨nonempty, rfl⟩ := below?_eq_some_iff.mp below
    exact ⟨names, nonempty,
      (entry?_of_mem (List.append_ne_nil_of_right_ne_nil _ nonempty)).mp member, rfl⟩
  · rintro ⟨names, nonempty, found, rfl⟩
    refine ⟨(location ++ names, entry),
      (entry?_of_mem (List.append_ne_nil_of_right_ne_nil _ nonempty)).mpr found, ?_⟩
    dsimp only
    rw [below?_eq_some_iff.mpr ⟨nonempty, rfl⟩]
    rfl

/-- The path of a file that a walk meets. -/
def metFile? : Path × Entry → Option Path
  | (path, .file _) => some path
  | (_, .folder) => none

theorem filterMap_entriesBelow (location : Location) :
    (tree.entriesBelow location path).filterMap metFile? =
      tree.entries.entries.filterMap (foundAs location path) := by
  rw [entriesBelow, List.filterMap_filterMap]
  refine List.filterMap_congr fun pair _ => ?_
  obtain ⟨place, bytes | _⟩ := pair
  · cases below : below? location place <;> simp [foundAs, metFile?, below]
  · cases below : below? location place <;> simp [foundAs, metFile?, below]

/-- A walk meets all files if it can open every folder that it meets; else it stops at one that it
cannot open. -/
theorem filesMet_cases (met : List (Path × Entry)) :
    (∀ folder, (folder, .folder) ∈ met → folder.check = .ok ()) ∧
        filesMet met = .ok (met.filterMap metFile?) ∨
      ∃ folder error, (folder, .folder) ∈ met ∧ folder.check = .error error ∧
        filesMet met = .error (folder, error) := by
  induction met with
  | nil => exact .inl ⟨nofun, rfl⟩
  | cons first rest ih =>
    obtain ⟨here, bytes | _⟩ := first
    · have onward : filesMet ((here, .file bytes) :: rest) =
          (filesMet rest).map fun others => here :: others := rfl
      rcases ih with ⟨usable, files⟩ | ⟨folder, error, member, unusable, stopped⟩
      · refine .inl ⟨fun folder member => ?_, by rw [onward, files]; rfl⟩
        exact usable folder (List.mem_of_ne_of_mem (by simp) member)
      · exact .inr ⟨folder, error, List.mem_cons_of_mem _ member, unusable,
          by rw [onward, stopped]; rfl⟩
    · have opened : filesMet ((here, .folder) :: rest) =
          (here.check.mapError fun error => (here, error)) >>= fun _ => filesMet rest := rfl
      cases check : here.check with
      | error error =>
        exact .inr ⟨here, error, List.mem_cons_self, check, by rw [opened, check]; rfl⟩
      | ok _ =>
        have passed : filesMet ((here, .folder) :: rest) = filesMet rest := by
          rw [opened, check]
          rfl
        rcases ih with ⟨usable, files⟩ | ⟨folder, error, member, unusable, stopped⟩
        · refine .inl ⟨fun folder member => ?_, by rw [passed, files]; rfl⟩
          rcases List.mem_cons.mp member with same | inRest
          · obtain rfl := (Prod.mk.inj same).1
            exact check
          · exact usable folder inRest
        · exact .inr ⟨folder, error, List.mem_cons_of_mem _ member, unusable,
            by rw [passed, stopped]⟩

/-- The files below a folder are found, or a folder is in the way whose path cannot be used. -/
theorem filesBelow_cases {location : Location} (there : tree.find path = .ok (location, .folder)) :
    tree.Walkable path ∧
        tree.filesBelow path = .ok (tree.entries.entries.filterMap (foundAs location path)) ∨
      ∃ way error, tree.entry? (location ++ way) = some .folder ∧
        (path.through way).check = .error error ∧
        tree.filesBelow path = .error (path.through way, error) := by
  have walked : tree.filesBelow path = filesMet (tree.entriesBelow location path) := by
    rw [filesBelow, there]
  rw [walked]
  rcases filesMet_cases (tree.entriesBelow location path) with
    ⟨usable, files⟩ | ⟨folder, error, member, unusable, stopped⟩
  · refine .inl ⟨?_, by rw [files, filterMap_entriesBelow]⟩
    intro place way found isFolder
    obtain ⟨rfl, -⟩ := Prod.mk.inj (Except.ok.inj (there.symm.trans found))
    by_cases self : way = []
    · subst self
      exact (locate_eq_ok_iff.mp (of_find_eq_ok there).1).1
    · exact usable _ (mem_entriesBelow.mpr ⟨way, self, isFolder, rfl⟩)
  · obtain ⟨names, -, isFolder, rfl⟩ := mem_entriesBelow.mp member
    exact .inr ⟨names, error, isFolder, unusable, stopped⟩

theorem filesBelow_of_walkable {location : Location} (walkable : tree.Walkable path)
    (there : tree.find path = .ok (location, .folder)) :
    tree.filesBelow path = .ok (tree.entries.entries.filterMap (foundAs location path)) := by
  rcases filesBelow_cases there with ⟨-, files⟩ | ⟨way, error, isFolder, unusable, -⟩
  · exact files
  · cases unusable.symm.trans (walkable location way there isFolder)

end

/-! ## Walking -/

/-- The names of what a folder holds, in rising order. -/
def namesIn (tree : FileTree) (folder : Location) : List Text :=
  tree.entries.entries.filterMap fun (location, _) =>
    match below? folder location with
    | some [name] => some name
    | _ => none

/-- A walk through names in a folder meets their entries one after another, and behind a folder at
once all that a walk through this one meets. -/
inductive Walk (tree : FileTree) : Location → List Text → List (Location × Entry) → Prop where
  | done (folder : Location) : Walk tree folder [] []
  | file {folder : Location} {name : Text} {names : List Text} {met : List (Location × Entry)}
      {bytes : ByteArray} (found : tree.entry? (folder ++ [name]) = some (.file bytes))
      (onward : Walk tree folder names met) :
      Walk tree folder (name :: names) ((folder ++ [name], .file bytes) :: met)
  | folder {folder : Location} {name : Text} {names : List Text}
      {inside met : List (Location × Entry)}
      (found : tree.entry? (folder ++ [name]) = some .folder)
      (into : Walk tree (folder ++ [name]) (tree.namesIn (folder ++ [name])) inside)
      (onward : Walk tree folder names met) :
      Walk tree folder (name :: names) ((folder ++ [name], .folder) :: (inside ++ met))

section

variable {tree : FileTree} {folder : Location} {name : Text} {names : List Text}
  {met : List (Location × Entry)}

theorem mem_namesIn :
    name ∈ tree.namesIn folder ↔ ∃ entry, tree.entry? (folder ++ [name]) = some entry := by
  have nonempty : folder ++ [name] ≠ [] := by simp
  rw [namesIn, List.mem_filterMap]
  constructor
  · rintro ⟨⟨location, entry⟩, member, read⟩
    dsimp only at read
    split at read
    · rename_i way
      obtain rfl := Option.some.inj read
      obtain ⟨-, rfl⟩ := below?_eq_some_iff.mp way
      exact ⟨entry, (entry?_of_mem nonempty).mp member⟩
    · cases read
  · rintro ⟨entry, found⟩
    refine ⟨(folder ++ [name], entry), (entry?_of_mem nonempty).mpr found, ?_⟩
    have way : below? folder (folder ++ [name]) = some [name] :=
      below?_eq_some_iff.mpr ⟨List.cons_ne_nil name [], rfl⟩
    dsimp only
    rw [way]

/-! ## The order of locations -/

/-- Locations below a folder are ordered as the ways to them. -/
theorem compare_append_left (folder first second : Location) :
    compare (folder ++ first) (folder ++ second) = compare first second := by
  induction folder with
  | nil => rfl
  | cons name folder ih =>
    have self : compare name name = .eq := Std.ReflCmp.compare_self
    rw [List.cons_append, List.cons_append, List.compare_cons_cons, self, ih]
    rfl

theorem compare_of_names {first second : Text} (below : compare first second = .lt)
    (folder way other : Location) :
    compare (folder ++ first :: way) (folder ++ second :: other) = .lt := by
  rw [compare_append_left, List.compare_cons_cons, below]
  rfl

theorem namesIn_rising (tree : FileTree) (folder : Location) :
    (tree.namesIn folder).Pairwise fun a b => compare a b = .lt := by
  refine List.pairwise_filterMap.mpr (tree.entries.rising.imp ?_)
  rintro ⟨location, _⟩ ⟨other, _⟩ rising first read second readToo
  dsimp only at rising read readToo
  split at read
  · rename_i way
    split at readToo
    · rename_i wayToo
      obtain rfl := Option.some.inj read
      obtain rfl := Option.some.inj readToo
      obtain ⟨-, rfl⟩ := below?_eq_some_iff.mp way
      obtain ⟨-, rfl⟩ := below?_eq_some_iff.mp wayToo
      rw [compare_append_left, List.compare_cons_cons] at rising
      rcases Ordering.then_eq_lt.mp rising with below | ⟨-, behind⟩
      · exact below
      · cases behind
    · cases readToo
  · cases read

/-! ## What a walk meets -/

namespace Walk

/-- A walk meets entries below its names. -/
theorem entry_of_mem (walk : tree.Walk folder names met) {pair : Location × Entry}
    (member : pair ∈ met) :
    tree.entry? pair.1 = some pair.2 ∧ ∃ name ∈ names, ∃ way, pair.1 = folder ++ name :: way := by
  induction walk with
  | done => cases member
  | @file folder name names met bytes found onward ih =>
    rcases List.mem_cons.mp member with rfl | behind
    · exact ⟨found, name, List.mem_cons_self .., [], rfl⟩
    · obtain ⟨there, next, among, way⟩ := ih behind
      exact ⟨there, next, List.mem_cons_of_mem _ among, way⟩
  | @folder folder name names inside met found into onward ihInto ihOnward =>
    rcases List.mem_cons.mp member with rfl | behind
    · exact ⟨found, name, List.mem_cons_self .., [], rfl⟩
    · rcases List.mem_append.mp behind with further | later
      · obtain ⟨there, next, -, way, location⟩ := ihInto further
        refine ⟨there, name, List.mem_cons_self .., next :: way, ?_⟩
        rw [location, List.append_assoc, List.singleton_append]
      · obtain ⟨there, next, among, way⟩ := ihOnward later
        exact ⟨there, next, List.mem_cons_of_mem _ among, way⟩

/-- A walk through rising names meets rising locations: a folder comes before what it holds, and all
of that before the next name. -/
theorem rising (walk : tree.Walk folder names met)
    (inOrder : names.Pairwise fun a b => compare a b = .lt) :
    met.Pairwise fun a b => compare a.1 b.1 = .lt := by
  induction walk with
  | done => exact .nil
  | @file folder name names met bytes found onward ih =>
    obtain ⟨first, rest⟩ := List.pairwise_cons.mp inOrder
    refine List.pairwise_cons.mpr ⟨fun pair member => ?_, ih rest⟩
    obtain ⟨-, next, among, way, location⟩ := onward.entry_of_mem member
    rw [location]
    exact compare_of_names (first next among) folder [] way
  | @folder folder name names inside met found into onward ihInto ihOnward =>
    obtain ⟨first, rest⟩ := List.pairwise_cons.mp inOrder
    have before (way : Location) {pair : Location × Entry} (member : pair ∈ met) :
        compare (folder ++ name :: way) pair.1 = .lt := by
      obtain ⟨-, next, among, behind, location⟩ := onward.entry_of_mem member
      rw [location]
      exact compare_of_names (first next among) folder way behind
    refine List.pairwise_cons.mpr ⟨fun pair member => ?_, List.pairwise_append.mpr
      ⟨ihInto (namesIn_rising tree _), ihOnward rest, fun pair member later inMet => ?_⟩⟩
    · rcases List.mem_append.mp member with further | later
      · obtain ⟨-, next, -, way, location⟩ := into.entry_of_mem further
        have start := compare_append_left (folder ++ [name]) [] (next :: way)
        rw [List.append_nil] at start
        rw [location, start]
        rfl
      · exact before [] later
    · obtain ⟨-, next, -, way, location⟩ := into.entry_of_mem member
      rw [location, List.append_assoc]
      exact before (next :: way) inMet

end Walk

/-- In a closed tree everything above an entry is a folder. -/
theorem Closed.folder_above (closed : tree.Closed) {lead way : Location} (further : way ≠ [])
    {entry : Entry} (found : tree.entry? (lead ++ way) = some entry) :
    tree.entry? lead = some .folder := by
  refine closed.folder_of_prefix ?_ (closed _ _ found)
  rw [List.dropLast_append_of_ne_nil further]
  exact List.prefix_append lead _

/-- So the first name on a way to an entry is one of those in the folder. -/
theorem Closed.mem_namesIn_of_way (closed : tree.Closed) {way : Location} {entry : Entry}
    (found : tree.entry? (folder ++ name :: way) = some entry) : name ∈ tree.namesIn folder := by
  rw [mem_namesIn]
  by_cases last : way = []
  · subst last
    exact ⟨entry, found⟩
  · have further : tree.entry? ((folder ++ [name]) ++ way) = some entry := by
      rwa [List.append_assoc, List.singleton_append]
    exact ⟨.folder, closed.folder_above last further⟩

/-- In a closed tree a walk meets all that is below its names. -/
theorem Walk.complete (walk : tree.Walk folder names met) (closed : tree.Closed)
    (among : name ∈ names) {way : Location} {entry : Entry}
    (found : tree.entry? (folder ++ name :: way) = some entry) :
    (folder ++ name :: way, entry) ∈ met := by
  induction walk generalizing name way with
  | done => cases among
  | @file folder first names met bytes isFile onward ih =>
    rcases List.mem_cons.mp among with rfl | later
    · have last : way = [] := by
        by_contra nonempty
        have further : tree.entry? ((folder ++ [name]) ++ way) = some entry := by
          rwa [List.append_assoc, List.singleton_append]
        rw [closed.folder_above nonempty further] at isFile
        cases isFile
      subst last
      obtain rfl := Option.some.inj (isFile.symm.trans found)
      exact List.mem_cons_self ..
    · exact List.mem_cons_of_mem _ (ih later found)
  | @folder folder first names inside met isFolder into onward ihInto ihOnward =>
    rcases List.mem_cons.mp among with rfl | later
    · cases way with
      | nil =>
        obtain rfl := Option.some.inj (isFolder.symm.trans found)
        exact List.mem_cons_self ..
      | cons next way =>
        have whole : folder ++ name :: next :: way = (folder ++ [name]) ++ next :: way := by
          rw [List.append_assoc, List.singleton_append]
        rw [whole] at found ⊢
        have further := ihInto (closed.mem_namesIn_of_way found) found
        exact List.mem_cons_of_mem _ (List.mem_append_left _ further)
    · exact List.mem_cons_of_mem _ (List.mem_append_right _ (ihOnward later found))

/-- There is a walk through any names in a folder, since every folder on the way is deeper. -/
theorem exists_walk_of_depth (depth : Nat)
    (bound : ∀ pair ∈ tree.entries.entries, pair.1.length ≤ folder.length + depth)
    (there : ∀ name ∈ names, name ∈ tree.namesIn folder) : ∃ met, tree.Walk folder names met := by
  induction depth generalizing folder names with
  | zero =>
    cases names with
    | nil => exact ⟨[], .done folder⟩
    | cons name names =>
      obtain ⟨entry, found⟩ := mem_namesIn.mp (there name (List.mem_cons_self ..))
      have short := bound _ ((entry?_of_mem (by simp)).mpr found)
      rw [List.length_append, List.length_singleton] at short
      omega
  | succ depth ihDepth =>
    induction names with
    | nil => exact ⟨[], .done folder⟩
    | cons name names ih =>
      obtain ⟨met, onward⟩ := ih fun other member => there other (List.mem_cons_of_mem _ member)
      obtain ⟨bytes | _, found⟩ := mem_namesIn.mp (there name (List.mem_cons_self ..))
      · exact ⟨_, .file found onward⟩
      · have deeper : ∀ pair ∈ tree.entries.entries,
            pair.1.length ≤ (folder ++ [name]).length + depth := by
          intro pair member
          have short := bound pair member
          rw [List.length_append, List.length_singleton]
          omega
        obtain ⟨inside, into⟩ := ihDepth deeper fun _ member => member
        exact ⟨_, .folder found into onward⟩

theorem exists_walk (tree : FileTree) (folder : Location) :
    ∃ met, tree.Walk folder (tree.namesIn folder) met := by
  let lengths := tree.entries.entries.map fun pair => pair.1.length
  refine exists_walk_of_depth lengths.sum (fun pair member => ?_) fun _ among => among
  have counted : pair.1.length ≤ lengths.sum := List.le_sum_of_mem (List.mem_map_of_mem member)
  omega

/-- In a closed tree the walk below a folder meets the entries there. -/
theorem Walk.mem_iff (walk : tree.Walk folder (tree.namesIn folder) met) (closed : tree.Closed)
    (pair : Location × Entry) :
    pair ∈ met ↔ pair ∈ tree.entries.entries.filter fun pair => (below? folder pair.1).isSome := by
  obtain ⟨location, entry⟩ := pair
  rw [List.mem_filter, Option.isSome_iff_exists]
  constructor
  · intro member
    obtain ⟨found, name, -, way, rfl⟩ := walk.entry_of_mem member
    exact ⟨(entry?_of_mem (by simp)).mpr found, _,
      below?_eq_some_iff.mpr ⟨List.cons_ne_nil name way, rfl⟩⟩
  · rintro ⟨member, names, way⟩
    obtain ⟨nonempty, rfl⟩ := below?_eq_some_iff.mp way
    obtain ⟨name, further, rfl⟩ := List.exists_cons_of_ne_nil nonempty
    have found := (entry?_of_mem (by simp)).mp member
    exact walk.complete closed (closed.mem_namesIn_of_way found) found

/-- There is one walk below a folder of a closed tree, in the order of locations. -/
theorem walk_iff (closed : tree.Closed) : tree.Walk folder (tree.namesIn folder) met ↔
    met = tree.entries.entries.filter fun pair => (below? folder pair.1).isSome := by
  have unique (met : List (Location × Entry)) (walk : tree.Walk folder (tree.namesIn folder) met) :
      met = tree.entries.entries.filter fun pair => (below? folder pair.1).isSome :=
    OrderedMap.eq_of_rising (walk.rising (namesIn_rising tree folder))
      (tree.entries.rising.filter _) (walk.mem_iff closed)
  refine ⟨unique met, ?_⟩
  rintro rfl
  obtain ⟨met, walk⟩ := exists_walk tree folder
  rwa [← unique met walk]

/-- The files below a folder are those that the walk meets. -/
theorem filesBelow_of_walk (closed : tree.Closed) {path : Path} {location : Location}
    (walkable : tree.Walkable path) (there : tree.find path = .ok (location, .folder))
    (walk : tree.Walk location (tree.namesIn location) met) :
    tree.filesBelow path = .ok (met.filterMap (foundAs location path)) := by
  obtain rfl := (walk_iff closed).mp walk
  rw [filesBelow_of_walkable walkable there, List.filterMap_filter]
  congr 1
  refine List.filterMap_congr fun pair _ => ?_
  obtain ⟨other, bytes | _⟩ := pair
  · cases way : below? location other <;> simp [foundAs, way]
  · simp [foundAs]

end

end Lectern.FileTree
