import Lectern.Proofs.Publish.FoundDecks
import Lectern.Proofs.Text.Utf8

/-!
# Finding all decks

The decks below a folder are found by a walk, and they are the files with the extension of decks,
each once and in the order of the paths, compared part by part as bytes. Files whose path from the
folder is too long are passed over, and at a folder with such a path the search fails
(`findDecks_discovers`).
-/

namespace Lectern

namespace Path

/-- The steps of a path in bytes. -/
def stepBytes (path : Path) : List (List UInt8) := path.steps.map Text.utf8

/-- A name with the extension of decks in any ASCII case, and something in front of its dot. -/
def IsDeckName (name : Text) : Prop :=
  ∃ before extension, before ≠ [] ∧ name = before ++ '.' :: extension ∧
    Text.equalIgnoringCase extension deckExtension

theorem steps_through (folder : Path) {way : Location} (isName : ∀ name ∈ way, IsName name) :
    (folder.through way).steps = folder.steps ++ way := by
  induction way generalizing folder with
  | nil => exact (List.append_nil _).symm
  | cons name way ih =>
    have first := isName name (List.mem_cons_self ..)
    have further := ih (join folder name) fun other member =>
      isName other (List.mem_cons_of_mem _ member)
    rw [steps_join folder first.front_eq_nil, first.steps_eq, List.append_assoc] at further
    exact further

/-- Different ways from a folder are different paths. -/
theorem through_inj {folder : Path} {way other : Location} (isName : ∀ name ∈ way, IsName name)
    (isNameToo : ∀ name ∈ other, IsName name) (same : folder.through way = folder.through other) :
    way = other := by
  have steps := congrArg Path.steps same
  rw [steps_through folder isName, steps_through folder isNameToo] at steps
  exact List.append_cancel_left steps

/-- Whether a path from a folder can be used depends on nothing but its length. -/
theorem check_through {folder : Path} (usable : folder.check = .ok ()) {way : Location}
    (isName : ∀ name ∈ way, IsName name) (noNul : ∀ name ∈ way, '\x00' ∉ name) :
    (folder.through way).check =
      if lengthLimit < Text.byteLength (folder.through way) then .error .nameTooLong
      else .ok () := by
  have nonempty := (check_eq_ok_iff.mp usable).2.1
  have whole : '\x00' ∉ folder.through way ∧ folder.through way ≠ [] := by
    induction way using List.reverseRecOn with
    | nil => exact ⟨noNul_of_check usable, nonempty⟩
    | append_singleton lead name ih =>
      obtain ⟨noNulInLead, nonemptyLead⟩ := ih
        (fun other member => isName other (List.mem_append_left _ member))
        (fun other member => noNul other (List.mem_append_left _ member))
      have last := isName name (by simp)
      have noNulInLast := noNul name (by simp)
      rw [through_concat]
      rcases join_cases (folder.through lead) last.front_eq_nil with ⟨empty, -⟩ |
        ⟨-, -, joined⟩ | ⟨-, joined⟩
      · exact absurd empty nonemptyLead
      · rw [joined]
        exact ⟨by simp [noNulInLead, noNulInLast], by simp [nonemptyLead]⟩
      · rw [joined]
        exact ⟨by simp [noNulInLead, noNulInLast], by simp [nonemptyLead]⟩
  exact check_eq_of_noNul whole.1 whole.2

theorem isDeckName_iff {name : Text} :
    IsDeckName name ↔ (splitName name).2.any (Text.equalIgnoringCase · deckExtension) := by
  constructor
  · rintro ⟨before, extension, nonempty, rfl, same⟩
    have noDot : '.' ∉ extension := by
      intro dot
      have lowered : '.' ∈ extension.map Char.toLower := List.mem_map.mpr ⟨'.', dot, rfl⟩
      rw [of_decide_eq_true same] at lowered
      exact absurd lowered (by decide)
    rw [splitName_dot before noDot, if_neg nonempty]
    exact same
  · intro same
    rcases splitName_cases name with whole | ⟨before, extension, noDot, rfl, parts⟩
    · rw [whole] at same
      cases same
    · refine ⟨before, extension, ?_, rfl, ?_⟩
      · rintro rfl
        rw [splitName_dot [] noDot] at parts
        cases parts
      · rwa [parts] at same

theorem isDeck_join_iff (folder : Path) {name : Text} (isName : IsName name) :
    (join folder name).isDeck ↔ IsDeckName name := by
  rw [isDeck, extension?, isName.fileName?_join, Option.bind_some, isDeckName_iff]

end Path

namespace FileTree

/-- Every name on the way to an entry is one that files can have. -/
def Named (tree : FileTree) : Prop :=
  ∀ location entry, tree.entry? location = some entry → ∀ name ∈ location,
    (Path.IsName name ∧ Text.byteLength name ≤ Path.nameLimit) ∧ '\x00' ∉ name

/-- A file with the extension of decks. -/
def IsDeckFile (tree : FileTree) (location : Location) : Prop :=
  (∃ bytes, tree.entry? location = some (.file bytes)) ∧
    ∃ name ∈ location.getLast?, Path.IsDeckName name

/-- A folder with a path too long to open it. -/
def OutOfReach (tree : FileTree) (folder : Path) (location way : Location) : Prop :=
  tree.entry? (location ++ way) = some .folder ∧
    Path.lengthLimit < Text.byteLength (folder.through way)

/-- What it means to have found the decks below a folder. -/
structure Discovered (tree : FileTree) (folder : Path) (location : Location)
    (decks : List Path) : Prop where
  /-- A walk through all folders meets the files, and those with the extension are kept, but for
  paths that are too long. -/
  walked : ∃ met, tree.Walk location (tree.namesIn location) met ∧
    decks = (met.filterMap (foundAs location folder)).filter fun path =>
      Path.isDeck path && Text.byteLength path ≤ Path.lengthLimit
  /-- The walk goes through each folder in the order of the bytes of the names. -/
  byName : ∀ inside, (tree.namesIn inside).Pairwise fun a b => Text.utf8 a < Text.utf8 b
  /-- The decks are the paths of the deck files, at any depth, that are not too long. -/
  mem_iff : ∀ deck, deck ∈ decks ↔ ∃ way, tree.IsDeckFile (location ++ way) ∧
    deck = folder.through way ∧ Text.byteLength deck ≤ Path.lengthLimit
  /-- No two deck files have one path. -/
  apart : ∀ way other, tree.IsDeckFile (location ++ way) → tree.IsDeckFile (location ++ other) →
    folder.through way = folder.through other → way = other
  once : decks.Nodup
  /-- The order is that of the paths, step by step, so a folder comes before a longer name. -/
  rising : decks.Pairwise fun a b => a.stepBytes < b.stepBytes

section

variable {tree : FileTree} {folder : Path} {location : Location}

/-! ## Paths from a folder -/

theorem Named.regular (named : tree.Named) (closed : tree.Closed) : tree.Regular :=
  ⟨closed, fun _ _ found name member => (named _ _ found name member).1⟩

/-- A listed tree has proper names if it is regular and none of them holds NUL. -/
theorem Regular.named (regular : tree.Regular) (noNul : ∀ pair ∈ tree.entries.entries,
    ∀ name ∈ pair.1, '\x00' ∉ name) : tree.Named := by
  intro location entry found name member
  refine ⟨regular.names location entry found name member, ?_⟩
  have below : location ≠ [] := List.ne_nil_of_mem member
  exact noNul _ ((entry?_of_mem below).mpr found) name member

theorem Named.isName (named : tree.Named) {way : Location} {entry : Entry}
    (found : tree.entry? (location ++ way) = some entry) : ∀ name ∈ way, Path.IsName name :=
  fun name member => (named _ _ found name (List.mem_append_right _ member)).1.1

theorem Named.check_through (named : tree.Named) (usable : folder.check = .ok ()) {way : Location}
    {entry : Entry} (found : tree.entry? (location ++ way) = some entry) :
    (folder.through way).check =
      if Path.lengthLimit < Text.byteLength (folder.through way) then .error .nameTooLong
      else .ok () :=
  Path.check_through usable (named.isName found) fun name member =>
    (named _ _ found name (List.mem_append_right _ member)).2

/-- A walk can open all folders if none has a path that is too long. -/
theorem Named.walkable (named : tree.Named)
    (there : tree.find folder = .ok (location, .folder))
    (near : ∀ way, ¬ tree.OutOfReach folder location way) : tree.Walkable folder := by
  intro place way found isFolder
  obtain ⟨rfl, -⟩ := Prod.mk.inj (Except.ok.inj (there.symm.trans found))
  have usable := (locate_eq_ok_iff.mp (of_find_eq_ok there).1).1
  rw [named.check_through usable isFolder, if_neg fun long => near way ⟨isFolder, long⟩]

/-- What a walk finds is a file exactly if its path is not too long. -/
theorem Named.kindOn_found (named : tree.Named) (closed : tree.Closed)
    (there : tree.find folder = .ok (location, .folder)) {pair : Location × Entry}
    (member : pair ∈ tree.entries.entries) {file : Path}
    (read : foundAs location folder pair = some file) :
    Machine.kindOn tree file = some .file ↔ Text.byteLength file ≤ Path.lengthLimit := by
  obtain ⟨reaches, rfl⟩ := reaches_of_find there
  obtain ⟨followed, -⟩ := (named.regular closed).leadsToFile reaches member read
  obtain ⟨bytes, way, below, rfl, rfl⟩ := foundAs_eq_some_iff.mp read
  have usable := (locate_eq_ok_iff.mp (of_find_eq_ok there).1).1
  have found := (entry?_of_mem (List.append_ne_nil_of_right_ne_nil _ below)).mp member
  have check := named.check_through usable found
  constructor
  · intro isFile
    by_contra long
    rw [if_pos (Nat.not_le.mp long)] at check
    cases isFile.symm.trans (kindOn_of_unusable check)
  · intro short
    rw [if_neg (Nat.not_lt.mpr short)] at check
    have located := locate_eq_ok_iff.mpr ⟨check, followed⟩
    obtain ⟨lead, name, rfl⟩ := List.eq_nil_or_concat way |>.resolve_left below
    rw [List.concat_eq_append, ← List.append_assoc] at *
    have fits := (named _ _ found name (by simp)).1.2
    have looked : tree.lookUp _ = _ := lookUp_concat_eq_ok_iff.mpr ⟨fits, found⟩
    rw [Machine.kindOn, find_eq_ok_iff.mpr ⟨located, looked⟩]

/-! ## Found decks -/

/-- A file that is met has a deck's path exactly if it is a deck file. -/
theorem Named.isDeck_iff (named : tree.Named) {way : Location} (below : way ≠ [])
    {bytes : ByteArray} (found : tree.entry? (location ++ way) = some (.file bytes)) :
    (folder.through way).isDeck ↔ tree.IsDeckFile (location ++ way) := by
  obtain ⟨lead, name, rfl⟩ := List.eq_nil_or_concat way |>.resolve_left below
  rw [List.concat_eq_append] at found ⊢
  have isName := named.isName found name (by simp)
  have last : (location ++ (lead ++ [name])).getLast? = some name := by simp
  rw [Path.through_concat, Path.isDeck_join_iff _ isName, IsDeckFile, last]
  exact ⟨fun isDeck => ⟨⟨bytes, found⟩, name, rfl, isDeck⟩, fun ⟨_, _, rfl, isDeck⟩ => isDeck⟩

theorem Named.filter_hasDeck (named : tree.Named) (closed : tree.Closed)
    (there : tree.find folder = .ok (location, .folder)) :
    (tree.entries.entries.filterMap (foundAs location folder)).filter tree.hasDeck =
      (tree.entries.entries.filterMap (foundAs location folder)).filter fun path =>
        Path.isDeck path && Text.byteLength path ≤ Path.lengthLimit := by
  refine List.filter_congr fun file member => ?_
  obtain ⟨pair, inTree, read⟩ := List.mem_filterMap.mp member
  rw [hasDeck, Bool.and_comm]
  simp only [named.kindOn_found closed there inTree read]

theorem Named.mem_iff (named : tree.Named) (isFolder : tree.entry? location = some .folder)
    (deck : Path) :
    deck ∈ ((tree.entries.entries.filterMap (foundAs location folder)).filter fun path =>
        Path.isDeck path && Text.byteLength path ≤ Path.lengthLimit) ↔
      ∃ way, tree.IsDeckFile (location ++ way) ∧ deck = folder.through way ∧
        Text.byteLength deck ≤ Path.lengthLimit := by
  rw [List.mem_filter, List.mem_filterMap, Bool.and_eq_true, decide_eq_true_iff]
  constructor
  · rintro ⟨⟨pair, member, read⟩, isDeck, short⟩
    obtain ⟨bytes, way, below, rfl, rfl⟩ := foundAs_eq_some_iff.mp read
    have found := (entry?_of_mem (List.append_ne_nil_of_right_ne_nil _ below)).mp member
    exact ⟨way, (named.isDeck_iff below found).mp isDeck, rfl, short⟩
  · rintro ⟨way, isDeckFile, rfl, short⟩
    obtain ⟨bytes, found⟩ := isDeckFile.1
    have below : way ≠ [] := by
      rintro rfl
      rw [List.append_nil, isFolder] at found
      cases found
    refine ⟨⟨(location ++ way, .file bytes), ?_, ?_⟩,
      (named.isDeck_iff below found).mpr isDeckFile, short⟩
    · exact (entry?_of_mem (List.append_ne_nil_of_right_ne_nil _ below)).mpr found
    · exact foundAs_eq_some_iff.mpr ⟨bytes, way, below, rfl, rfl⟩

/-- Files are found in the order of their paths. -/
theorem Named.found_rising (named : tree.Named) (folder : Path) (location : Location) :
    (tree.entries.entries.filterMap (foundAs location folder)).Pairwise
      fun a b => a.stepBytes < b.stepBytes := by
  refine List.pairwise_filterMap.mpr (tree.entries.rising.imp_of_mem ?_)
  intro pair other member memberOther rising deck read next readToo
  obtain ⟨bytes, way, below, rfl, rfl⟩ := foundAs_eq_some_iff.mp read
  obtain ⟨bytesToo, wayToo, belowToo, rfl, rfl⟩ := foundAs_eq_some_iff.mp readToo
  have found := (entry?_of_mem (List.append_ne_nil_of_right_ne_nil _ below)).mp member
  have foundToo := (entry?_of_mem (List.append_ne_nil_of_right_ne_nil _ belowToo)).mp memberOther
  have steps := Path.steps_through folder (named.isName found)
  have stepsToo := Path.steps_through folder (named.isName foundToo)
  rw [compare_append_left] at rising
  change (folder.through way).stepBytes < (folder.through wayToo).stepBytes
  rw [Path.stepBytes, Path.stepBytes, steps, stepsToo, List.map_append, List.map_append]
  exact List.append_left_lt (Text.map_utf8_lt_of_compare rising)

/-- In a closed tree with proper names every deck below a folder is found, once and in order, if
all folders there can be opened. -/
theorem Named.discovered (named : tree.Named) (closed : tree.Closed)
    (there : tree.find folder = .ok (location, .folder)) (walkable : tree.Walkable folder) :
    ∃ decks, tree.decksBelow folder = .ok decks ∧ tree.Discovered folder location decks := by
  have sought := decksBelow_of_walkable walkable there
  rw [named.filter_hasDeck closed there] at sought
  refine ⟨_, sought, ?_⟩
  have rising := (named.found_rising folder location).filter fun path =>
    Path.isDeck path && Text.byteLength path ≤ Path.lengthLimit
  constructor
  case walked =>
    obtain ⟨met, walk⟩ := exists_walk tree location
    have listed := filesBelow_of_walkable walkable there
    have same := Except.ok.inj
      (listed.symm.trans (filesBelow_of_walk closed walkable there walk))
    exact ⟨met, walk, by rw [same]⟩
  case byName => exact fun inside => (namesIn_rising tree inside).imp Text.utf8_lt_of_compare
  case mem_iff => exact named.mem_iff (of_find_eq_ok there).2
  case apart =>
    rintro way other ⟨⟨bytes, found⟩, -⟩ ⟨⟨bytesToo, foundToo⟩, -⟩ samePath
    exact Path.through_inj (named.isName found) (named.isName foundToo) samePath
  case once =>
    refine rising.imp ?_
    rintro deck _ below rfl
    exact List.lt_irrefl _ below
  case rising => exact rising

/-- At a folder out of reach nothing is found. -/
theorem Named.stopped (named : tree.Named) (there : tree.find folder = .ok (location, .folder))
    {way : Location} (far : tree.OutOfReach folder location way) :
    ∃ other, tree.OutOfReach folder location other ∧
      tree.decksBelow folder = .error (folder.through other, .nameTooLong) := by
  have usable := (locate_eq_ok_iff.mp (of_find_eq_ok there).1).1
  have blocked : ¬ tree.Walkable folder := by
    intro walkable
    have opened := walkable _ _ there far.1
    rw [named.check_through usable far.1, if_pos far.2] at opened
    cases opened
  obtain ⟨other, error, isFolder, unusable, stopped⟩ := decksBelow_of_not_walkable blocked there
  have check := named.check_through usable isFolder
  rw [unusable] at check
  split at check
  · rename_i long
    obtain rfl := Except.error.inj check
    exact ⟨other, ⟨isFolder, long⟩, stopped⟩
  · cases check

end

end FileTree

open Machine

/-- Finding decks below a folder of a closed tree with proper names leaves the machine as it was. If
no folder there has a path that is too long, it gives the deck files, each once and in the order of
their paths, but for those with paths that are too long; else it fails at such a folder. -/
theorem findDecks_discovers {machine : Machine} (closed : machine.tree.Closed)
    (named : machine.tree.Named) {folder : Path} {location : Location}
    (there : machine.tree.find folder = .ok (location, .folder)) :
    ∃ result, machine.run (findDecks folder) = (result, machine) ∧
      ((∀ way, ¬ machine.tree.OutOfReach folder location way) →
        ∃ decks, result = .ok decks ∧ machine.tree.Discovered folder location decks) ∧
      ((∃ way, machine.tree.OutOfReach folder location way) →
        ∃ way, machine.tree.OutOfReach folder location way ∧
          result = .error (.walk (folder.through way) .nameTooLong)) := by
  refine ⟨_, run_findDecks machine folder, ?_, ?_⟩
  · intro near
    obtain ⟨decks, found, discovered⟩ :=
      named.discovered closed there (named.walkable there near)
    exact ⟨decks, by rw [found]; rfl, discovered⟩
  · rintro ⟨way, far⟩
    obtain ⟨other, farToo, stopped⟩ := named.stopped there far
    exact ⟨other, farToo, by rw [stopped]; rfl⟩

/-- Decks beside and below a folder whose name is the stem of one, a folder with the extension of
decks, and two files that are none. -/
def courses : FileTree where
  entries := ⟨[
    ([("decks" : Text)], .folder),
    ([("decks" : Text), (".vmd" : Text)], .file .empty),
    ([("decks" : Text), ("B.VMD" : Text)], .file .empty),
    ([("decks" : Text), ("a" : Text)], .folder),
    ([("decks" : Text), ("a" : Text), ("x.vmd" : Text)], .file .empty),
    ([("decks" : Text), ("a.vmd" : Text)], .file .empty),
    ([("decks" : Text), ("notes.txt" : Text)], .file .empty),
    ([("decks" : Text), ("old.vmd" : Text)], .folder),
    ([("decks" : Text), ("old.vmd" : Text), ("c.Vmd" : Text)], .file .empty)],
    by decide⟩
  working := []

theorem regular_courses : courses.Regular := by
  apply FileTree.regular_of_entries
  simp only [courses, List.forall_mem_cons]
  exact ⟨⟨rfl, by decide⟩, ⟨rfl, by decide⟩, ⟨rfl, by decide⟩, ⟨rfl, by decide⟩, ⟨rfl, by decide⟩,
    ⟨rfl, by decide⟩, ⟨rfl, by decide⟩, ⟨rfl, by decide⟩, ⟨rfl, by decide⟩, nofun⟩

theorem named_courses : courses.Named := regular_courses.named (by decide)

/-- The decks of the courses: the one in the folder `a` comes before `a.vmd`. -/
theorem findDecks_discovers_courses :
    courses.Closed ∧ courses.Named ∧ courses.find "./decks" = .ok ([("decks" : Text)], .folder) ∧
      (∀ way, ¬ courses.OutOfReach "./decks" [("decks" : Text)] way) ∧
      (fresh courses).run (findDecks "./decks") =
        (.ok ["./decks/B.VMD", "./decks/a/x.vmd", "./decks/a.vmd", "./decks/old.vmd/c.Vmd"],
          fresh courses) ∧
      courses.Discovered "./decks" [("decks" : Text)]
        ["./decks/B.VMD", "./decks/a/x.vmd", "./decks/a.vmd", "./decks/old.vmd/c.Vmd"] := by
  have there : courses.find "./decks" = .ok ([("decks" : Text)], .folder) := rfl
  have found : (fresh courses).run (findDecks "./decks") =
      (.ok ["./decks/B.VMD", "./decks/a/x.vmd", "./decks/a.vmd", "./decks/old.vmd/c.Vmd"],
        fresh courses) := rfl
  have closed : (fresh courses).tree.Closed := regular_courses.closed
  obtain ⟨result, ran, discovers, stops⟩ := findDecks_discovers closed named_courses there
  obtain ⟨rfl, -⟩ := Prod.mk.inj (ran.symm.trans found)
  have near : ∀ way, ¬ courses.OutOfReach "./decks" [("decks" : Text)] way := by
    intro way far
    obtain ⟨_, _, failed⟩ := stops ⟨way, far⟩
    cases failed
  obtain ⟨decks, same, discovered⟩ := discovers near
  obtain rfl := Except.ok.inj same
  exact ⟨closed, named_courses, there, near, found, discovered⟩

/-- A deck beside a folder. -/
def shelf : FileTree where
  entries := ⟨[
    ([("decks" : Text)], .folder),
    ([("decks" : Text), ("deck.vmd" : Text)], .file .empty),
    ([("decks" : Text), ("old" : Text)], .folder)],
    by decide⟩
  working := []

theorem regular_shelf : shelf.Regular := by
  apply FileTree.regular_of_entries
  simp only [shelf, List.forall_mem_cons]
  exact ⟨⟨rfl, by decide⟩, ⟨rfl, by decide⟩, ⟨rfl, by decide⟩, nofun⟩

theorem named_shelf : shelf.Named := regular_shelf.named (by decide)

theorem filesBelow_shelf {folder : Path}
    (there : shelf.find folder = .ok ([("decks" : Text)], .folder)) :
    shelf.filesBelow folder =
      ((Path.join folder "old").check.mapError fun error => (Path.join folder "old", error)).map
        fun _ => [Path.join folder "deck.vmd"] := by
  rw [FileTree.filesBelow, there]
  change FileTree.filesMet
    [(Path.join folder "deck.vmd", .file .empty), (Path.join folder "old", .folder)] = _
  rw [FileTree.filesMet, FileTree.filesMet, FileTree.filesMet]
  cases (Path.join folder "old").check <;> rfl

/-- The deck on the shelf is passed over where its path is too long, and by a path that is longer
still the folder cannot be opened. -/
theorem findDecks_shelf :
    shelf.Closed ∧ shelf.Named ∧ shelf.IsDeckFile [("decks" : Text), ("deck.vmd" : Text)] ∧
      shelf.find (Path.slashed "decks" 4085) = .ok ([("decks" : Text)], .folder) ∧
      (fresh shelf).run (findDecks (Path.slashed "decks" 4085)) = (.ok [], fresh shelf) ∧
      shelf.find (Path.slashed "decks" 4088) = .ok ([("decks" : Text)], .folder) ∧
      (fresh shelf).run (findDecks (Path.slashed "decks" 4088)) =
        (.error (.walk (Path.join (Path.slashed "decks" 4088) "old") .nameTooLong),
          fresh shelf) := by
  have usable : Path.check "decks" = .ok () := rfl
  have isDeckFile : shelf.IsDeckFile [("decks" : Text), ("deck.vmd" : Text)] :=
    ⟨⟨.empty, rfl⟩, "deck.vmd", rfl, Path.isDeckName_iff.mpr (by decide)⟩
  have there (count : Nat) (short : 5 + count ≤ Path.lengthLimit) :
      shelf.find (Path.slashed "decks" count) = .ok ([("decks" : Text)], .folder) := by
    have found : shelf.find "decks" = .ok ([("decks" : Text)], .folder) := rfl
    exact FileTree.find_slashed found short
  -- The folder can be opened, but the path of the deck is too long.
  have opened : (Path.join (Path.slashed "decks" 4085) "old").check = .ok () :=
    (Path.IsName.check_join_slashed (by decide) (by decide) usable 4084).trans (if_neg (by decide))
  have unusable : (Path.join (Path.slashed "decks" 4085) "deck.vmd").check =
      .error .nameTooLong :=
    (Path.IsName.check_join_slashed (by decide) (by decide) usable 4084).trans (if_pos (by decide))
  have passedOver : (fresh shelf).tree.decksBelow (Path.slashed "decks" 4085) = .ok [] := by
    have noFile : kindOn shelf (Path.join (Path.slashed "decks" 4085) "deck.vmd") = none :=
      FileTree.kindOn_of_unusable unusable
    have walked := filesBelow_shelf (there 4085 (by decide))
    rw [opened] at walked
    refine (FileTree.decksBelow_of_one walked).trans ?_
    rw [FileTree.hasDeck, noFile]
    rfl
  -- Three slashes more, and the path of the folder is too long.
  have closed : (Path.join (Path.slashed "decks" 4088) "old").check = .error .nameTooLong :=
    (Path.IsName.check_join_slashed (by decide) (by decide) usable 4087).trans (if_pos (by decide))
  have stopped : (fresh shelf).tree.decksBelow (Path.slashed "decks" 4088) =
      .error (Path.join (Path.slashed "decks" 4088) "old", .nameTooLong) := by
    have walked := filesBelow_shelf (there 4088 (by decide))
    rw [closed] at walked
    exact congrArg (Except.map _) walked
  refine ⟨regular_shelf.closed, named_shelf, isDeckFile, there 4085 (by decide), ?_,
    there 4088 (by decide), ?_⟩
  · rw [run_findDecks, passedOver]
    rfl
  · rw [run_findDecks, stopped]
    simp only [Except.mapError]

end Lectern
