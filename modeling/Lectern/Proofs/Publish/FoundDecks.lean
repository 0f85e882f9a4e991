import Lectern.Proofs.Files.Walk
import Lectern.Proofs.Publish.Plan

/-!
# Decks found below a folder

In a tree with names that files can have, every path that is found below a folder leads to its file,
and no path is found twice (`Regular.of_decksBelow_eq_ok`). Changes that keep the deck files below a
folder and make no new ones leave the same decks to find (`decksBelow_eq`).
-/

namespace Lectern

/-- Whether a path is that of a deck file. -/
def Path.isDeck (path : Path) : Bool :=
  (Path.extension? path).any (Text.equalIgnoringCase · deckExtension)

/-- Whether a path is that of a deck file is said by its name. -/
theorem Path.isDeck_join (folder other : Path) {name : Text} (isName : IsName name) :
    (join folder name).isDeck = (join other name).isDeck := by
  rw [isDeck, isDeck, extension?, extension?, isName.fileName?_join, isName.fileName?_join]

/-- A name with an extension is that of a deck exactly if this is the extension of decks. -/
theorem Path.isDeck_join_dot (folder : Path) {before behind : Text}
    (isName : IsName (before ++ '.' :: behind)) (nonempty : before ≠ []) (noDot : '.' ∉ behind) :
    (join folder (before ++ '.' :: behind)).isDeck =
      Text.equalIgnoringCase behind deckExtension := by
  rw [isDeck, extension?, isName.fileName?_join, Option.bind_some,
    splitName_dot _ noDot, if_neg nonempty, Option.any_some]

namespace FileTree

/-- A tree in which every entry stands in a folder and has a name that can be looked up. -/
structure Regular (tree : FileTree) : Prop where
  closed : tree.Closed
  names : ∀ location entry, tree.entry? location = some entry → ∀ name ∈ location,
    Path.IsName name ∧ Text.byteLength name ≤ Path.nameLimit

/-- Whether a path is that of a deck file and can be used to find it. -/
def hasDeck (tree : FileTree) (path : Path) : Bool :=
  Machine.kindOn tree path = some .file && path.isDeck

/-- The deck files below a folder. -/
def decksBelow (tree : FileTree) (folder : Path) : Except (Path × FileError) (List Path) :=
  (tree.filesBelow folder).map fun files => files.filter tree.hasDeck

/-- Whether a path leads to a file. -/
def LeadsToFile (tree : FileTree) (path : Path) (location : Location) : Prop :=
  tree.follow path = .ok location ∧ ∃ bytes, tree.entry? location = some (.file bytes)

section

variable {tree : FileTree} {path : Path}

theorem Regular.isFolder (regular : tree.Regular) {location : Location}
    (folder : tree.entry? location = some .folder) : tree.IsFolder location := by
  rcases List.eq_nil_or_concat location with rfl | ⟨lead, name, rfl⟩
  · rfl
  · rw [List.concat_eq_append] at folder ⊢
    have short := (regular.names _ _ folder name (by simp)).2
    exact lookUp_concat_eq_ok_iff.mpr ⟨short, folder⟩

/-- A folder in a folder that is reached is reached behind it. -/
theorem Reaches.join (reaches : tree.Reaches path) {name : Text} (isName : Path.IsName name)
    (folder : tree.IsFolder (tree.destination path ++ [name])) :
    tree.Reaches (Path.join path name) := by
  have followed := (follow_join_eq_ok_iff path isName).mpr ⟨reaches, rfl⟩
  refine ⟨(foldlM_step_eq_ok_iff.mp followed).1.filter, ?_⟩
  rwa [destination_join tree path isName]

/-- So are folders further down. -/
theorem Reaches.through (reaches : tree.Reaches path) {names : List Text}
    (isName : ∀ name ∈ names, Path.IsName name)
    (folders : ∀ lead, lead <+: names → tree.IsFolder (tree.destination path ++ lead)) :
    tree.Reaches (path.through names) ∧
      tree.destination (path.through names) = tree.destination path ++ names := by
  induction names generalizing path with
  | nil => exact ⟨reaches, (List.append_nil _).symm⟩
  | cons name rest ih =>
    have first := isName name (List.mem_cons_self ..)
    have next := reaches.join first (folders [name] (by simp))
    have place := destination_join tree path first
    rw [Path.through_cons]
    have behind := ih next (fun other member => isName other (List.mem_cons_of_mem _ member)) ?_
    · rw [place, List.append_assoc] at behind
      exact behind
    · intro lead start
      rw [place, List.append_assoc]
      exact folders (name :: lead) (List.prefix_cons_inj name |>.mpr start)

/-! ## Found files -/

/-- A listed tree is regular if the parent of every entry is a folder and every name is short. -/
theorem regular_of_entries (listed : ∀ pair ∈ tree.entries.entries,
    tree.entry? pair.1.dropLast = some .folder ∧
      ∀ name ∈ pair.1, Path.IsName name ∧ Text.byteLength name ≤ Path.nameLimit) :
    tree.Regular := by
  refine ⟨closed_of_entries fun pair member => (listed pair member).1, ?_⟩
  intro location entry found
  by_cases root : location = []
  · subst root
    exact fun _ member => nomatch member
  · exact (listed (location, entry) ((entry?_of_mem root).mpr found)).2

theorem of_filesBelow_eq_ok {files : List Path} (listed : tree.filesBelow path = .ok files) :
    ∃ location entry, tree.find path = .ok (location, entry) ∧
      (entry = .folder ∧ tree.Walkable path ∧
          files = tree.entries.entries.filterMap (foundAs location path) ∨
        files = [path] ∧ ∃ bytes, entry = .file bytes) := by
  rcases found : tree.find path with error | ⟨location, bytes | _⟩
  · rw [filesBelow, found] at listed
    cases listed
  · rw [filesBelow, found] at listed
    exact ⟨location, _, rfl, .inr ⟨(Except.ok.inj listed).symm, bytes, rfl⟩⟩
  · rcases filesBelow_cases found with ⟨walkable, walked⟩ | ⟨way, error, -, -, stopped⟩
    · exact ⟨location, _, rfl, .inl ⟨rfl, walkable, Except.ok.inj (listed.symm.trans walked)⟩⟩
    · cases listed.symm.trans stopped

/-- In a regular tree, a file below a folder is found by a path that leads to it. -/
theorem Regular.leadsToFile (regular : tree.Regular) (reaches : tree.Reaches path)
    {entry : Location × Entry} (there : entry ∈ tree.entries.entries) {file : Path}
    (found : foundAs (tree.destination path) path entry = some file) :
    tree.LeadsToFile file entry.1 := by
  obtain ⟨bytes, names, nonempty, rfl, rfl⟩ := foundAs_eq_some_iff.mp found
  have located := (entry?_of_mem (List.append_ne_nil_of_right_ne_nil _ nonempty)).mp there
  have isName : ∀ name ∈ names, Path.IsName name := fun name member =>
    (regular.names _ _ located name (List.mem_append_right _ member)).1
  obtain ⟨lead, last, rfl⟩ := List.eq_nil_or_concat names |>.resolve_left nonempty
  rw [List.concat_eq_append] at *
  have parent := regular.closed _ _ located
  rw [← List.append_assoc, List.dropLast_concat] at parent
  have isLead : ∀ name ∈ lead, Path.IsName name := fun name member =>
    isName name (List.mem_append_left _ member)
  obtain ⟨reachesLead, place⟩ := reaches.through isLead
    (fun start above => regular.isFolder (regular.closed.folder_of_prefix
      (List.prefix_append_right_inj _ |>.mpr above) parent))
  refine ⟨?_, bytes, located⟩
  rw [Path.through_concat]
  refine (follow_join_eq_ok_iff _ (isName last (by simp))).mpr ⟨reachesLead, ?_⟩
  rw [place, List.append_assoc]

/-! ## Found decks -/

/-- In a regular tree, the decks that are found are files, and none is found twice. -/
theorem Regular.of_decksBelow_eq_ok (regular : tree.Regular) {decks : List Path}
    (found : tree.decksBelow path = .ok decks) :
    (∀ deck ∈ decks, ∃ location, tree.LeadsToFile deck location) ∧ decks.Nodup := by
  rw [decksBelow] at found
  cases listed : tree.filesBelow path with
  | error error =>
    rw [listed] at found
    cases found
  | ok files =>
    rw [listed] at found
    obtain rfl := Except.ok.inj found
    obtain ⟨location, entry, there, ⟨rfl, -, rfl⟩ | ⟨rfl, bytes, rfl⟩⟩ := of_filesBelow_eq_ok listed
    · obtain ⟨reaches, rfl⟩ := reaches_of_find there
      refine ⟨?_, List.Nodup.filter _ ?_⟩
      · intro deck member
        obtain ⟨entry, inTree, found⟩ := List.mem_filterMap.mp (List.mem_filter.mp member).1
        exact ⟨entry.1, regular.leadsToFile reaches inTree found⟩
      · refine List.pairwise_filterMap.mpr ?_
        have distinct := List.pairwise_map.mp tree.entries.keys_nodup
        refine distinct.imp_of_mem ?_
        rintro first second inTree inTreeToo differs file found other foundToo rfl
        have leads := (regular.leadsToFile reaches inTree found).1
        have leadsToo := (regular.leadsToFile reaches inTreeToo foundToo).1
        exact differs (Except.ok.inj (leads.symm.trans leadsToo))
    · obtain ⟨located, inPlace⟩ := of_find_eq_ok there
      refine ⟨?_, (List.nodup_singleton path).filter _⟩
      intro deck member
      obtain rfl := List.mem_singleton.mp (List.mem_filter.mp member).1
      exact ⟨location, (locate_eq_ok_iff.mp located).2, bytes, inPlace⟩

/-- What a path to a file names is the same in a later tree with the file. -/
theorem LeadsToFile.kindOn_eq {later : FileTree} {location : Location}
    (leads : tree.LeadsToFile path location) (keeps : tree.KeepsFolders later)
    (same : later.entry? location = tree.entry? location) :
    Machine.kindOn later path = Machine.kindOn tree path := by
  rw [Machine.kindOn, Machine.kindOn, find_eq_of_keeps keeps leads.1 same]

theorem decksBelow_of_walkable {location : Location} (walkable : tree.Walkable path)
    (there : tree.find path = .ok (location, .folder)) : tree.decksBelow path =
      .ok ((tree.entries.entries.filterMap (foundAs location path)).filter tree.hasDeck) := by
  rw [decksBelow, filesBelow_of_walkable walkable there]
  rfl

/-- Where a walk cannot open all folders, no decks are found. -/
theorem decksBelow_of_not_walkable {location : Location} (blocked : ¬ tree.Walkable path)
    (there : tree.find path = .ok (location, .folder)) :
    ∃ way error, tree.entry? (location ++ way) = some .folder ∧
      (path.through way).check = .error error ∧
      tree.decksBelow path = .error (path.through way, error) := by
  rcases filesBelow_cases there with ⟨walkable, -⟩ | ⟨way, error, isFolder, unusable, stopped⟩
  · exact absurd walkable blocked
  · exact ⟨way, error, isFolder, unusable, by rw [decksBelow, stopped]; rfl⟩

theorem walkable_of_decksBelow_eq_ok {decks : List Path}
    (found : tree.decksBelow path = .ok decks) : tree.Walkable path := by
  intro location way there isFolder
  by_contra unusable
  have blocked : ¬ tree.Walkable path := fun walkable =>
    unusable (walkable location way there isFolder)
  obtain ⟨_, _, -, -, stopped⟩ := decksBelow_of_not_walkable blocked there
  cases found.symm.trans stopped

theorem decksBelow_of_one {file : Path} (walked : tree.filesBelow path = .ok [file]) :
    tree.decksBelow path = .ok (bif tree.hasDeck file then [file] else []) := by
  rw [decksBelow, walked, ← List.filter_singleton]
  rfl

/-- The deck files among what is found are found from the entries that are decks by their names. -/
theorem filter_hasDeck_foundAs (tree : FileTree) (location : Location) (path : Path)
    (entries : List (Location × Entry)) :
    (entries.filterMap (foundAs location path)).filter tree.hasDeck =
      ((entries.filter fun entry => (foundAs location path entry).any Path.isDeck).filterMap
        (foundAs location path)).filter fun file => Machine.kindOn tree file = some .file := by
  rw [List.filter_filterMap, List.filter_filterMap, List.filterMap_filter]
  refine List.filterMap_congr fun entry _ => ?_
  cases foundAs location path entry with
  | none => rfl
  | some file => by_cases deck : file.isDeck <;> simp [deck, hasDeck, Option.filter]

/-- A later tree with the same deck files below a folder has the same decks to find, if a walk can
still open all folders there. -/
theorem Regular.decksBelow_eq (regular : tree.Regular) {later : FileTree}
    (keeps : tree.KeepsFolders later) {location : Location}
    (there : tree.find path = .ok (location, .folder)) (walkable : tree.Walkable path)
    (walkableLater : later.Walkable path)
    (same : ∀ entry, (foundAs location path entry).any Path.isDeck →
      (entry ∈ later.entries.entries ↔ entry ∈ tree.entries.entries)) :
    later.decksBelow path = tree.decksBelow path := by
  obtain ⟨located, inPlace⟩ := of_find_eq_ok there
  have thereLater : later.find path = .ok (location, .folder) := by
    rw [find_eq_of_keeps keeps (locate_eq_ok_iff.mp located).2, there]
    rw [inPlace]
    exact keeps.folders _ inPlace
  rw [decksBelow_of_walkable walkable there, decksBelow_of_walkable walkableLater thereLater,
    filter_hasDeck_foundAs, filter_hasDeck_foundAs, OrderedMap.filter_entries_eq same]
  congr 1
  refine List.filter_congr fun file member => ?_
  -- A deck's path names what it named before, the file being there as it was.
  obtain ⟨entry, inList, read⟩ := List.mem_filterMap.mp member
  obtain ⟨inTree, isDeck⟩ := List.mem_filter.mp inList
  obtain ⟨reaches, rfl⟩ := reaches_of_find there
  obtain ⟨bytes, names, nonempty, rfl, -⟩ := foundAs_eq_some_iff.mp read
  have below := List.append_ne_nil_of_right_ne_nil (tree.destination path) nonempty
  have sameEntry : later.entry? (tree.destination path ++ names) =
      tree.entry? (tree.destination path ++ names) := by
    rw [(entry?_of_mem below).mp inTree, (entry?_of_mem below).mp ((same _ isDeck).mpr inTree)]
  rw [(regular.leadsToFile reaches inTree read).kindOn_eq keeps sameEntry]

end

end FileTree

open Machine

theorem run_keepFiles (machine : Machine) (extension : Text) (paths : List Path) :
    machine.run (Host.keepFiles extension paths) =
      (.ok (paths.filter fun path => kindOn machine.tree path = some .file &&
        (Path.extension? path).any (Text.equalIgnoringCase · extension)), machine) := by
  induction paths with
  | nil => rfl
  | cons path rest ih =>
    rw [Host.keepFiles, run_bind_of_ok (run_isFile ..), run_bind_of_ok ih, List.filter_cons]
    split <;> rfl

/-- Finding decks looks at the tree and leaves it. -/
theorem run_findDecks (machine : Machine) (folder : Path) :
    machine.run (findDecks folder) =
      ((machine.tree.decksBelow folder).mapError fun stop => .walk stop.1 stop.2, machine) := by
  have walked : machine.run
      (Host.orFail (fun stop => .walk stop.1 stop.2) (Host.filesBelow folder)) =
        ((machine.tree.filesBelow folder).mapError fun stop => .walk stop.1 stop.2, machine) := by
    rw [run_orFail]
    rfl
  rw [findDecks, Host.filesWithExtension, run_bind, walked, FileTree.decksBelow]
  cases machine.tree.filesBelow folder with
  | error error => rfl
  | ok files => exact run_keepFiles machine _ files

theorem decksBelow_of_findDecks {machine : Machine} {folder : Path} {decks : List Path}
    (found : (machine.run (findDecks folder)).1 = .ok decks) :
    machine.tree.decksBelow folder = .ok decks := by
  rw [run_findDecks] at found
  cases sought : machine.tree.decksBelow folder with
  | error error =>
    rw [sought] at found
    cases found
  | ok others =>
    rw [sought] at found
    rw [Except.ok.inj found]

namespace Publisher

/-- Rendering a folder renders the decks that are found in it. -/
theorem run_runFolder (publisher : Publisher) (force : Bool) {machine : Machine} {folder : Path}
    (isFolder : kindOn machine.tree folder = some .folder) {decks : List Path}
    (found : machine.tree.decksBelow folder = .ok decks) :
    (machine.run (publisher.runFolder folder force)).1 =
        .ok (publisher.runAllOn machine force decks).1 ∧
      (machine.run (publisher.runFolder folder force)).2.tree =
        (publisher.runAllOn machine force decks).2.tree := by
  have asked : machine.run (Host.isFolder folder) =
      (.ok (decide (kindOn machine.tree folder = some .folder)), machine) := rfl
  have sought := run_findDecks machine folder
  rw [found] at sought
  rw [runFolder, run_bind_of_ok asked, isFolder]
  simp only [decide_true, Bool.not_true, Bool.false_eq_true, if_false]
  rw [run_bind_of_ok sought]
  cases decks with
  | nil =>
    rw [run_bind_of_ok (run_notify machine _)]
    exact ⟨rfl, tree_tell machine _⟩
  | cons deck rest =>
    have ran : machine.run (liftM (publisher.runAll force (deck :: rest) : Simulated _)) =
        (.ok (publisher.runAllOn machine force (deck :: rest)).1,
          (publisher.runAllOn machine force (deck :: rest)).2) := rfl
    dsimp only
    rw [run_bind_of_ok ran, run_bind_of_ok (run_notify _ _)]
    exact ⟨rfl, tree_tell _ _⟩

/-- Where decks cannot be found, rendering a folder fails and leaves everything as it was. -/
theorem run_runFolder_of_stopped (publisher : Publisher) (force : Bool) {machine : Machine}
    {folder : Path} (isFolder : kindOn machine.tree folder = some .folder) {stop : Path × FileError}
    (stopped : machine.tree.decksBelow folder = .error stop) :
    machine.run (publisher.runFolder folder force) = (.error (.walk stop.1 stop.2), machine) := by
  have asked : machine.run (Host.isFolder folder) =
      (.ok (decide (kindOn machine.tree folder = some .folder)), machine) := rfl
  have sought := run_findDecks machine folder
  rw [stopped] at sought
  rw [runFolder, run_bind_of_ok asked, isFolder]
  simp only [decide_true, Bool.not_true, Bool.false_eq_true, if_false]
  exact run_bind_of_error sought _

/-- What renders is a folder with decks to be found. -/
theorem of_runFolder_eq_ok {publisher : Publisher} {force : Bool} {machine : Machine}
    {folder : Path} {summary : FolderSummary}
    (ran : (machine.run (publisher.runFolder folder force)).1 = .ok summary) :
    kindOn machine.tree folder = some .folder ∧
      ∃ decks, machine.tree.decksBelow folder = .ok decks := by
  by_cases isFolder : kindOn machine.tree folder = some .folder
  · refine ⟨isFolder, ?_⟩
    cases found : machine.tree.decksBelow folder with
    | ok decks => exact ⟨decks, rfl⟩
    | error stop =>
      rw [run_runFolder_of_stopped publisher force isFolder found] at ran
      cases ran
  · have asked : machine.run (Host.isFolder folder) =
        (.ok (decide (kindOn machine.tree folder = some .folder)), machine) := rfl
    rw [runFolder, run_bind_of_ok asked, if_pos (by simpa using isFolder)] at ran
    cases ran

end Publisher
end Lectern
