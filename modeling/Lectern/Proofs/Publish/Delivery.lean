import Lectern.Proofs.Publish.Change
import Lectern.Proofs.Session.Folders

/-!
# Delivering a file

A file is delivered into a folder under a name; the folder is made first, as far as that is
possible. What comes of it is the same before and after the folder is made (`deliver_room`). Once
the folder is there, it hangs on what is in the file's place and on nothing else
(`deliver_of_reaches`), and where the folder cannot be made, nothing can be delivered
(`deliver_of_stuck`).
-/

namespace Lectern

/-- A file to be put into a folder under a name. -/
structure Parcel where
  folder : Path
  name : Text
  bytes : ByteArray

namespace Parcel

open Machine

/-- The path of a delivered file. -/
def path (parcel : Parcel) : Path := Path.join parcel.folder parcel.name

/-- Where a file is delivered. -/
def place (parcel : Parcel) (tree : FileTree) : Location :=
  tree.destination parcel.folder ++ [parcel.name]

/-- The tree with the folder of a file made, as far as it can be. -/
def room (parcel : Parcel) (tree : FileTree) : FileTree :=
  (parcel.path.parent?.map tree.withFolder).getD tree

/-- Delivering a file; one that is there is left alone unless overwriting is forced. -/
def deliver (force : Bool) (parcel : Parcel) : Change := fun tree =>
  if force = false ∧ (kindOn tree parcel.path).isSome then (some [], tree)
  else
    match (parcel.room tree).writeFile parcel.path parcel.bytes with
    | .ok after => (some [parcel.path], after)
    | .error _ => (none, parcel.room tree)

/-- Whether a file can have the path and the name. -/
def Fits (parcel : Parcel) : Prop :=
  parcel.path.check = .ok () ∧ Text.byteLength parcel.name ≤ Path.nameLimit

instance (parcel : Parcel) : Decidable parcel.Fits :=
  match checked : parcel.path.check with
  | .ok () => decidable_of_iff (Text.byteLength parcel.name ≤ Path.nameLimit)
      (by rw [Fits, checked]; simp)
  | .error _ => .isFalse fun fits => nomatch checked.symm.trans fits.1

/-- A file with a name, for a folder that is there or is named without steps upwards. -/
structure Stands (parcel : Parcel) (tree : FileTree) : Prop where
  closed : tree.Closed
  isName : Path.IsName parcel.name
  folder : tree.Reaches parcel.folder ∨ ['.', '.'] ∉ parcel.folder.steps

section

variable {parcel : Parcel} {tree : FileTree}

/-! ## Room -/

/-- There is one folder to make for all files of a folder. -/
theorem exists_room (folder : Path) : ∃ parent : Path, parent.Same folder ∧
    ∀ parcel : Parcel, parcel.folder = folder → Path.IsName parcel.name →
      ∀ tree, parcel.room tree = tree.withFolder parent := by
  obtain ⟨parent, same, above⟩ := Path.exists_parent_join folder
  refine ⟨parent, same, ?_⟩
  rintro parcel rfl isName tree
  rw [room, path, above parcel.name isName]
  rfl

theorem room_eq_of_folder {other : Parcel} (isName : Path.IsName parcel.name)
    (isOther : Path.IsName other.name) (same : other.folder = parcel.folder) (tree : FileTree) :
    other.room tree = parcel.room tree := by
  obtain ⟨parent, -, rooms⟩ := exists_room parcel.folder
  rw [rooms parcel rfl isName, rooms other same isOther]

theorem extends_room (isName : Path.IsName parcel.name) (tree : FileTree) :
    tree.Extends (parcel.room tree) := by
  obtain ⟨parent, -, rooms⟩ := exists_room parcel.folder
  rw [rooms parcel rfl isName]
  exact tree.extends_withFolder parent

theorem room_of_reaches (isName : Path.IsName parcel.name)
    (reaches : tree.Reaches parcel.folder) : parcel.room tree = tree := by
  obtain ⟨parent, same, rooms⟩ := exists_room parcel.folder
  rw [rooms parcel rfl isName]
  exact FileTree.withFolder_of_reaches (reaches.of_same ⟨same.1.symm, same.2.symm⟩)

/-! ## Paths of files -/

theorem kindOn_path_isSome_iff (isName : Path.IsName parcel.name) :
    (kindOn tree parcel.path).isSome ↔ parcel.Fits ∧ tree.Reaches parcel.folder ∧
      ∃ entry, tree.entry? (parcel.place tree) = some entry := by
  rw [path, FileTree.kindOn_join_isSome_iff parcel.folder isName, Fits, path, place]
  tauto

theorem writeFile_path_eq_ok_iff (isName : Path.IsName parcel.name) {after : FileTree} :
    tree.writeFile parcel.path parcel.bytes = .ok after ↔
      parcel.Fits ∧ tree.Reaches parcel.folder ∧
        tree.entry? (parcel.place tree) ≠ some .folder ∧
        after = tree.put (parcel.place tree) (.file parcel.bytes) := by
  rw [path, FileTree.writeFile_join_eq_ok_iff parcel.folder isName, Fits, path, place]
  tauto

theorem readFile_path_eq_ok_iff (isName : Path.IsName parcel.name) {bytes : ByteArray} :
    tree.readFile parcel.path = .ok bytes ↔
      parcel.Fits ∧ tree.Reaches parcel.folder ∧
        tree.entry? (parcel.place tree) = some (.file bytes) := by
  rw [path, FileTree.readFile_join_eq_ok_iff parcel.folder isName, Fits, path, place]
  tauto

theorem place_ne_nil (parcel : Parcel) (tree : FileTree) : parcel.place tree ≠ [] := by
  simp [place]

theorem place_eq {after : FileTree} (keeps : tree.KeepsFolders after) :
    parcel.place after = parcel.place tree := by
  rw [place, place, keeps.destination]

end

/-- What becomes of a file that is delivered. -/
inductive Verdict where
  | kept
  | refused
  | written

/-- What becomes of a file in view of what is in its place. -/
def verdict (force : Bool) (parcel : Parcel) (found : Option Entry) : Verdict :=
  if ¬ parcel.Fits then .refused
  else
    match found with
    | none => .written
    | some .folder => if force then .refused else .kept
    | some (.file _) => if force then .written else .kept

/-- A verdict carried out. -/
def carry (parcel : Parcel) : Verdict → Change
  | .kept => fun tree => (some [], tree)
  | .refused => fun tree => (none, tree)
  | .written => fun tree => (some [parcel.path], tree.put (parcel.place tree) (.file parcel.bytes))

section

variable {parcel : Parcel} {tree : FileTree}

/-! ## Delivering -/

theorem deliver_of_present (present : (kindOn tree parcel.path).isSome) :
    parcel.deliver false tree = (some [], tree) := if_pos ⟨rfl, present⟩

theorem deliver_of_written (force : Bool)
    (absent : force = false → ¬ (kindOn tree parcel.path).isSome) {after : FileTree}
    (written : (parcel.room tree).writeFile parcel.path parcel.bytes = .ok after) :
    parcel.deliver force tree = (some [parcel.path], after) := by
  rw [deliver, if_neg (fun skips => absent skips.1 skips.2), written]

theorem deliver_of_unwritten (force : Bool)
    (absent : force = false → ¬ (kindOn tree parcel.path).isSome)
    (unwritten : ∀ after, (parcel.room tree).writeFile parcel.path parcel.bytes ≠ .ok after) :
    parcel.deliver force tree = (none, parcel.room tree) := by
  rw [deliver, if_neg (fun skips => absent skips.1 skips.2)]
  cases tried : (parcel.room tree).writeFile parcel.path parcel.bytes with
  | ok after => exact absurd tried (unwritten after)
  | error error => rfl

/-- Where the folder is there, a delivery hangs on what is in the place of the file. -/
theorem deliver_of_reaches (isName : Path.IsName parcel.name)
    (reaches : tree.Reaches parcel.folder) (force : Bool) :
    parcel.deliver force tree =
      parcel.carry (parcel.verdict force (tree.entry? (parcel.place tree))) tree := by
  have same := room_of_reaches isName reaches
  have present : (kindOn tree parcel.path).isSome ↔ _ := kindOn_path_isSome_iff isName
  have writes {after : FileTree} : tree.writeFile parcel.path parcel.bytes = .ok after ↔ _ :=
    writeFile_path_eq_ok_iff isName
  have inRoom : (parcel.room tree).writeFile = tree.writeFile := by rw [same]
  rw [← inRoom] at writes
  by_cases fits : parcel.Fits
  · have seen {entry : Entry} (found : tree.entry? (parcel.place tree) = some entry) :
        (kindOn tree parcel.path).isSome := present.mpr ⟨fits, reaches, entry, found⟩
    rcases found : tree.entry? (parcel.place tree) with _ | ⟨old⟩ | _
    · have absent : ¬ (kindOn tree parcel.path).isSome := by simp [present, found]
      rw [deliver_of_written force (fun _ => absent)
        (writes.mpr ⟨fits, reaches, by simp [found], rfl⟩)]
      simp [verdict, fits, carry]
    · cases force with
      | false =>
        rw [deliver_of_present (seen found)]
        simp [verdict, fits, carry]
      | true =>
        have written := writes.mpr ⟨fits, reaches, by simp [found], rfl⟩
        rw [deliver_of_written true nofun written]
        simp [verdict, fits, carry]
    · cases force with
      | false =>
        rw [deliver_of_present (seen found)]
        simp [verdict, fits, carry]
      | true =>
        have unwritten : ∀ after, (parcel.room tree).writeFile parcel.path parcel.bytes ≠
            .ok after := fun after written => (writes.mp written).2.2.1 found
        rw [deliver_of_unwritten true nofun unwritten]
        simp [verdict, fits, carry, same]
  · have absent : ¬ (kindOn tree parcel.path).isSome := fun seen => fits (present.mp seen).1
    have unwritten : ∀ after, (parcel.room tree).writeFile parcel.path parcel.bytes ≠ .ok after :=
      fun after written => fits (writes.mp written).1
    rw [deliver_of_unwritten force (fun _ => absent) unwritten]
    simp [verdict, fits, carry, same]

theorem verdict_eq_written_iff {force : Bool} {found : Option Entry} :
    parcel.verdict force found = .written ↔
      parcel.Fits ∧ found ≠ some .folder ∧ (force = false → found = none) := by
  by_cases fits : parcel.Fits
  · rcases found with _ | ⟨old⟩ | _
    · simp [verdict, fits]
    · cases force <;> simp [verdict, fits]
    · cases force <;> simp [verdict, fits]
  · simp [verdict, fits]

theorem verdict_of_not_fits (misfit : ¬ parcel.Fits) (force : Bool) (found : Option Entry) :
    parcel.verdict force found = .refused := by
  simp [verdict, misfit]

/-- Where the folder cannot be made, nothing can be delivered. -/
theorem deliver_of_stuck (isName : Path.IsName parcel.name)
    (unreached : ¬ (parcel.room tree).Reaches parcel.folder) (force : Bool) :
    parcel.deliver force tree = (none, parcel.room tree) := by
  refine deliver_of_unwritten force ?_ ?_
  · intro _ present
    have reaches := ((kindOn_path_isSome_iff isName).mp present).2.1
    exact unreached ((extends_room isName tree).keepsFolders.reaches reaches)
  · intro after written
    exact unreached ((writeFile_path_eq_ok_iff isName).mp written).2.1

namespace Stands

theorem later {after : FileTree} (stands : parcel.Stands tree) (closed : after.Closed)
    (keeps : tree.KeepsFolders after) : parcel.Stands after :=
  ⟨closed, stands.isName, stands.folder.imp_left keeps.reaches⟩

variable (stands : parcel.Stands tree)
include stands

theorem extends_room : tree.Extends (parcel.room tree) := Parcel.extends_room stands.isName tree

theorem room : parcel.Stands (parcel.room tree) :=
  stands.later (stands.extends_room.closed stands.closed) stands.extends_room.keepsFolders

theorem place_room : parcel.place (parcel.room tree) = parcel.place tree :=
  place_eq stands.extends_room.keepsFolders

theorem room_room : parcel.room (parcel.room tree) = parcel.room tree := by
  obtain ⟨parent, -, rooms⟩ := exists_room parcel.folder
  rw [rooms parcel rfl stands.isName, rooms parcel rfl stands.isName]
  exact FileTree.withFolder_withFolder stands.closed parent

/-- Making the folder puts nothing in the place of the file. -/
theorem entry?_room :
    FileTree.entry? (parcel.room tree) (parcel.place tree) = tree.entry? (parcel.place tree) := by
  rcases stands.folder with reaches | noUp
  · rw [room_of_reaches stands.isName reaches]
  · obtain ⟨parent, same, rooms⟩ := exists_room parcel.folder
    rw [rooms parcel rfl stands.isName]
    apply FileTree.entry?_withFolder stands.closed (by rwa [same.2])
    rw [FileTree.destination_of_same same, place]
    intro onWay
    have longer := onWay.length_le
    rw [List.length_append, List.length_singleton] at longer
    omega

/-- A folder with something in the place of the file is there already. -/
theorem reaches_of_entry {later : FileTree} (keeps : tree.KeepsFolders later)
    (reaches : later.Reaches parcel.folder) {entry : Entry}
    (found : tree.entry? (parcel.place tree) = some entry) : tree.Reaches parcel.folder := by
  rcases stands.folder with there | noUp
  · exact there
  · rw [← place_eq keeps, place] at found
    exact keeps.reaches_of_entry stands.closed noUp reaches found

/-- What is read hangs on what is in the place of the file. -/
theorem readFile_eq_ok_iff {later : FileTree} (keeps : tree.KeepsFolders later)
    (same : later.entry? (parcel.place tree) = tree.entry? (parcel.place tree))
    (bytes : ByteArray) :
    later.readFile parcel.path = .ok bytes ↔ tree.readFile parcel.path = .ok bytes := by
  rw [readFile_path_eq_ok_iff stands.isName, readFile_path_eq_ok_iff stands.isName,
    place_eq keeps, same]
  constructor
  · rintro ⟨fits, reaches, found⟩
    exact ⟨fits, stands.reaches_of_entry keeps reaches found, found⟩
  · rintro ⟨fits, reaches, found⟩
    exact ⟨fits, keeps.reaches reaches, found⟩

/-- A delivery comes to the same once the folder is made. -/
theorem deliver_room (force : Bool) :
    parcel.deliver force (parcel.room tree) = parcel.deliver force tree := by
  by_cases reaches : (parcel.room tree).Reaches parcel.folder
  · -- The path names something in both trees or in neither.
    have same : (kindOn (parcel.room tree) parcel.path).isSome =
        (kindOn tree parcel.path).isSome := by
      rw [Bool.eq_iff_iff, kindOn_path_isSome_iff stands.isName,
        kindOn_path_isSome_iff stands.isName, stands.place_room, stands.entry?_room]
      constructor
      · rintro ⟨fits, -, entry, found⟩
        exact ⟨fits, stands.reaches_of_entry stands.extends_room.keepsFolders reaches found, entry,
          found⟩
      · rintro ⟨fits, -, found⟩
        exact ⟨fits, reaches, found⟩
    by_cases present : (kindOn tree parcel.path).isSome
    · have there := ((kindOn_path_isSome_iff stands.isName).mp present).2.1
      rw [room_of_reaches stands.isName there]
    · rw [deliver, deliver, same, stands.room_room, if_neg (fun skips => present skips.2),
        if_neg (fun skips => present skips.2)]
  · rw [deliver_of_stuck stands.isName reaches, deliver_of_stuck stands.isName, stands.room_room]
    rwa [stands.room_room]

/-- A delivery does nothing but make the folder, and then has written nothing, or it writes the
file, for which there was nothing in its place unless it is forced. -/
theorem deliver_cases (force : Bool) :
    (∃ result : Option (List Path), (result.map fun _ => []) = result ∧
      parcel.deliver force tree = (result, parcel.room tree)) ∨
    (parcel.room tree).Reaches parcel.folder ∧
      parcel.verdict force (tree.entry? (parcel.place tree)) = .written ∧
      parcel.deliver force tree = (some [parcel.path],
        (parcel.room tree).put (parcel.place tree) (.file parcel.bytes)) := by
  rw [← stands.deliver_room, ← stands.entry?_room, ← stands.place_room]
  by_cases reaches : (parcel.room tree).Reaches parcel.folder
  · rw [deliver_of_reaches stands.isName reaches]
    generalize parcel.verdict force _ = verdict
    cases verdict with
    | kept => exact .inl ⟨some [], rfl, rfl⟩
    | refused => exact .inl ⟨none, rfl, rfl⟩
    | written => exact .inr ⟨reaches, rfl, rfl⟩
  · rw [deliver_of_stuck stands.isName (by rwa [stands.room_room]), stands.room_room]
    exact .inl ⟨none, rfl, rfl⟩

/-! ## What a delivery keeps -/

theorem keepsFolders (force : Bool) : tree.KeepsFolders (parcel.deliver force tree).2 := by
  have grows := stands.extends_room.keepsFolders
  rcases stands.deliver_cases force with ⟨result, -, same⟩ | ⟨-, verdict, same⟩
  · rwa [same]
  · rw [same]
    refine grows.trans (.put (parcel.place_ne_nil tree) ?_ _)
    rw [stands.entry?_room]
    exact (verdict_eq_written_iff.mp verdict).2.1

theorem closed_deliver (force : Bool) : (parcel.deliver force tree).2.Closed := by
  have closed := stands.extends_room.closed stands.closed
  rcases stands.deliver_cases force with ⟨result, -, same⟩ | ⟨reaches, verdict, same⟩
  · rwa [same]
  · rw [same]
    refine closed.put (parcel.place_ne_nil tree) ?_ ?_ _
    · rw [← stands.place_room, place, List.dropLast_concat]
      exact reaches.2.there
    · rw [stands.entry?_room]
      exact (verdict_eq_written_iff.mp verdict).2.1

/-- A delivery keeps all that is in other places. -/
theorem entry?_deliver (force : Bool) {location : Location} (differs : location ≠ parcel.place tree)
    {entry : Entry} (found : tree.entry? location = some entry) :
    FileTree.entry? (parcel.deliver force tree).2 location = some entry := by
  have kept := stands.extends_room.kept found
  rcases stands.deliver_cases force with ⟨result, -, same⟩ | ⟨-, -, same⟩
  · rwa [same]
  · rw [same, FileTree.entry?_put (parcel.place_ne_nil tree), if_neg differs, kept]

/-- Without force, it keeps everything. -/
theorem entry?_deliver_false {location : Location} {entry : Entry}
    (found : tree.entry? location = some entry) :
    FileTree.entry? (parcel.deliver false tree).2 location = some entry := by
  by_cases own : location = parcel.place tree
  · rcases stands.deliver_cases false with ⟨result, -, same⟩ | ⟨-, verdict, -⟩
    · rw [same]
      exact stands.extends_room.kept found
    · rw [own, (verdict_eq_written_iff.mp verdict).2.2 rfl] at found
      cases found
  · exact stands.entry?_deliver false own found

/-- No file is new but the one that is delivered. -/
theorem file_of_deliver {force : Bool} {location : Location} {bytes : ByteArray}
    (found : FileTree.entry? (parcel.deliver force tree).2 location = some (.file bytes)) :
    location = parcel.place tree ∨ tree.entry? location = some (.file bytes) := by
  rcases stands.deliver_cases force with ⟨result, -, same⟩ | ⟨-, -, same⟩
  · rw [same] at found
    exact .inr (stands.extends_room.file_iff.mp found)
  · rw [same, FileTree.entry?_put (parcel.place_ne_nil tree)] at found
    split at found
    · rename_i own
      exact .inl own
    · exact .inr (stands.extends_room.file_iff.mp found)

/-! ## Delivering again -/

/-- A second delivery writes nothing, and fails where the first one failed. -/
theorem again :
    parcel.deliver false (parcel.deliver false tree).2 =
      ((parcel.deliver false tree).1.map fun _ => [], (parcel.deliver false tree).2) := by
  rcases stands.deliver_cases false with ⟨result, unwritten, same⟩ | ⟨reaches, verdict, same⟩
  · rw [same, stands.deliver_room, same, unwritten]
  · -- The file is there now, so it is left alone.
    obtain ⟨fits, noFolder, -⟩ := verdict_eq_written_iff.mp verdict
    rw [← stands.entry?_room] at noFolder
    have keeps := FileTree.KeepsFolders.put (parcel.place_ne_nil tree) noFolder
      (.file parcel.bytes)
    rw [same, deliver_of_present]
    · rfl
    · refine (kindOn_path_isSome_iff stands.isName).mpr
        ⟨fits, keeps.reaches reaches, .file parcel.bytes, ?_⟩
      rw [place_eq keeps, stands.place_room]
      exact FileTree.entry?_put_self (parcel.place_ne_nil tree) _

/-- What changes nothing writes nothing, and finds its folder made as far as it can be. -/
theorem of_idle {result : Option (List Path)}
    (idle : parcel.deliver false tree = (result, tree)) :
    parcel.room tree = tree ∧ (tree.Reaches parcel.folder →
      parcel.verdict false (tree.entry? (parcel.place tree)) ≠ .written) := by
  -- A file that is written was not there before, so the tree changes.
  have changes (before : FileTree) (written : parcel.verdict false
      (tree.entry? (parcel.place tree)) = .written) :
      before.put (parcel.place tree) (.file parcel.bytes) ≠ tree :=
    FileTree.put_ne (parcel.place_ne_nil tree) _ ((verdict_eq_written_iff.mp written).2.2 rfl)
  refine ⟨?_, ?_⟩
  · rcases stands.deliver_cases false with ⟨other, -, same⟩ | ⟨-, written, same⟩
    · exact (Prod.mk.inj (same.symm.trans idle)).2
    · exact absurd (Prod.mk.inj (same.symm.trans idle)).2 (changes _ written)
  · intro reaches written
    rw [deliver_of_reaches stands.isName reaches, written] at idle
    exact changes tree written (Prod.mk.inj idle).2

end Stands

end

/-! ## Families of files -/

/-- Files with names, for folders that are all there or for one folder that is named without steps
upwards. -/
structure Family (parcels : List Parcel) (tree : FileTree) : Prop where
  closed : tree.Closed
  names : ∀ parcel ∈ parcels, Path.IsName parcel.name
  folders : (∀ parcel ∈ parcels, tree.Reaches parcel.folder) ∨
    ∃ folder : Path, ['.', '.'] ∉ folder.steps ∧ ∀ parcel ∈ parcels, parcel.folder = folder

section

variable {parcel other : Parcel} {tree : FileTree}

theorem entry?_carry {verdict : Verdict} {location : Location}
    (differs : location ≠ parcel.place tree) :
    FileTree.entry? (parcel.carry verdict tree).2 location = tree.entry? location := by
  cases verdict
  · rfl
  · rfl
  · exact (FileTree.entry?_put (parcel.place_ne_nil tree) _ _).trans (if_neg differs)

theorem result_carry (verdict : Verdict) (after : FileTree) :
    (parcel.carry verdict after).1 = (parcel.carry verdict tree).1 := by
  cases verdict <;> rfl

theorem carry_comm (differs : parcel.place tree ≠ other.place tree) (verdict next : Verdict) :
    (parcel.carry verdict (other.carry next tree).2).2 =
      (other.carry next (parcel.carry verdict tree).2).2 := by
  cases verdict
  · rfl
  · rfl
  · cases next
    · rfl
    · rfl
    · exact FileTree.put_comm tree differs.symm _ _

/-- Where the folders are there, deliveries to different places do not show in each other. -/
theorem apart_of_reaches (stands : parcel.Stands tree) (standsOther : other.Stands tree)
    (reaches : tree.Reaches parcel.folder) (reachesOther : tree.Reaches other.folder)
    (differs : parcel.place tree ≠ other.place tree) (force : Bool) :
    (parcel.deliver force).Apart (other.deliver force) tree := by
  have keeps := stands.keepsFolders force
  have keepsOther := standsOther.keepsFolders force
  have alone := deliver_of_reaches stands.isName reaches force
  have aloneOther := deliver_of_reaches standsOther.isName reachesOther force
  have behind := deliver_of_reaches stands.isName (keepsOther.reaches reaches) force
  have behindOther := deliver_of_reaches standsOther.isName (keeps.reaches reachesOther) force
  rw [place_eq keepsOther, aloneOther, entry?_carry differs] at behind
  rw [place_eq keeps, alone, entry?_carry differs.symm] at behindOther
  refine ⟨?_, ?_, ?_⟩
  · rw [aloneOther, behind, alone, result_carry]
  · rw [alone, behindOther, aloneOther, result_carry]
  · rw [aloneOther, behind, alone, behindOther, carry_comm differs]

namespace Family

variable {parcels : List Parcel}

theorem later {after : FileTree} (family : Family parcels tree) (closed : after.Closed)
    (keeps : tree.KeepsFolders after) : Family parcels after :=
  ⟨closed, family.names,
    family.folders.imp_left fun reaches parcel member => keeps.reaches (reaches parcel member)⟩

theorem stands (family : Family parcels tree) (member : parcel ∈ parcels) :
    parcel.Stands tree where
  closed := family.closed
  isName := family.names parcel member
  folder := by
    rcases family.folders with reaches | ⟨folder, noUp, same⟩
    · exact .inl (reaches parcel member)
    · exact .inr (by rwa [same parcel member])

theorem keeps_deliver (member : parcel ∈ parcels) (force : Bool) :
    (parcel.deliver force).Keeps (Family parcels) := by
  intro tree family
  have stands := family.stands member
  exact family.later (stands.closed_deliver force) (stands.keepsFolders force)

/-- Once their rooms are made, the folders of two members are there or nothing can be delivered to
them. -/
theorem ready_or_stuck (family : Family parcels tree) (member : parcel ∈ parcels)
    (memberOther : other ∈ parcels) :
    parcel.room tree = other.room tree ∧
      ((parcel.room tree).Reaches parcel.folder ∧ (parcel.room tree).Reaches other.folder ∨
        ¬ (parcel.room tree).Reaches parcel.folder ∧
          ¬ (parcel.room tree).Reaches other.folder) := by
  have isName := family.names parcel member
  have isOther := family.names other memberOther
  rcases family.folders with reaches | ⟨folder, -, same⟩
  · have here := reaches parcel member
    have there := reaches other memberOther
    rw [room_of_reaches isName here, room_of_reaches isOther there]
    exact ⟨rfl, .inl ⟨here, there⟩⟩
  · have sameFolder := (same parcel member).trans (same other memberOther).symm
    refine ⟨room_eq_of_folder isOther isName sameFolder tree, ?_⟩
    rw [sameFolder, and_self, and_self]
    exact em _

/-- A delivery leaves what is in other places as it is. -/
theorem entry?_deliver_of_ne (family : Family parcels tree) (member : parcel ∈ parcels)
    (memberOther : other ∈ parcels) (differs : parcel.place tree ≠ other.place tree)
    (force : Bool) :
    FileTree.entry? (other.deliver force tree).2 (parcel.place tree) =
      tree.entry? (parcel.place tree) := by
  have sameRoom := (family.ready_or_stuck member memberOther).1
  have made := (family.stands member).entry?_room
  rw [sameRoom] at made
  rcases (family.stands memberOther).deliver_cases force with ⟨result, -, same⟩ | ⟨-, -, same⟩
  · rw [same, made]
  · rw [same, FileTree.entry?_put (other.place_ne_nil tree), if_neg differs, made]

/-- So it leaves what is read there. -/
theorem readFile_deliver_of_ne (family : Family parcels tree) (member : parcel ∈ parcels)
    (memberOther : other ∈ parcels) (differs : parcel.place tree ≠ other.place tree)
    (force : Bool) (bytes : ByteArray) :
    (other.deliver force tree).2.readFile parcel.path = .ok bytes ↔
      tree.readFile parcel.path = .ok bytes :=
  (family.stands member).readFile_eq_ok_iff ((family.stands memberOther).keepsFolders force)
    (family.entry?_deliver_of_ne member memberOther differs force) bytes

/-- Deliveries to different places do not show in each other. -/
theorem apart (family : Family parcels tree) (member : parcel ∈ parcels)
    (memberOther : other ∈ parcels) (differs : parcel.place tree ≠ other.place tree)
    (force : Bool) : (parcel.deliver force).Apart (other.deliver force) tree := by
  have stands := family.stands member
  have standsOther := family.stands memberOther
  obtain ⟨sameRoom, both⟩ := family.ready_or_stuck member memberOther
  have alone := stands.deliver_room force
  have aloneOther := standsOther.deliver_room force
  rw [← sameRoom] at aloneOther
  suffices apart : (parcel.deliver force).Apart (other.deliver force) (parcel.room tree) by
    obtain ⟨result, otherResult, same⟩ := apart
    rw [alone, aloneOther] at result otherResult same
    exact ⟨result, otherResult, same⟩
  rcases both with ⟨reaches, reachesOther⟩ | ⟨unreached, unreachedOther⟩
  · have standsThen := standsOther.room
    rw [← sameRoom] at standsThen
    refine apart_of_reaches stands.room standsThen reaches reachesOther ?_ force
    rwa [stands.place_room, sameRoom, standsOther.place_room]
  · have stuck := deliver_of_stuck stands.isName unreached force
    have stuckOther := deliver_of_stuck standsOther.isName (sameRoom ▸ unreachedOther) force
    rw [← sameRoom] at stuckOther
    rw [← alone] at stuck
    rw [← aloneOther] at stuckOther
    refine ⟨?_, ?_, ?_⟩
    · rw [stuckOther]
    · rw [stuck]
    · rw [stuck, stuckOther, stuck]

/-- A delivery that changes nothing changes nothing after others either. -/
theorem idle_after (family : Family parcels tree) (member : parcel ∈ parcels)
    (memberOther : other ∈ parcels) {result : Option (List Path)}
    (idle : parcel.deliver false tree = (result, tree)) :
    parcel.deliver false (other.deliver false tree).2 =
      (result, (other.deliver false tree).2) := by
  have stands := family.stands member
  have standsOther := family.stands memberOther
  obtain ⟨made, unwritten⟩ := stands.of_idle idle
  obtain ⟨sameRoom, both⟩ := family.ready_or_stuck member memberOther
  rw [made] at sameRoom both
  rcases both with ⟨reaches, -⟩ | ⟨-, unreachedOther⟩
  · have keeps := standsOther.keepsFolders false
    have here := deliver_of_reaches stands.isName reaches false
    rw [deliver_of_reaches stands.isName (keeps.reaches reaches), place_eq keeps]
    have unwritten := unwritten reaches
    rw [here] at idle
    have sameVerdict : parcel.verdict false
        (FileTree.entry? (other.deliver false tree).2 (parcel.place tree)) =
          parcel.verdict false (tree.entry? (parcel.place tree)) := by
      cases found : tree.entry? (parcel.place tree) with
      | some entry => rw [standsOther.entry?_deliver_false found]
      | none =>
        have misfit : ¬ parcel.Fits := fun fits =>
          unwritten (verdict_eq_written_iff.mpr ⟨fits, by simp [found], fun _ => found⟩)
        rw [verdict_of_not_fits misfit, verdict_of_not_fits misfit]
    rw [sameVerdict]
    revert idle unwritten
    cases parcel.verdict false (tree.entry? (parcel.place tree)) with
    | kept => exact fun idle _ => by rw [carry, (Prod.mk.inj idle).1]
    | refused => exact fun idle _ => by rw [carry, (Prod.mk.inj idle).1]
    | written => exact fun _ unwritten => absurd rfl unwritten
  · rw [deliver_of_stuck standsOther.isName (by rwa [← sameRoom]), ← sameRoom, idle]

end Family

end

end Parcel
end Lectern
