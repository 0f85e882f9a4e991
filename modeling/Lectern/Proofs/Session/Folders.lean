import Lectern.Proofs.Files.Places
import Lectern.Proofs.Session.Machine

/-!
# Making folders with those above them

A missing folder is made after those above it. `Makes` says what comes of this, one case for each
way it can end, and `makes_makeFoldersWithin` that the command does just that. By induction on it:
a failure leaves the folder unreached (`Makes.not_folder_of_error`), the folders that are new lie on
the way to it (`Makes.entry?_eq`), and a second attempt changes nothing (`Makes.again`), be it that
the first one succeeded or that it got stuck on the way.
-/

namespace Lectern

namespace FileTree

open Machine

variable {tree : FileTree} {path : Path}

/-! ## What a path names -/

theorem kindOn_isSome_iff :
    (kindOn tree path).isSome ↔ ∃ location entry, tree.find path = .ok (location, entry) := by
  rw [kindOn]
  rcases tree.find path with error | ⟨location, bytes | _⟩
  · simp
  · simp
  · simp

theorem kindOn_of_unusable {error : FileError} (unusable : path.check = .error error) :
    kindOn tree path = none := by
  rw [kindOn, find, locate, unusable]
  rfl

theorem reaches_of_find {location : Location} (found : tree.find path = .ok (location, .folder)) :
    tree.Reaches path ∧ tree.destination path = location := by
  obtain ⟨located, looked⟩ := find_eq_ok_iff.mp found
  obtain ⟨-, followed⟩ := locate_eq_ok_iff.mp located
  have place := destination_of_follow followed
  refine ⟨⟨(foldlM_step_eq_ok_iff.mp followed).1.filter, ?_⟩, place⟩
  rwa [place]

theorem kindOn_eq_folder_iff_find :
    kindOn tree path = some .folder ↔ ∃ location, tree.find path = .ok (location, .folder) := by
  rw [kindOn]
  rcases tree.find path with error | ⟨location, bytes | _⟩
  · simp
  · simp
  · simp

theorem kindOn_eq_folder_iff :
    kindOn tree path = some .folder ↔ path.check = .ok () ∧ tree.Reaches path := by
  rw [kindOn_eq_folder_iff_find]
  constructor
  · rintro ⟨location, found⟩
    have located := (find_eq_ok_iff.mp found).1
    exact ⟨(locate_eq_ok_iff.mp located).1, (reaches_of_find found).1⟩
  · rintro ⟨usable, reaches⟩
    have located := locate_eq_ok_iff.mpr ⟨usable, follow_of_reaches reaches⟩
    exact ⟨_, find_eq_ok_iff.mpr ⟨located, reaches.2⟩⟩

theorem KeepsFolders.kindOn_folder {later : FileTree} (keeps : tree.KeepsFolders later)
    (isFolder : kindOn tree path = some .folder) : kindOn later path = some .folder := by
  obtain ⟨usable, reaches⟩ := kindOn_eq_folder_iff.mp isFolder
  exact kindOn_eq_folder_iff.mpr ⟨usable, keeps.reaches reaches⟩

section

variable (folder : Path) {name : Text} (isName : Path.IsName name)
include isName

/-- What is found behind a folder stands there under a name that is short enough. -/
theorem find_join_eq_ok_iff {location : Location} {entry : Entry} :
    tree.find (Path.join folder name) = .ok (location, entry) ↔
      (Path.join folder name).check = .ok () ∧ tree.Reaches folder ∧
        Text.byteLength name ≤ Path.nameLimit ∧ location = tree.destination folder ++ [name] ∧
        tree.entry? location = some entry := by
  rw [find_eq_ok_iff, locate_eq_ok_iff, follow_join_eq_ok_iff folder isName]
  constructor
  · rintro ⟨⟨usable, reaches, rfl⟩, looked⟩
    obtain ⟨short, there⟩ := lookUp_concat_eq_ok_iff.mp looked
    exact ⟨usable, reaches, short, rfl, there⟩
  · rintro ⟨usable, reaches, short, rfl, there⟩
    exact ⟨⟨usable, reaches, rfl⟩, lookUp_concat_eq_ok_iff.mpr ⟨short, there⟩⟩

theorem kindOn_join_isSome_iff :
    (kindOn tree (Path.join folder name)).isSome ↔
      (Path.join folder name).check = .ok () ∧ tree.Reaches folder ∧
        Text.byteLength name ≤ Path.nameLimit ∧
        ∃ entry, tree.entry? (tree.destination folder ++ [name]) = some entry := by
  rw [kindOn_isSome_iff]
  simp only [find_join_eq_ok_iff folder isName]
  constructor
  · rintro ⟨_, entry, usable, reaches, short, rfl, there⟩
    exact ⟨usable, reaches, short, entry, there⟩
  · rintro ⟨usable, reaches, short, entry, there⟩
    exact ⟨_, entry, usable, reaches, short, rfl, there⟩

theorem readFile_join_eq_ok_iff {bytes : ByteArray} :
    tree.readFile (Path.join folder name) = .ok bytes ↔
      (Path.join folder name).check = .ok () ∧ tree.Reaches folder ∧
        Text.byteLength name ≤ Path.nameLimit ∧
        tree.entry? (tree.destination folder ++ [name]) = some (.file bytes) := by
  have isFile : tree.readFile (Path.join folder name) = .ok bytes ↔
      ∃ location, tree.find (Path.join folder name) = .ok (location, .file bytes) := by
    rw [readFile]
    rcases tree.find (Path.join folder name) with error | ⟨location, content | _⟩
    · simp [bind, Except.bind]
    · simp [bind, Except.bind]
    · simp [bind, Except.bind]
  rw [isFile]
  simp only [find_join_eq_ok_iff folder isName]
  constructor
  · rintro ⟨_, usable, reaches, short, rfl, there⟩
    exact ⟨usable, reaches, short, there⟩
  · rintro ⟨usable, reaches, short, there⟩
    exact ⟨_, usable, reaches, short, rfl, there⟩

end

/-! ## Slashes behind a folder -/

/-- A folder is found with slashes behind its path too, unless this is too long then. -/
theorem find_slashed {location : Location} (found : tree.find path = .ok (location, .folder))
    {count : Nat} (short : Text.byteLength path + count ≤ Path.lengthLimit) :
    tree.find (path.slashed count) = .ok (location, .folder) := by
  obtain ⟨usable, nonempty⟩ : path.check = .ok () ∧ path ≠ [] := by
    have usable := (locate_eq_ok_iff.mp (find_eq_ok_iff.mp found).1).1
    exact ⟨usable, (Path.check_eq_ok_iff.mp usable).2.1⟩
  obtain ⟨reaches, rfl⟩ := reaches_of_find found
  have same := same_slashed nonempty count
  have reachesToo := reaches.of_same ⟨same.1.symm, same.2.symm⟩
  have check := Path.check_slashed_append usable count List.not_mem_nil
  rw [List.append_nil, if_neg (Nat.not_lt.mpr (by exact short))] at check
  have located := locate_eq_ok_iff.mpr ⟨check, follow_of_reaches reachesToo⟩
  rw [destination_of_same same] at located
  exact find_eq_ok_iff.mpr ⟨located, reaches.2⟩

/-- So is what stands in the folder. -/
theorem find_join_slashed {name : Text} (isName : Path.IsName name) {location : Location}
    {entry : Entry} (found : tree.find (Path.join path name) = .ok (location, entry)) {count : Nat}
    (usable : (Path.join (path.slashed count) name).check = .ok ()) (nonempty : path ≠ []) :
    tree.find (Path.join (path.slashed count) name) = .ok (location, entry) := by
  obtain ⟨-, reaches, short, rfl, there⟩ := (find_join_eq_ok_iff path isName).mp found
  have same := same_slashed nonempty count
  refine (find_join_eq_ok_iff _ isName).mpr
    ⟨usable, reaches.of_same ⟨same.1.symm, same.2.symm⟩, short, ?_, there⟩
  rw [destination_of_same same]

/-! ## Making a folder and those above it -/

/-- The answer for a folder that could not be made: it is none the less there, or it is not. -/
def settle (tree : FileTree) (path : Path) (error : FileError) : Except FileError Unit :=
  if kindOn tree path = some .folder then .ok () else .error error

/-- Making a folder, with those above it if it has none to stand in. -/
inductive Makes (tree : FileTree) : Path → Except FileError Unit → FileTree → Prop where
  | nothing : Makes tree [] (.ok ()) tree
  | made {path : Path} {after : FileTree} (nonempty : path ≠ [])
      (made : tree.makeFolder path = .ok after) : Makes tree path (.ok ()) after
  | refused {path : Path} {error : FileError} (nonempty : path ≠ [])
      (failed : tree.makeFolder path = .error error) (present : error ≠ .notFound) :
      Makes tree path (tree.settle path error) tree
  | orphan {path : Path} (nonempty : path ≠ [])
      (missing : tree.makeFolder path = .error .notFound) (top : path.parent? = none) :
      Makes tree path (.error (.other "failed to create whole tree")) tree
  | stopped {path parent : Path} {error : FileError} {after : FileTree} (nonempty : path ≠ [])
      (missing : tree.makeFolder path = .error .notFound) (above : path.parent? = some parent)
      (first : Makes tree parent (.error error) after) : Makes tree path (.error error) after
  | behind {path parent : Path} {middle after : FileTree} (nonempty : path ≠ [])
      (missing : tree.makeFolder path = .error .notFound) (above : path.parent? = some parent)
      (first : Makes tree parent (.ok ()) middle) (made : middle.makeFolder path = .ok after) :
      Makes tree path (.ok ()) after
  | refusedBehind {path parent : Path} {middle : FileTree} {error : FileError}
      (nonempty : path ≠ []) (missing : tree.makeFolder path = .error .notFound)
      (above : path.parent? = some parent) (first : Makes tree parent (.ok ()) middle)
      (failed : middle.makeFolder path = .error error) :
      Makes tree path (middle.settle path error) middle

theorem settle_eq_error {error failure : FileError}
    (failed : tree.settle path error = .error failure) : kindOn tree path ≠ some .folder := by
  intro isFolder
  rw [settle, if_pos isFolder] at failed
  cases failed

/-- Where a path to a folder can be used, so can the parent, unless that is the empty path. -/
theorem folder_of_parent {parent : Path} (above : path.parent? = some parent)
    (nonempty : parent ≠ []) (usable : path.check = .ok ()) (reaches : tree.Reaches parent) :
    kindOn tree parent = some .folder := by
  refine kindOn_eq_folder_iff.mpr ⟨?_, reaches⟩
  rcases Path.parent?_eq_nil_or above with ⟨-, -, empty⟩ | ⟨-, start, -⟩
  · exact absurd empty nonempty
  · exact Path.check_of_prefix usable start nonempty

theorem noUp_parent {parent : Path} (above : path.parent? = some parent)
    (noUp : ['.', '.'] ∉ path.steps) : ['.', '.'] ∉ parent.steps := by
  rcases Path.parent?_eq_nil_or above with ⟨-, -, rfl⟩ | ⟨-, -, -, most⟩
  · exact List.not_mem_nil
  · rw [most]
    exact fun up => noUp (List.dropLast_subset _ up)

/-- Without steps upwards, the way to the parent is a start of the way. -/
theorem aside_parent {parent : Path} (above : path.parent? = some parent)
    (noUp : ['.', '.'] ∉ path.steps) {location : Location}
    (aside : ¬ location <+: tree.destination path) :
    ¬ location <+: tree.destination parent := by
  intro onWay
  refine aside (onWay.trans ?_)
  rcases Path.parent?_eq_nil_or above with ⟨idle, dot, rfl⟩ | ⟨idle, -, front, most⟩
  · rw [destination, destination, start_eq_of_dot tree dot, idle]
    exact List.prefix_refl _
  · rw [destination, destination, start_eq front, most]
    conv_rhs => rw [← List.dropLast_append_getLast idle, arrive, List.foldl_append]
    refine prefix_arrive ?_ _
    rw [List.mem_singleton]
    intro up
    exact noUp (up ▸ List.getLast_mem idle)

namespace Makes

variable {after : FileTree} {answer : Except FileError Unit}

theorem grows (makes : tree.Makes path answer after) : tree.Extends after := by
  induction makes with
  | nothing => exact .refl tree
  | made _ made => exact extends_of_makeFolder made
  | refused => exact .refl tree
  | orphan => exact .refl tree
  | stopped _ _ _ _ ih => exact ih
  | behind _ _ _ _ made ih => exact ih.trans (extends_of_makeFolder made)
  | refusedBehind _ _ _ _ _ ih => exact ih

/-- What is made depends on the tree alone. -/
theorem unique (makes : tree.Makes path answer after) {next : Except FileError Unit}
    {last : FileTree} (other : tree.Makes path next last) : next = answer ∧ last = after := by
  -- The cases differ in what the tree answers, or in what came of the folder above.
  induction makes generalizing next last with
  | nothing => cases other <;> simp_all
  | made => cases other <;> simp_all
  | refused => cases other <;> simp_all
  | orphan => cases other <;> simp_all
  | stopped => cases other <;> grind
  | behind => cases other <;> grind
  | refusedBehind => cases other <;> grind

/-- A making ends at once, or the folder above comes first. -/
theorem eq_or_made_or_above (makes : tree.Makes path answer after) :
    after = tree ∨ tree.makeFolder path = .ok after ∨
      tree.makeFolder path = .error .notFound ∧ ∃ parent first middle,
        path.parent? = some parent ∧ tree.Makes parent first middle ∧
        (after = middle ∨ middle.makeFolder path = .ok after) := by
  cases makes with
  | nothing => exact .inl rfl
  | made _ made => exact .inr (.inl made)
  | refused => exact .inl rfl
  | orphan => exact .inl rfl
  | stopped _ missing above first => exact .inr (.inr ⟨missing, _, _, _, above, first, .inl rfl⟩)
  | behind _ missing above first made =>
    exact .inr (.inr ⟨missing, _, _, _, above, first, .inr made⟩)
  | refusedBehind _ missing above first =>
    exact .inr (.inr ⟨missing, _, _, _, above, first, .inl rfl⟩)

/-- Nothing is made if the folder cannot be made and nothing is made for those above. -/
theorem eq_of_stuck (unmade : ∀ made, tree.makeFolder path ≠ .ok made)
    (stuck : tree.makeFolder path = .error .notFound → ∀ parent first middle,
      path.parent? = some parent → tree.Makes parent first middle → middle = tree)
    (makes : tree.Makes path answer after) : after = tree := by
  rcases makes.eq_or_made_or_above with same | made |
    ⟨missing, parent, first, middle, above, before, rfl | made⟩
  · exact same
  · exact absurd made (unmade after)
  · exact stuck missing parent first after above before
  · obtain rfl := stuck missing parent first middle above before
    exact absurd made (unmade after)

/-- A folder that is reached is not made again. -/
theorem eq_of_reaches (nonempty : path ≠ []) (reaches : tree.Reaches path)
    (makes : tree.Makes path answer after) : after = tree := by
  obtain ⟨error, refused, present⟩ := makeFolder_of_reaches nonempty reaches
  refine makes.eq_of_stuck ?_ ?_
  · intro made same
    cases refused.symm.trans same
  · intro missing
    exact absurd (Except.error.inj (refused.symm.trans missing)) present

theorem ne_nil_of_error {error : FileError} (makes : tree.Makes path (.error error) after) :
    path ≠ [] := by
  generalize failed : Except.error error = answer at makes
  cases makes with
  | nothing => cases failed
  | _ => assumption

/-- A failure leaves the folder out. -/
theorem not_folder_of_error {error : FileError} (makes : tree.Makes path (.error error) after) :
    kindOn after path ≠ some .folder := by
  generalize failed : Except.error error = answer at makes
  induction makes with
  | nothing => cases failed
  | made => cases failed
  | refused => exact settle_eq_error failed.symm
  | orphan nonempty missing =>
    intro isFolder
    obtain ⟨-, reaches⟩ := kindOn_eq_folder_iff.mp isFolder
    obtain ⟨error, refused, present⟩ := makeFolder_of_reaches nonempty reaches
    exact present (Except.error.inj (refused.symm.trans missing))
  | stopped _ _ above first ih =>
    intro isFolder
    obtain ⟨usable, reaches⟩ := kindOn_eq_folder_iff.mp isFolder
    exact ih failed
      (folder_of_parent above first.ne_nil_of_error usable (reaches.parent above))
  | behind => cases failed
  | refusedBehind => exact settle_eq_error failed.symm

/-- A second attempt changes nothing. -/
theorem again (closed : tree.Closed) (makes : tree.Makes path answer after)
    {next : Except FileError Unit} {last : FileTree} (repeated : after.Makes path next last) :
    last = after := by
  induction makes generalizing next last with
  | nothing =>
    cases repeated with
    | nothing => rfl
    | _ => contradiction
  | made nonempty made =>
    obtain ⟨-, -, reaches, -⟩ := reaches_of_makeFolder closed made
    exact repeated.eq_of_reaches nonempty reaches
  | refused _ failed present =>
    refine repeated.eq_of_stuck ?_ ?_
    · intro made same
      cases failed.symm.trans same
    · intro missing
      exact absurd (Except.error.inj (failed.symm.trans missing)) present
  | orphan _ missing top =>
    refine repeated.eq_of_stuck ?_ ?_
    · intro made same
      cases missing.symm.trans same
    · intro _ parent _ _ above
      cases top.symm.trans above
  | stopped nonempty missing above first ih =>
    refine repeated.eq_of_stuck ?_ ?_
    · intro made same
      obtain ⟨usable, parents, -⟩ := reaches_of_makeFolder (first.grows.closed closed) same
      exact first.not_folder_of_error
        (folder_of_parent above first.ne_nil_of_error usable (parents _ above))
    · intro _ parent _ _ aboveToo before
      obtain rfl := Option.some.inj (above.symm.trans aboveToo)
      exact ih before
  | behind nonempty _ _ first made =>
    obtain ⟨-, -, reaches, -⟩ := reaches_of_makeFolder (first.grows.closed closed) made
    exact repeated.eq_of_reaches nonempty reaches
  | refusedBehind _ _ above _ failed ih =>
    refine repeated.eq_of_stuck ?_ ?_
    · intro made same
      cases failed.symm.trans same
    · intro _ parent _ _ aboveToo before
      obtain rfl := Option.some.inj (above.symm.trans aboveToo)
      exact ih before

/-- What is new lies on the way to the folder. -/
theorem entry?_eq (makes : tree.Makes path answer after) (closed : tree.Closed)
    (noUp : ['.', '.'] ∉ path.steps) {location : Location}
    (aside : ¬ location <+: tree.destination path) :
    after.entry? location = tree.entry? location := by
  have made {tree after : FileTree} {path : Path} (closed : tree.Closed)
      (made : tree.makeFolder path = .ok after) (aside : ¬ location <+: tree.destination path) :
      after.entry? location = tree.entry? location := by
    obtain ⟨-, -, -, rfl, below⟩ := reaches_of_makeFolder closed made
    rw [entry?_put below, if_neg]
    rintro rfl
    exact aside (List.prefix_refl _)
  induction makes with
  | nothing => rfl
  | made _ there => exact made closed there aside
  | refused => rfl
  | orphan => rfl
  | stopped _ _ above _ ih =>
    exact ih (noUp_parent above noUp) (aside_parent above noUp aside)
  | behind _ _ above first there ih =>
    have grows := first.grows
    rw [made (grows.closed closed) there (by rwa [grows.keepsFolders.destination])]
    exact ih (noUp_parent above noUp) (aside_parent above noUp aside)
  | refusedBehind _ _ above _ _ ih =>
    exact ih (noUp_parent above noUp) (aside_parent above noUp aside)

end Makes

end FileTree

namespace Machine

theorem apply_bind {α β : Type} (action : Simulated α) (next : α → Simulated β)
    (machine : Machine) : (action >>= next) machine = next (action machine).1 (action machine).2 :=
  rfl

theorem unlessFolder_apply (machine : Machine) (path : Path) (error : FileError) :
    (do if ← Host.isFolder path then pure (.ok ()) else pure (.error error) :
      Simulated (Except FileError Unit)) machine = (machine.tree.settle path error, machine) := by
  have asked : (Host.isFolder path : Simulated Bool) machine =
      (decide (kindOn machine.tree path = some .folder), machine) := rfl
  rw [apply_bind, asked, FileTree.settle]
  by_cases isFolder : kindOn machine.tree path = some .folder
  · rw [if_pos isFolder, if_pos (decide_eq_true isFolder)]
    rfl
  · rw [if_neg isFolder, if_neg (by simpa using isFolder)]
    rfl

/-- The command makes a folder with those above it, if its bound admits the whole path. -/
theorem makes_makeFoldersWithin {bound : Nat} {path : Path} (long : path.length < bound)
    (machine : Machine) :
    machine.tree.Makes path ((Host.makeFoldersWithin bound path : Simulated _) machine).1
      ((Host.makeFoldersWithin bound path : Simulated _) machine).2.tree := by
  induction bound generalizing path machine with
  | zero => exact absurd long (Nat.not_lt_zero _)
  | succ more ih =>
    rw [Host.makeFoldersWithin]
    split
    · rename_i empty
      rw [empty]
      exact .nothing
    rename_i nonempty
    have tried (ready : Machine) : (Host.makeFolder path : Simulated _) ready =
        ready.update (ready.tree.makeFolder path) := rfl
    rw [apply_bind, tried]
    cases made : machine.tree.makeFolder path with
    | ok after => exact .made nonempty made
    | error error =>
      by_cases missing : error = .notFound
      · subst missing
        simp only [update]
        cases above : path.parent? with
        | none => exact .orphan nonempty made above
        | some parent =>
          have shorter := Path.length_parent?_lt nonempty above
          have first : machine.tree.Makes parent _ _ := ih (by omega) machine
          dsimp only
          rw [apply_bind]
          revert first
          rcases (Host.makeFoldersWithin more parent : Simulated _) machine with
            ⟨failure | done, middle⟩
          · exact fun first => .stopped nonempty made above first
          · intro first
            dsimp only
            rw [apply_bind, tried]
            cases again : middle.tree.makeFolder path with
            | ok after => exact .behind nonempty made above first again
            | error error =>
              simp only [update]
              rw [unlessFolder_apply]
              exact .refusedBehind nonempty made above first again
      · simp only [update]
        rw [unlessFolder_apply]
        exact .refused nonempty made missing

/-- Making sure of a folder makes nothing if the path names something, or is empty. Otherwise it
makes the folder with those above it. -/
theorem run_ensureFolder_cases (machine : Machine) (path : Path) :
    (path = [] ∨ (kindOn machine.tree path).isSome) ∧
        machine.run (Host.ensureFolder path) = (.ok (), machine) ∨
      ¬ (path = [] ∨ (kindOn machine.tree path).isSome) ∧ ∃ answer after,
        machine.tree.Makes path answer after.tree ∧
        machine.run (Host.ensureFolder path) =
          (answer.mapError (.file .makeFolder path), after) := by
  rw [Host.ensureFolder, run_bind_of_ok (run_exists? machine path)]
  have asks : (path ≠ [] ∧ (!(kindOn machine.tree path).isSome) = true) ↔
      ¬ (path = [] ∨ (kindOn machine.tree path).isSome) := by simp
  split
  · rename_i asked
    rw [run_orFail]
    refine .inr ⟨asks.mp asked, _, _, ?_, rfl⟩
    exact makes_makeFoldersWithin (Nat.lt_succ_self _) machine
  · rename_i unasked
    exact .inl ⟨Decidable.not_not.mp (fun absent => unasked (asks.mpr absent)), rfl⟩

end Machine

namespace FileTree

open Machine

/-! ## Making sure of a folder -/

/-- The tree once a folder has been made, as far as it can be. -/
def withFolder (tree : FileTree) (path : Path) : FileTree :=
  ((fresh tree).run (Host.ensureFolder path)).2.tree

variable {tree : FileTree} {path : Path}

theorem withFolder_eq_or (tree : FileTree) (path : Path) :
    tree.withFolder path = tree ∨
      path ≠ [] ∧ ∃ answer, tree.Makes path answer (tree.withFolder path) := by
  rw [withFolder]
  rcases run_ensureFolder_cases (fresh tree) path with
    ⟨-, ran⟩ | ⟨absent, answer, after, makes, ran⟩
  · rw [ran]
    exact .inl rfl
  · rw [ran]
    exact .inr ⟨fun empty => absent (.inl empty), answer, makes⟩

theorem extends_withFolder (tree : FileTree) (path : Path) :
    tree.Extends (tree.withFolder path) := extends_ensureFolder (fresh tree) path

theorem withFolder_of_reaches (reaches : tree.Reaches path) : tree.withFolder path = tree := by
  rcases tree.withFolder_eq_or path with same | ⟨nonempty, answer, makes⟩
  · exact same
  · exact makes.eq_of_reaches nonempty reaches

/-- What cannot be made the first time cannot be made later. -/
theorem withFolder_withFolder (closed : tree.Closed) (path : Path) :
    (tree.withFolder path).withFolder path = tree.withFolder path := by
  rcases tree.withFolder_eq_or path with same | ⟨-, answer, makes⟩
  · rw [same, same]
  · rcases (tree.withFolder path).withFolder_eq_or path with again | ⟨-, next, repeated⟩
    · exact again
    · exact makes.again closed repeated

/-- Nothing is new but what lies on the way to the folder. -/
theorem entry?_withFolder (closed : tree.Closed) (noUp : ['.', '.'] ∉ path.steps)
    {location : Location} (aside : ¬ location <+: tree.destination path) :
    FileTree.entry? (tree.withFolder path) location = tree.entry? location := by
  rcases tree.withFolder_eq_or path with same | ⟨-, answer, makes⟩
  · rw [same]
  · exact makes.entry?_eq closed noUp aside

end FileTree

namespace Machine

/-- Making sure of a folder does to a machine what it does to its tree, and if it fails, the folder
is not there. -/
theorem run_ensureFolder (machine : Machine) (path : Path) :
    (machine.run (Host.ensureFolder path)).2.tree = machine.tree.withFolder path ∧
      ∀ failure, (machine.run (Host.ensureFolder path)).1 = .error failure →
        path ≠ [] ∧ kindOn (machine.tree.withFolder path) path ≠ some .folder := by
  rw [FileTree.withFolder]
  rcases run_ensureFolder_cases machine path with
    ⟨present, ran⟩ | ⟨absent, answer, after, makes, ran⟩
  · rcases run_ensureFolder_cases (fresh machine.tree) path with ⟨-, same⟩ | ⟨absent, -⟩
    · rw [ran, same]
      exact ⟨rfl, fun _ failed => nomatch failed⟩
    · exact absurd present absent
  · rcases run_ensureFolder_cases (fresh machine.tree) path with
      ⟨present, -⟩ | ⟨-, next, last, makesToo, same⟩
    · exact absurd present absent
    · obtain ⟨rfl, sameTree⟩ := makes.unique makesToo
      rw [ran, same]
      refine ⟨sameTree.symm, ?_⟩
      intro failure failed
      refine ⟨fun empty => absent (.inl empty), ?_⟩
      cases next with
      | error error => exact makesToo.not_folder_of_error
      | ok made => cases failed

end Machine
end Lectern
