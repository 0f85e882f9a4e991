import Mathlib.Data.List.Infix
import Lectern.Files.FileTree
import Lectern.Proofs.Files.Path
import Lectern.Proofs.OrderedMap

/-!
# Ways through a file tree

Following a path passes one folder for each of its parts. Where a path leads depends on its front
and its steps alone, and it leads there if it reaches a folder (`follow_of_reaches`). In a closed
tree a path leads to a folder, or to a name in the folder that its parent leads to
(`of_follow_closed`).
-/

namespace Lectern.FileTree

/-- Every entry stands in a folder. -/
def Closed (tree : FileTree) : Prop :=
  ∀ location entry, tree.entry? location = some entry →
    tree.entry? location.dropLast = some .folder

/-- Whether there is a folder at a location that can be looked up. -/
def IsFolder (tree : FileTree) (location : Location) : Prop :=
  tree.lookUp location = .ok (some .folder)

/-- Where one part of a path leads from a folder. -/
def move (here : Location) (part : Text) : Location :=
  if Path.isIdle part then here else if part = ".." then here.dropLast else here ++ [part]

/-- Where the parts of a path lead one after another. -/
def arrive (here : Location) (parts : List Text) : Location := parts.foldl move here

/-- Where a path begins. -/
def start (tree : FileTree) (path : Path) : Location :=
  if path.isAbsolute then [] else tree.working

/-- Where a path leads to if its way is open. -/
def destination (tree : FileTree) (path : Path) : Location :=
  arrive (tree.start path) path.steps

/-- Whether every part of a way leads on from a folder. -/
def Passes (tree : FileTree) (here : Location) : List Text → Prop
  | [] => True
  | part :: rest => tree.IsFolder here ∧ tree.Passes (move here part) rest

/-- Whether a path leads to a folder. -/
def Reaches (tree : FileTree) (path : Path) : Prop :=
  tree.Passes (tree.start path) path.steps ∧ tree.IsFolder (tree.destination path)

/-! ## Entries -/

section

variable {tree : FileTree} {location : Location}

theorem entry?_root (tree : FileTree) : tree.entry? [] = some .folder := rfl

/-- A tree is closed if each of its entries stands in a folder; the root needs none. -/
theorem closed_of_entries
    (inFolder : ∀ pair ∈ tree.entries.entries, tree.entry? pair.1.dropLast = some .folder) :
    tree.Closed := by
  intro location entry found
  rw [FileTree.entry?] at found
  split at found
  · rename_i root
    rw [root]
    exact entry?_root tree
  · exact inFolder _ (OrderedMap.mem_of_find_eq_some found)

theorem ne_root (noFolder : tree.entry? location ≠ some .folder) : location ≠ [] := by
  rintro rfl
  exact noFolder (entry?_root tree)

theorem entry?_put (below : location ≠ []) (entry : Entry) (other : Location) :
    FileTree.entry? (tree.put location entry) other =
      if other = location then some entry else tree.entry? other := by
  rw [FileTree.entry?, FileTree.entry?, put, OrderedMap.get?_insert]
  by_cases root : other = []
  · simp [root, Ne.symm below]
  · simp [root]

theorem entry?_eq_of_lookUp {found : Option Entry} (looked : tree.lookUp location = .ok found) :
    tree.entry? location = found := by
  rw [lookUp] at looked
  split at looked
  · cases looked
  · exact Except.ok.inj looked

theorem IsFolder.there (folder : tree.IsFolder location) :
    tree.entry? location = some .folder := entry?_eq_of_lookUp folder

/-- Whether a location can be looked up does not depend on the tree. -/
theorem lookUp_of_lookUp {other : FileTree} {found : Option Entry}
    (looked : tree.lookUp location = .ok found) :
    other.lookUp location = .ok (other.entry? location) := by
  rw [lookUp] at looked ⊢
  split at looked
  · cases looked
  · rename_i fits
    rw [if_neg fits]

theorem IsFolder.of_there {other : FileTree} {found : Option Entry}
    (looked : other.lookUp location = .ok found) (folder : tree.entry? location = some .folder) :
    tree.IsFolder location := by
  rw [IsFolder, lookUp_of_lookUp looked, folder]

end

/-! ## Following -/

section

variable {tree : FileTree}

theorem step_eq_ok_iff {here there : Location} {part : Text} :
    tree.step here part = .ok there ↔ tree.IsFolder here ∧ move here part = there := by
  rw [step, IsFolder, move]
  cases looked : tree.lookUp here with
  | error error => simp [bind, Except.bind]
  | ok found =>
    rcases found with _ | ⟨bytes⟩ | _
    · simp [bind, Except.bind]
    · simp [bind, Except.bind]
    · simp [bind, Except.bind]

theorem foldlM_step_eq_ok_iff {here there : Location} {parts : List Text} :
    parts.foldlM tree.step here = .ok there ↔
      tree.Passes here parts ∧ arrive here parts = there := by
  induction parts generalizing here with
  | nil => simp [Passes, arrive, pure, Except.pure]
  | cons part rest ih =>
    rw [List.foldlM_cons, Passes]
    constructor
    · intro followed
      cases stepped : tree.step here part with
      | error error =>
        rw [stepped] at followed
        cases followed
      | ok next =>
        rw [stepped] at followed
        obtain ⟨folder, rfl⟩ := step_eq_ok_iff.mp stepped
        obtain ⟨passes, same⟩ := ih.mp followed
        exact ⟨⟨folder, passes⟩, same⟩
    · rintro ⟨⟨folder, passes⟩, same⟩
      have stepped : tree.step here part = .ok (move here part) :=
        step_eq_ok_iff.mpr ⟨folder, rfl⟩
      rw [stepped]
      exact ih.mpr ⟨passes, same⟩

theorem passes_append {here : Location} {lead rest : List Text} :
    tree.Passes here (lead ++ rest) ↔
      tree.Passes here lead ∧ tree.Passes (arrive here lead) rest := by
  induction lead generalizing here with
  | nil => simp [Passes, arrive]
  | cons part lead ih => simp [Passes, arrive, ih, and_assoc]

theorem move_of_idle {part : Text} (idle : Path.isIdle part) (here : Location) :
    move here part = here := if_pos idle

/-- Idle parts lead nowhere. -/
theorem arrive_filter (here : Location) (parts : List Text) :
    arrive here (parts.filter fun part => !Path.isIdle part) = arrive here parts := by
  induction parts generalizing here with
  | nil => rfl
  | cons part rest ih =>
    by_cases idle : Path.isIdle part
    · rw [List.filter_cons_of_neg (by simp [idle]), ih, arrive, arrive, List.foldl_cons,
        move_of_idle idle]
    · rw [List.filter_cons_of_pos (by simp [idle])]
      exact ih (move here part)

theorem Passes.filter {here : Location} {parts : List Text} (passes : tree.Passes here parts) :
    tree.Passes here (parts.filter fun part => !Path.isIdle part) := by
  induction parts generalizing here with
  | nil => trivial
  | cons part rest ih =>
    have behind := ih passes.2
    by_cases idle : Path.isIdle part
    · rw [List.filter_cons_of_neg (by simp [idle])]
      rwa [move_of_idle idle] at behind
    · rw [List.filter_cons_of_pos (by simp [idle])]
      exact ⟨passes.1, behind⟩

/-- Idle parts do not close a way that leads to a folder. -/
theorem Passes.of_filter {here : Location} {parts : List Text}
    (passes : tree.Passes here (parts.filter fun part => !Path.isIdle part))
    (folder : tree.IsFolder (arrive here parts)) : tree.Passes here parts := by
  induction parts generalizing here with
  | nil => trivial
  | cons part rest ih =>
    by_cases idle : Path.isIdle part
    · rw [List.filter_cons_of_neg (by simp [idle])] at passes
      have same : arrive here (part :: rest) = arrive here rest := by
        rw [arrive, List.foldl_cons, move_of_idle idle]
        rfl
      rw [same] at folder
      have started : tree.IsFolder here := by
        cases counting : rest.filter fun part => !Path.isIdle part with
        | nil =>
          -- No part that counts is left, so the way ends here.
          rwa [← arrive_filter, counting] at folder
        | cons next more =>
          rw [counting] at passes
          exact passes.1
      have behind := ih passes folder
      refine ⟨started, ?_⟩
      rwa [move_of_idle idle]
    · rw [List.filter_cons_of_pos (by simp [idle])] at passes
      exact ⟨passes.1, ih passes.2 folder⟩

/-- A path that reaches a folder leads there. -/
theorem follow_of_reaches {path : Path} (reaches : tree.Reaches path) :
    tree.follow path = .ok (tree.destination path) := by
  have same : arrive (tree.start path) (path.splitOn '/') = tree.destination path := by
    rw [destination, Path.steps, arrive_filter]
  refine foldlM_step_eq_ok_iff.mpr ⟨?_, same⟩
  exact reaches.1.of_filter (by rw [same]; exact reaches.2)

theorem start_eq {path other : Path} (same : path.front = other.front) :
    tree.start path = tree.start other := by
  rw [start, start, Path.isAbsolute_eq same]

/-- A name in a folder is found behind the folder. -/
theorem follow_join_eq_ok_iff (folder : Path) {name : Text} (isName : Path.IsName name)
    {location : Location} :
    tree.follow (Path.join folder name) = .ok location ↔
      tree.Reaches folder ∧ location = tree.destination folder ++ [name] := by
  obtain ⟨lead, parts, steps⟩ := isName.splitOn_join folder
  have sameStart : tree.start (Path.join folder name) = tree.start folder :=
    start_eq (Path.front_join folder isName.front_eq_nil)
  have same : arrive (tree.start folder) lead = tree.destination folder := by
    rw [destination, ← steps, arrive_filter]
  have last (here : Location) : arrive here [name] = here ++ [name] := by
    simp [arrive, move, isName.counts, isName.notUp]
  have followed : tree.follow (Path.join folder name) = .ok location ↔
      tree.Passes (tree.start folder) (lead ++ [name]) ∧
        arrive (tree.start folder) (lead ++ [name]) = location := by
    rw [← parts, ← sameStart]
    exact foldlM_step_eq_ok_iff
  have arrived : arrive (tree.start folder) (lead ++ [name]) =
      tree.destination folder ++ [name] := by
    rw [arrive, List.foldl_append, ← arrive, ← arrive, same, last]
  rw [followed, passes_append, arrived, same, Reaches, ← steps]
  constructor
  · rintro ⟨⟨passes, folder, -⟩, rfl⟩
    exact ⟨⟨passes.filter, folder⟩, rfl⟩
  · rintro ⟨⟨passes, folder⟩, rfl⟩
    refine ⟨⟨passes.of_filter (by rw [same]; exact folder), folder, trivial⟩, rfl⟩

/-- A path leads to a folder, or to a name in the folder that is its parent. -/
theorem of_follow_closed (closed : tree.Closed) {path : Path} {location : Location}
    (followed : tree.follow path = .ok location)
    (noFolder : tree.entry? location ≠ some .folder) :
    ∃ folder name, path.parent? = some folder ∧ path.fileName? = some name ∧
      tree.Reaches folder ∧ location = tree.destination folder ++ [name] := by
  obtain ⟨passes, rfl⟩ := foldlM_step_eq_ok_iff.mp followed
  have whole := List.dropLast_append_getLast (List.splitOn_ne_nil '/' path)
  generalize (path.splitOn '/').dropLast = lead at whole
  generalize (path.splitOn '/').getLast _ = last at whole
  rw [← whole, passes_append] at passes
  obtain ⟨passesLead, isFolder, -⟩ := passes
  have arrived : arrive (tree.start path) (path.splitOn '/') =
      move (arrive (tree.start path) lead) last := by
    rw [← whole, arrive, List.foldl_append]
    rfl
  change tree.entry? (arrive (tree.start path) (path.splitOn '/')) ≠ _ at noFolder
  rw [arrived] at noFolder
  have isName : Path.IsName last := by
    refine ⟨?_, ?_, ?_⟩
    · exact Text.absent_of_mem_splitOn (by rw [← whole]; simp)
    · rw [← Bool.not_eq_true]
      intro idle
      rw [move_of_idle idle] at noFolder
      exact noFolder isFolder.there
    · rintro rfl
      exact noFolder (closed _ _ isFolder.there)
  have steps : path.steps = (lead.filter fun part => !Path.isIdle part) ++ [last] := by
    rw [Path.steps, ← whole, List.filter_append, List.filter_singleton, isName.counts]
    rfl
  have nonempty : path.steps ≠ [] := by simp [steps]
  obtain ⟨folder, parent, -, front, most⟩ := Path.exists_parent nonempty
  rw [steps, List.dropLast_concat] at most
  have sameStart : tree.start folder = tree.start path := start_eq front
  have destination : tree.destination folder = arrive (tree.start path) lead := by
    rw [FileTree.destination, most, sameStart, arrive_filter]
  refine ⟨folder, last, parent, ?_, ⟨?_, ?_⟩, ?_⟩
  · rw [Path.fileName?_eq, steps, List.getLast?_concat]
    simp [isName.notUp]
  · rw [most, sameStart]
    exact passesLead.filter
  · rwa [destination]
  · change arrive (tree.start path) (path.splitOn '/') = _
    rw [destination, arrived]
    simp [move, isName.counts, isName.notUp]

end

/-! ## Closed trees -/

namespace Closed

variable {tree : FileTree} (closed : tree.Closed)
include closed

/-- All that is above a folder are folders. -/
theorem folder_of_prefix {lead location : Location} (above : lead <+: location)
    (folder : tree.entry? location = some .folder) : tree.entry? lead = some .folder := by
  obtain ⟨more, rfl⟩ := above
  induction more using List.reverseRecOn with
  | nil => rwa [List.append_nil] at folder
  | append_singleton more name ih =>
    apply ih
    have parent := closed _ _ folder
    rwa [← List.append_assoc, List.dropLast_concat] at parent

/-- An entry put into a folder keeps a tree closed, if it takes no folder away. -/
theorem put {location : Location} (below : location ≠ [])
    (parent : tree.entry? location.dropLast = some .folder)
    (noFolder : tree.entry? location ≠ some .folder) (entry : Entry) :
    (tree.put location entry).Closed := by
  intro other found there
  have inFolder : tree.entry? other.dropLast = some .folder := by
    rw [entry?_put below] at there
    split at there
    · rename_i same
      rwa [same]
    · exact closed other found there
  rw [entry?_put below, if_neg (fun same => noFolder (by rwa [same] at inFolder)), inFolder]

end Closed

end Lectern.FileTree
