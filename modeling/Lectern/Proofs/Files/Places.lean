import Lectern.Proofs.Files.Changes

/-!
# Folders and what stands in them

All files of a folder have one parent (`exists_parent_join`), and a path that leads anywhere leads
to its destination, which hangs on the working folder alone. A file can be written exactly if its
path can be used, its folder is reached, its name is short enough and no folder is in its place
(`writeFile_join_eq_ok_iff`). Making a folder works exactly where its parent is reached and leaves
a tree in which the folder is.
-/

namespace Lectern.Path

/-! ## Paths that can be used -/

theorem byteLength_append (a b : Text) :
    Text.byteLength (a ++ b) = Text.byteLength a + Text.byteLength b := by
  rw [← Text.length_utf8, ← Text.length_utf8, ← Text.length_utf8, Text.utf8, List.flatMap_append,
    List.length_append]
  rfl

theorem check_eq_ok_iff {path : Path} :
    path.check = .ok () ↔ (∀ c ∈ path, c.toNat ≠ 0) ∧ path ≠ [] ∧
      Text.byteLength path ≤ lengthLimit := by
  have noNul : (path.any fun c => c.toNat = 0) = false ↔ ∀ c ∈ path, c.toNat ≠ 0 := by simp
  rw [check]
  split
  · rename_i nul
    rw [← noNul, nul]
    simp
  · rename_i usable
    rw [Bool.not_eq_true, noNul] at usable
    split
    · simp_all
    · split
      · simp_all
      · simp_all

/-- A path without NUL can be used unless it is too long. -/
theorem check_eq_of_noNul {path : Path} (noNul : '\x00' ∉ path) (nonempty : path ≠ []) :
    path.check =
      if lengthLimit < Text.byteLength path then .error .nameTooLong else .ok () := by
  have usable : ¬ (path.any fun c => c.toNat = 0) = true := by
    rw [List.any_eq_true]
    rintro ⟨c, member, zero⟩
    have isNul : c.toNat = '\x00'.toNat := of_decide_eq_true zero
    exact noNul (Char.toNat_inj.mp isNul ▸ member)
  rw [check, if_neg usable, if_neg nonempty]

theorem noNul_of_check {path : Path} (usable : path.check = .ok ()) : '\x00' ∉ path :=
  fun nul => (check_eq_ok_iff.mp usable).1 _ nul rfl

/-- A start of a path that can be used can be used. -/
theorem check_of_prefix {path lead : Path} (usable : path.check = .ok ()) (start : lead <+: path)
    (nonempty : lead ≠ []) : lead.check = .ok () := by
  obtain ⟨rest, rfl⟩ := start
  obtain ⟨noNul, -, short⟩ := check_eq_ok_iff.mp usable
  rw [byteLength_append] at short
  refine check_eq_ok_iff.mpr ⟨?_, nonempty, by omega⟩
  exact fun c member => noNul c (List.mem_append_left _ member)

/-- A path with slashes at its end. -/
def slashed (path : Path) (count : Nat) : Path := path ++ List.replicate count '/'

/-- Slashes count for the length of a path. -/
theorem check_slashed_append {path rest : Path} (usable : path.check = .ok ()) (count : Nat)
    (noNul : '\x00' ∉ rest) :
    (path.slashed count ++ rest).check =
      if lengthLimit < Text.byteLength path + count + Text.byteLength rest then
        .error .nameTooLong
      else .ok () := by
  obtain ⟨-, nonempty, -⟩ := check_eq_ok_iff.mp usable
  have slashes : Text.byteLength (List.replicate count '/') = count := by
    induction count with
    | zero => rfl
    | succ count ih =>
      rw [List.replicate_succ', byteLength_append, ih]
      rfl
  have length : Text.byteLength (path.slashed count ++ rest) =
      Text.byteLength path + count + Text.byteLength rest := by
    rw [byteLength_append, slashed, byteLength_append, slashes]
  rw [← length]
  refine check_eq_of_noNul ?_ (by simp [slashed, nonempty])
  rw [slashed, List.mem_append, List.mem_append, List.mem_replicate]
  simp [noNul_of_check usable, noNul]

/-- So a name behind a folder may make a path too long. -/
theorem IsName.check_join_slashed {name : Text} (isName : IsName name)
    (noNul : '\x00' ∉ name) {path : Path} (usable : path.check = .ok ()) (count : Nat) :
    (join (path.slashed (count + 1)) name).check =
      if lengthLimit < Text.byteLength path + (count + 1) + Text.byteLength name then
        .error .nameTooLong
      else .ok () := by
  have relative : isAbsolute name = false := by
    rw [← Bool.not_eq_true, isAbsolute_iff, isName.front_eq_nil]
    decide
  have joined : join (path.slashed (count + 1)) name = path.slashed (count + 1) ++ name := by
    simp [join, relative, slashed, List.replicate_succ']
  rw [joined, check_slashed_append usable (count + 1) noNul]

/-- A path that cannot be used is not one that leads nowhere, unless it is empty. -/
theorem check_ne_notFound {path : Path} (nonempty : path ≠ []) :
    path.check ≠ .error .notFound := by
  rw [check, if_neg nonempty]
  split
  · simp
  · split <;> simp

/-! ## Parents -/

theorem parent?_eq_nil_or {path parent : Path} (above : path.parent? = some parent) :
    path.steps = [] ∧ path.front = ['.'] ∧ parent = [] ∨
      path.steps ≠ [] ∧ parent <+: path ∧ parent.front = path.front ∧
        parent.steps = path.steps.dropLast := by
  by_cases idle : path.steps = []
  · left
    have empty : path.parts = [] := by
      rw [← List.getLast?_eq_none_iff, getLast?_parts, idle]
      rfl
    rw [parent?, empty] at above
    dsimp only at above
    split at above
    · rename_i dot
      exact ⟨idle, dot, (Option.some.inj above).symm⟩
    · cases above
  · right
    obtain ⟨folder, found, start, front, most⟩ := exists_parent idle
    obtain rfl := Option.some.inj (found.symm.trans above)
    exact ⟨idle, start, front, most⟩

/-- The parent of a path is shorter. -/
theorem length_parent?_lt {path parent : Path} (nonempty : path ≠ [])
    (above : path.parent? = some parent) : parent.length < path.length := by
  rcases parent?_eq_nil_or above with ⟨-, -, rfl⟩ | ⟨idle, start, -, most⟩
  · exact List.length_pos_iff.mpr nonempty
  · refine Nat.lt_of_le_of_ne start.length_le ?_
    intro same
    obtain rfl := start.eq_of_length same
    have shorter := congrArg List.length most
    have some := List.length_pos_iff.mpr idle
    rw [List.length_dropLast] at shorter
    omega

theorem length_front_le (path : Path) : path.front.length ≤ 1 := by
  rcases front_cases path with ⟨rest, rfl⟩ | ⟨rest, rfl, front, -⟩ | ⟨front, -⟩
  · exact Nat.le_refl 1
  · rw [front]
    exact Nat.le_refl 1
  · rw [front]
    exact Nat.zero_le 1

/-- What stands in a folder is behind one slash. -/
theorem exists_join_eq {folder : Path} (nonempty : folder ≠ []) :
    ∃ body, ∀ name, IsName name → join folder name = body ++ '/' :: name := by
  have relative {name : Text} (isName : IsName name) : isAbsolute name = false := by
    rw [← Bool.not_eq_true, isAbsolute_iff, isName.front_eq_nil]
    decide
  by_cases slash : folder.getLast? = some '/'
  · obtain ⟨body, rfl⟩ := List.getLast?_eq_some_iff.mp slash
    refine ⟨body, fun name isName => ?_⟩
    simp [join, relative isName]
  · refine ⟨folder, fun name isName => ?_⟩
    simp [join, relative isName, nonempty, slash]

/-- Paths in a folder have the same parts but for the name. -/
theorem exists_parts_join (folder : Path) :
    ∃ lead, ∀ name, IsName name → (join folder name).parts = lead ++ [name] := by
  have ends (lead : List Text) {name : Text} (isName : IsName name) :
      dropIdleEnd (lead ++ [name]) = lead ++ [name] := by
    change (lead ++ [name]).rdropWhile isIdle = _
    rw [List.rdropWhile_concat, if_neg (by simp [isName.counts])]
  have single {name : Text} (isName : IsName name) := List.splitOn_eq_singleton isName.noSlash
  by_cases empty : folder = []
  · refine ⟨[], fun name isName => ?_⟩
    obtain ⟨-, joined⟩ | ⟨lead, slash, -⟩ | ⟨nonempty, -⟩ := join_cases folder isName.front_eq_nil
    · rw [joined, parts, isName.front_eq_nil, List.length_nil, List.drop_zero, single isName]
      exact ends [] isName
    · simp [empty] at slash
    · exact absurd empty nonempty
  · obtain ⟨body, joined⟩ := exists_join_eq empty
    by_cases fits : folder.front.length ≤ body.length
    · refine ⟨(body.drop folder.front.length).splitOn '/', fun name isName => ?_⟩
      rw [parts, front_join folder isName.front_eq_nil, joined name isName,
        List.drop_append_of_le_length fits, List.splitOn_append_cons_self, single isName]
      exact ends _ isName
    · -- The front is the slash itself: the folder is the root.
      have one := length_front_le folder
      have root : body = [] := List.length_eq_zero_iff.mp (by omega)
      have front : folder.front.length = 1 := by
        rw [root] at fits
        simp only [List.length_nil] at fits
        omega
      refine ⟨[], fun name isName => ?_⟩
      rw [parts, front_join folder isName.front_eq_nil, joined name isName, root, front,
        List.nil_append, List.drop_one, List.tail_cons, single isName]
      exact ends [] isName

/-- All files of a folder have one parent, which differs from the folder in idle parts alone. -/
theorem exists_parent_join (folder : Path) :
    ∃ parent, parent.Same folder ∧
      ∀ name, IsName name → (join folder name).parent? = some parent := by
  obtain ⟨lead, parts⟩ := exists_parts_join folder
  have parent {name : Text} (isName : IsName name) : (join folder name).parent? =
      some (folder.front ++ ['/'].intercalate (dropIdleEnd lead)) := by
    rw [parent?, front_join folder isName.front_eq_nil]
    split
    · rename_i empty
      simp [parts name isName] at empty
    · rw [parts name isName, List.dropLast_concat]
  refine ⟨_, ?_, fun name isName => parent isName⟩
  have isName : IsName ['x'] := ⟨by decide, by decide, by decide⟩
  rcases parent?_eq_nil_or (parent isName) with ⟨idle, -, -⟩ | ⟨-, -, front, steps⟩
  · rw [steps_join folder isName.front_eq_nil, isName.steps_eq] at idle
    simp at idle
  · rw [front_join folder isName.front_eq_nil] at front
    rw [steps_join folder isName.front_eq_nil, isName.steps_eq, List.dropLast_concat] at steps
    exact ⟨front, steps⟩

end Lectern.Path

namespace Lectern.FileTree

variable {tree : FileTree} {path : Path}

/-! ## Reaching -/

theorem Reaches.of_same {other : Path} (reaches : tree.Reaches path) (same : path.Same other) :
    tree.Reaches other := by
  rwa [Reaches, destination, start_eq same.1, same.2] at reaches

theorem destination_of_same {other : Path} (same : path.Same other) :
    tree.destination path = tree.destination other := by
  rw [destination, destination, start_eq same.1, same.2]

/-- A path that leads anywhere leads to its destination. -/
theorem destination_of_follow {location : Location} (followed : tree.follow path = .ok location) :
    tree.destination path = location := by
  obtain ⟨-, rfl⟩ := foldlM_step_eq_ok_iff.mp followed
  rw [destination, Path.steps, arrive_filter]
  rfl

/-- A path whose front is a single dot begins at the working folder. -/
theorem start_eq_of_dot (tree : FileTree) (dot : path.front = ['.']) :
    tree.start path = tree.start [] := by
  have relative : path.isAbsolute = Path.isAbsolute [] := by
    rw [Bool.eq_iff_iff, Path.isAbsolute_iff, dot]
    decide
  rw [start, start, relative]

/-- Where a path leads to a folder, so does its parent. -/
theorem Reaches.parent {parent : Path} (reaches : tree.Reaches path)
    (above : path.parent? = some parent) : tree.Reaches parent := by
  rcases Path.parent?_eq_nil_or above with ⟨idle, dot, rfl⟩ | ⟨idle, -, front, most⟩
  · rwa [Reaches, destination, start_eq_of_dot tree dot, idle] at reaches
  · obtain ⟨passes, -⟩ := reaches
    rw [← List.dropLast_append_getLast idle, passes_append, ← most, ← start_eq front] at passes
    exact ⟨passes.1, passes.2.1⟩

theorem destination_join (tree : FileTree) (folder : Path) {name : Text}
    (isName : Path.IsName name) :
    tree.destination (Path.join folder name) = tree.destination folder ++ [name] := by
  rw [destination, destination, Path.steps_join folder isName.front_eq_nil, isName.steps_eq,
    start_eq (Path.front_join folder isName.front_eq_nil), arrive, List.foldl_append]
  simp [arrive, move, isName.counts, isName.notUp]

/-- What a path leads to in a tree is found in a later one, if the entry there is the same. -/
theorem find_eq_of_keeps {later : FileTree} (keeps : tree.KeepsFolders later)
    {location : Location} (followed : tree.follow path = .ok location)
    (same : later.entry? location = tree.entry? location) : later.find path = tree.find path := by
  have followedToo := keeps.follow followed
  have looked : later.lookUp location = tree.lookUp location := by rw [lookUp, lookUp, same]
  rw [find, find, locate, locate]
  cases path.check with
  | error error => rfl
  | ok usable => simp only [bind, Except.bind, followed, followedToo, looked]

/-! ## Slashes at the end -/

theorem exists_dropSlashes_append (path : Path) :
    ∃ count, path = (dropSlashes path).slashed count := by
  induction path using List.reverseRecOn with
  | nil => exact ⟨0, rfl⟩
  | append_singleton lead c ih =>
    obtain ⟨count, whole⟩ := ih
    by_cases slash : c = '/'
    · subst slash
      have same : dropSlashes (lead ++ ['/']) = dropSlashes lead := by simp [dropSlashes]
      refine ⟨count + 1, ?_⟩
      rw [same, Path.slashed, List.replicate_succ', ← List.append_assoc, ← Path.slashed, ← whole]
    · exact ⟨0, by simp [dropSlashes, slash, Path.slashed]⟩

theorem steps_slashes (count : Nat) : Path.steps (List.replicate count '/') = [] := by
  induction count with
  | zero => rfl
  | succ count ih => rw [List.replicate_succ, Path.steps_slash_cons, ih]

/-- Slashes at the end of a path count for nothing. -/
theorem same_slashed (nonempty : path ≠ []) (count : Nat) : (path.slashed count).Same path := by
  rw [Path.slashed]
  cases count with
  | zero =>
    rw [List.replicate_zero, List.append_nil]
    exact ⟨rfl, rfl⟩
  | succ count =>
    have steps := Path.steps_append_slash path (List.replicate count '/')
    rw [steps_slashes, List.append_nil, ← List.replicate_succ] at steps
    exact ⟨Path.front_append nonempty fun _ => rfl, steps⟩

theorem same_dropSlashes (nonempty : dropSlashes path ≠ []) : (dropSlashes path).Same path := by
  obtain ⟨count, whole⟩ := exists_dropSlashes_append path
  have same := same_slashed nonempty count
  rw [← whole] at same
  exact ⟨same.1.symm, same.2.symm⟩

/-! ## Making folders -/

/-- Where a folder is reached, it cannot be made, but not because something is missing. -/
theorem makeFolder_of_reaches (nonempty : path ≠ []) (reaches : tree.Reaches path) :
    ∃ error, tree.makeFolder path = .error error ∧ error ≠ .notFound := by
  cases usable : path.check with
  | error error =>
    refine ⟨error, ?_, ?_⟩
    · rw [makeFolder, locateBare, usable]
      rfl
    · rintro rfl
      exact Path.check_ne_notFound nonempty usable
  | ok accepted =>
    refine ⟨.alreadyExists, ?_, by decide⟩
    have located : ∃ location, tree.locateBare path = .ok location ∧ tree.IsFolder location := by
      rw [locateBare, usable]
      by_cases root : dropSlashes path = []
      · exact ⟨[], if_pos root, rfl⟩
      · have bare : tree.Reaches (dropSlashes path) := reaches.of_same
          ⟨(same_dropSlashes root).1.symm, (same_dropSlashes root).2.symm⟩
        exact ⟨_, (if_neg root).trans (follow_of_reaches bare), bare.2⟩
    obtain ⟨location, located, isFolder⟩ := located
    rw [IsFolder] at isFolder
    rw [makeFolder, located]
    simp [isFolder, bind, Except.bind]

/-- A folder that can be made stands in one that is reached, and is reached then. -/
theorem reaches_of_makeFolder (closed : tree.Closed) {after : FileTree}
    (made : tree.makeFolder path = .ok after) :
    path.check = .ok () ∧ (∀ parent, path.parent? = some parent → tree.Reaches parent) ∧
      after.Reaches path ∧ after = tree.put (tree.destination path) .folder ∧
      tree.destination path ≠ [] := by
  obtain ⟨location, located, looked, there, rfl⟩ := of_makeFolder_eq_ok made
  have noFolder : tree.entry? location ≠ some .folder := by simp [there]
  have below := ne_root noFolder
  obtain ⟨usable, led⟩ := of_locateBare_eq_ok located
  have followed := led.resolve_left below
  have bare : dropSlashes path ≠ [] := by
    intro empty
    rw [locateBare, usable] at located
    exact below (Except.ok.inj ((if_pos empty).symm.trans located)).symm
  have same := same_dropSlashes bare
  obtain ⟨folder, name, above, named, reaches, place⟩ := of_follow_closed closed followed noFolder
  have destination : tree.destination path = location := by
    rw [← destination_of_follow followed, destination_of_same same]
  refine ⟨usable, ?_, ?_, by rw [destination], by rwa [destination]⟩
  · intro parent aboveToo
    rcases Path.parent?_eq_nil_or above with ⟨idle, -, -⟩ | ⟨idle, -, front, most⟩
    · simp [Path.fileName?_eq, idle] at named
    · rcases Path.parent?_eq_nil_or aboveToo with ⟨idleToo, -, -⟩ | ⟨-, -, frontToo, mostToo⟩
      · exact absurd (same.2.trans idleToo) idle
      · refine reaches.of_same ⟨?_, ?_⟩
        · rw [front, frontToo, same.1]
        · rw [most, mostToo, same.2]
  · have keeps := KeepsFolders.put below noFolder .folder
    have followedAfter := keeps.follow followed
    have isFolder : (tree.put location .folder).IsFolder location := by
      rw [IsFolder, lookUp_of_lookUp looked, entry?_put below, if_pos rfl]
    refine Reaches.of_same ⟨?_, ?_⟩ same
    · exact (foldlM_step_eq_ok_iff.mp followedAfter).1.filter
    · rwa [destination_of_follow followedAfter]

/-! ## Writing files -/

theorem put_comm (tree : FileTree) {location other : Location} (differs : location ≠ other)
    (entry next : Entry) :
    (tree.put location entry).put other next = (tree.put other next).put location entry := by
  simp only [put, OrderedMap.insert_comm tree.entries differs]

theorem entry?_put_self {location : Location} (below : location ≠ []) (entry : Entry) :
    FileTree.entry? (tree.put location entry) location = some entry :=
  (entry?_put below entry location).trans (if_pos rfl)

/-- Putting an entry does not lead to a tree without one there. -/
theorem put_ne {after : FileTree} {location : Location} (below : location ≠ []) (entry : Entry)
    (absent : after.entry? location = none) : tree.put location entry ≠ after := by
  rintro rfl
  cases (entry?_put_self below entry).symm.trans absent

/-- A name can be looked up exactly if it is short enough. -/
theorem lookUp_concat_eq_ok_iff {location : Location} {name : Text} {found : Option Entry} :
    tree.lookUp (location ++ [name]) = .ok found ↔
      Text.byteLength name ≤ Path.nameLimit ∧ tree.entry? (location ++ [name]) = found := by
  rw [lookUp, List.getLast?_concat]
  by_cases long : Path.nameLimit < Text.byteLength name
  · simp [long, Nat.not_le.mpr long]
  · simp [long, Nat.not_lt.mp long]

theorem getLast?_join_ne_slash (folder : Path) {name : Text} (isName : Path.IsName name) :
    (Path.join folder name).getLast? ≠ some '/' := by
  obtain ⟨start, last, rfl⟩ := List.eq_nil_or_concat name |>.resolve_left isName.nonempty
  have differs : last ≠ '/' := by
    rintro rfl
    exact isName.noSlash (by simp)
  rcases Path.join_cases folder isName.front_eq_nil with ⟨-, joined⟩ | ⟨-, -, joined⟩ |
    ⟨-, joined⟩
  · rw [joined, List.concat_eq_append, List.getLast?_concat]
    simpa using differs
  · rw [joined, List.concat_eq_append, ← List.append_assoc, List.getLast?_concat]
    simpa using differs
  · rw [joined, List.concat_eq_append, ← List.cons_append, ← List.append_assoc,
      List.getLast?_concat]
    simpa using differs

/-- A file can be written in a folder exactly if its path can be used, the folder is reached, its
name is short enough and no folder is in its place. -/
theorem writeFile_join_eq_ok_iff (folder : Path) {name : Text} (isName : Path.IsName name)
    {bytes : ByteArray} {after : FileTree} :
    tree.writeFile (Path.join folder name) bytes = .ok after ↔
      (Path.join folder name).check = .ok () ∧ tree.Reaches folder ∧
        Text.byteLength name ≤ Path.nameLimit ∧
        tree.entry? (tree.destination folder ++ [name]) ≠ some .folder ∧
        after = tree.put (tree.destination folder ++ [name]) (.file bytes) := by
  constructor
  · intro written
    obtain ⟨location, located, looked, noFolder, rfl⟩ := of_writeFile_eq_ok written
    obtain ⟨usable, followed⟩ := locate_eq_ok_iff.mp located
    obtain ⟨reaches, rfl⟩ := (follow_join_eq_ok_iff folder isName).mp followed
    exact ⟨usable, reaches, (lookUp_concat_eq_ok_iff.mp looked).1, noFolder, rfl⟩
  · rintro ⟨usable, reaches, short, noFolder, rfl⟩
    have noSlash := getLast?_join_ne_slash folder isName
    have followed := (follow_join_eq_ok_iff folder isName).mpr ⟨reaches, rfl⟩
    have located : tree.locateBare (Path.join folder name) =
        .ok (tree.destination folder ++ [name]) := by
      rw [locateBare, usable, dropSlashes_eq_self noSlash]
      exact (if_neg (Path.check_eq_ok_iff.mp usable).2.1).trans followed
    have looked : tree.lookUp (tree.destination folder ++ [name]) =
        .ok (tree.entry? (tree.destination folder ++ [name])) :=
      lookUp_concat_eq_ok_iff.mpr ⟨short, rfl⟩
    rw [writeFile, located]
    change (if _ then _ else _) = _
    rw [if_neg noSlash, looked]
    revert noFolder
    rcases tree.entry? (tree.destination folder ++ [name]) with _ | ⟨old⟩ | _
    · exact fun _ => rfl
    · exact fun _ => rfl
    · exact fun noFolder => absurd rfl noFolder

end Lectern.FileTree
