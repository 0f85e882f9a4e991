import Mathlib.Data.List.DropRight
import Lectern.Files.Path
import Lectern.Proofs.Text.Lines

/-!
# Steps of paths

Two paths that differ in idle parts alone have the same front and the same steps, and name the same
file. Joining a name to a folder adds a step, and the parent of a path has one step less. The parent
is a prefix of the path, which keeps its front.
-/

namespace Lectern.Path

/-- The parts of a path that count. -/
def steps (path : Path) : List Text := (path.splitOn '/').filter fun part => !isIdle part

/-- The same front and the same steps. -/
def Same (path other : Path) : Prop := path.front = other.front ∧ path.steps = other.steps

@[simp] theorem steps_nil : steps [] = [] := rfl

/-- The steps on both sides of a slash. -/
theorem steps_append_slash (before after : Path) :
    steps (before ++ '/' :: after) = steps before ++ steps after := by
  rw [steps, List.splitOn_append_cons_self, List.filter_append, steps, steps]

theorem steps_slash_cons (rest : Path) : steps ('/' :: rest) = steps rest :=
  steps_append_slash [] rest

theorem steps_of_noSlash {name : Text} (noSlash : '/' ∉ name) (counts : isIdle name = false) :
    steps name = [name] := by
  rw [steps, List.splitOn_eq_singleton noSlash, List.filter_singleton, counts]
  rfl

theorem noSlash_of_mem_steps {path : Path} {part : Text} (member : part ∈ path.steps) :
    '/' ∉ part :=
  Text.absent_of_mem_splitOn (List.mem_filter.mp member).1

theorem not_idle_of_mem_steps {path : Path} {part : Text} (member : part ∈ path.steps) :
    isIdle part = false := by
  simpa using (List.mem_filter.mp member).2

/-- Joined parts have the steps among them. -/
theorem steps_intercalate {parts : List Text} (noSlash : ∀ part ∈ parts, '/' ∉ part) :
    steps (['/'].intercalate parts) = parts.filter fun part => !isIdle part := by
  by_cases empty : parts = []
  · subst empty
    rfl
  · rw [steps, List.splitOn_intercalate '/' noSlash empty]

theorem steps_cons_ne_nil {rest : Path} (counts : rest.steps ≠ []) (c : Char) :
    steps (c :: rest) ≠ [] := by
  obtain ⟨first, more, parts⟩ := List.exists_cons_of_ne_nil (List.splitOn_ne_nil '/' rest)
  rw [steps, parts] at counts
  rw [steps, List.splitOn_cons_eq_if_modifyHead, parts]
  split
  · exact counts
  · rw [List.modifyHead_cons, List.filter_cons]
    split
    · exact List.cons_ne_nil _ _
    · -- A longer part is idle only if it was empty, so the step is one of the others.
      rename_i idle
      have dot : c = '.' ∧ first = [] := by simpa [isIdle] using idle
      rwa [dot.2, List.filter_cons_of_neg (by decide)] at counts

theorem steps_append_ne_nil (lead : Path) {rest : Path} (counts : rest.steps ≠ []) :
    steps (lead ++ rest) ≠ [] := by
  induction lead with
  | nil => exact counts
  | cons c lead ih => exact steps_cons_ne_nil ih c

/-- Two characters on one side of all slashes belong to a step. -/
theorem steps_ne_nil_of_pair {c d : Char} (first : c ≠ '/') (second : d ≠ '/') (rest : Path) :
    steps (c :: d :: rest) ≠ [] := by
  obtain ⟨part, more, parts⟩ := List.exists_cons_of_ne_nil (List.splitOn_ne_nil '/' rest)
  rw [steps, List.splitOn_cons_eq_if_modifyHead, List.splitOn_cons_eq_if_modifyHead, parts]
  simp [first, second, isIdle]

/-- So do a text without slashes and a character behind it. -/
theorem steps_append_cons_ne_nil {before : Text} (nonempty : before ≠ []) (noSlash : '/' ∉ before)
    {c : Char} (differs : c ≠ '/') (after : Path) : steps (before ++ c :: after) ≠ [] := by
  have last : before.getLast nonempty ≠ '/' := fun same =>
    noSlash (by rw [← same]; exact List.getLast_mem nonempty)
  rw [← List.dropLast_append_getLast nonempty, List.append_assoc, List.singleton_append]
  exact steps_append_ne_nil _ (steps_ne_nil_of_pair last differs after)

/-! ## Fronts -/

theorem front_slash (rest : Path) : front ('/' :: rest) = ['/'] := rfl

/-- A path has no front if it is not absolute and does not start with a single dot. -/
theorem front_eq_nil {path : Path} (relative : path.head? ≠ some '/') (notDot : path ≠ ['.'])
    (noDot : ¬ ['.', '/'] <+: path) : front path = [] := by
  rw [front.eq_def]
  split
  · exact absurd rfl relative
  · exact absurd rfl notDot
  · exact absurd ⟨_, rfl⟩ noDot
  · rfl

/-- A path with its front, if it has one, and what stands behind it. -/
theorem front_cases (path : Path) :
    (∃ rest, path = '/' :: rest) ∨ (∃ rest, path = '.' :: rest ∧ front path = ['.'] ∧
      (rest = [] ∨ rest.head? = some '/')) ∨
    front path = [] ∧ path.head? ≠ some '/' ∧ path ≠ ['.'] ∧ ¬ ['.', '/'] <+: path := by
  by_cases absolute : path.head? = some '/'
  · left
    obtain ⟨rest, rfl⟩ := List.head?_eq_some_iff.mp absolute
    exact ⟨rest, rfl⟩
  by_cases dot : path = ['.']
  · subst dot
    exact .inr (.inl ⟨[], rfl, rfl, .inl rfl⟩)
  by_cases dotSlash : ['.', '/'] <+: path
  · obtain ⟨rest, rfl⟩ := dotSlash
    exact .inr (.inl ⟨'/' :: rest, rfl, rfl, .inr rfl⟩)
  · exact .inr (.inr ⟨front_eq_nil absolute dot dotSlash, absolute, dot, dotSlash⟩)

theorem front_append_drop (path : Path) : path.front ++ path.drop path.front.length = path := by
  rcases front_cases path with ⟨rest, rfl⟩ | ⟨rest, rfl, front, -⟩ | ⟨front, -⟩
  · rfl
  · rw [front]
    rfl
  · rw [front]
    rfl

theorem isAbsolute_iff (path : Path) : path.isAbsolute ↔ path.front = ['/'] := by
  rw [isAbsolute, decide_eq_true_iff]
  rcases front_cases path with ⟨rest, rfl⟩ | ⟨rest, rfl, front, -⟩ | ⟨front, relative, -⟩
  · simp [front_slash]
  · simp [front]
  · simp [front, relative]

theorem isAbsolute_eq {path other : Path} (same : path.front = other.front) :
    path.isAbsolute = other.isAbsolute := by
  rw [Bool.eq_iff_iff, isAbsolute_iff, isAbsolute_iff, same]

theorem eq_of_cons_prefix {c d : Char} {rest text : Text} (start : c :: rest <+: text)
    (first : text.head? = some d) : c = d := by
  obtain ⟨after, rfl⟩ := start
  exact Option.some.inj first

/-- The front of a path adds no step to any start of what stands behind it. -/
theorem steps_front_append {path rest : Path} (start : rest <+: path.drop path.front.length) :
    steps (path.front ++ rest) = steps rest := by
  rcases front_cases path with ⟨more, rfl⟩ | ⟨more, rfl, front, behind⟩ | ⟨front, -⟩
  · rw [front_slash, List.singleton_append, steps_slash_cons]
  · rw [front] at start ⊢
    cases rest with
    | nil => rfl
    | cons c rest =>
      rcases behind with rfl | slash
      · exact absurd (List.prefix_nil.mp start) (List.cons_ne_nil c rest)
      · obtain rfl : c = '/' := eq_of_cons_prefix start slash
        exact steps_append_slash ['.'] rest
  · rw [front, List.nil_append]

/-! ## Parts -/

theorem filter_dropIdleEnd (parts : List Text) :
    ((dropIdleEnd parts).filter fun part => !isIdle part) =
      parts.filter fun part => !isIdle part := by
  change (parts.rdropWhile isIdle).filter _ = _
  induction parts using List.reverseRecOn with
  | nil => rfl
  | append_singleton parts part ih =>
    rw [List.rdropWhile_concat]
    split
    · rename_i idle
      rw [ih, List.filter_append, List.filter_singleton, idle]
      simp
    · rfl

/-- Parts that stay at an end count there. -/
theorem not_idle_of_getLast?_dropIdleEnd {parts : List Text} {last : Text}
    (ends : (dropIdleEnd parts).getLast? = some last) : isIdle last = false := by
  obtain ⟨init, whole⟩ := List.getLast?_eq_some_iff.mp ends
  have nonempty : parts.rdropWhile isIdle ≠ [] := by
    intro empty
    rw [dropIdleEnd, ← List.rdropWhile, empty] at whole
    simp at whole
  have counts := List.rdropWhile_last_not isIdle parts nonempty
  have same : (parts.rdropWhile isIdle).getLast nonempty = last := by
    rw [← Option.some_inj, ← List.getLast?_eq_some_getLast]
    exact ends
  rw [same] at counts
  simpa using counts

theorem dropIdleEnd_isPrefix (parts : List Text) : dropIdleEnd parts <+: parts :=
  List.rdropWhile_prefix isIdle parts

theorem noSlash_of_mem_parts {path : Path} {part : Text} (member : part ∈ path.parts) :
    '/' ∉ part :=
  Text.absent_of_mem_splitOn ((dropIdleEnd_isPrefix _).subset member)

/-- The steps of a path are those among its parts. -/
theorem steps_eq_filter_parts (path : Path) :
    path.steps = path.parts.filter fun part => !isIdle part := by
  have behind := steps_front_append (List.prefix_refl (path.drop path.front.length))
  rw [front_append_drop] at behind
  rw [behind, parts, filter_dropIdleEnd, steps]

/-- The last part is the last step. -/
theorem getLast?_parts (path : Path) : path.parts.getLast? = path.steps.getLast? := by
  rw [steps_eq_filter_parts]
  cases ends : path.parts.getLast? with
  | none =>
    rw [List.getLast?_eq_none_iff] at ends
    rw [ends]
    rfl
  | some last =>
    have counts := not_idle_of_getLast?_dropIdleEnd ends
    obtain ⟨init, whole⟩ := List.getLast?_eq_some_iff.mp ends
    rw [whole, List.filter_append, List.filter_singleton, counts]
    simp

theorem fileName?_eq (path : Path) :
    path.fileName? = path.steps.getLast?.filter (· ≠ ['.', '.']) := by
  rw [fileName?, getLast?_parts]

/-! ## Parents -/

theorem intercalate_prefix {lead parts : List Text} (start : lead <+: parts) :
    ['/'].intercalate lead <+: ['/'].intercalate parts := by
  obtain ⟨more, rfl⟩ := start
  induction lead with
  | nil => exact List.nil_prefix
  | cons part lead ih =>
    by_cases last : lead = []
    · subst last
      cases more with
      | nil => exact List.prefix_refl _
      | cons next more =>
        rw [List.intercalate_singleton, List.singleton_append, List.intercalate_cons_cons,
          List.append_assoc]
        exact List.prefix_append ..
    · have longer : lead ++ more ≠ [] := List.append_ne_nil_of_left_ne_nil last more
      rw [List.cons_append, List.intercalate_cons_of_ne_nil last,
        List.intercalate_cons_of_ne_nil longer]
      exact (List.prefix_append_right_inj _).mpr ih

/-- A start of a path that keeps its front and ends in parts that count has the front of the
path. -/
theorem front_front_append {path : Path} {parts : List Text}
    (start : ['/'].intercalate (dropIdleEnd parts) <+: path.drop path.front.length)
    (noSlash : ∀ part ∈ parts, '/' ∉ part) :
    front (path.front ++ ['/'].intercalate (dropIdleEnd parts)) = path.front := by
  rcases front_cases path with ⟨more, rfl⟩ | ⟨more, rfl, front, behind⟩ |
    ⟨front, relative, -, noDot⟩
  · rfl
  · rw [front] at start ⊢
    cases written : ['/'].intercalate (dropIdleEnd parts) with
    | nil => rfl
    | cons c rest =>
      rw [written] at start
      rcases behind with rfl | slash
      · exact absurd (List.prefix_nil.mp start) (List.cons_ne_nil c rest)
      · obtain rfl : c = '/' := eq_of_cons_prefix start slash
        rfl
  · rw [front] at start ⊢
    rw [List.nil_append]
    have inPath : ['/'].intercalate (dropIdleEnd parts) <+: path := start
    apply front_eq_nil
    · intro absolute
      obtain ⟨rest, slash⟩ := List.head?_eq_some_iff.mp absolute
      obtain ⟨after, whole⟩ := inPath
      exact relative (by rw [← whole, slash]; rfl)
    · intro dot
      -- A single dot would be an idle part at the end.
      have nonempty : dropIdleEnd parts ≠ [] := by
        intro empty
        rw [empty] at dot
        cases dot
      have split := List.splitOn_intercalate '/'
        (fun part member => noSlash part ((dropIdleEnd_isPrefix parts).subset member)) nonempty
      rw [dot] at split
      have ends : (dropIdleEnd parts).getLast? = some ['.'] := by
        rw [← split]
        rfl
      have counts := not_idle_of_getLast?_dropIdleEnd ends
      exact absurd counts (by decide)
    · exact fun dotSlash => noDot (dotSlash.trans inPath)

/-- A path with steps has a parent, which has all of them but the last. -/
theorem exists_parent {path : Path} (nonempty : path.steps ≠ []) :
    ∃ folder, path.parent? = some folder ∧ folder <+: path ∧ folder.front = path.front ∧
      folder.steps = path.steps.dropLast := by
  obtain ⟨last, ends⟩ : ∃ last, path.parts.getLast? = some last := by
    rw [getLast?_parts]
    exact ⟨_, List.getLast?_eq_some_getLast nonempty⟩
  obtain ⟨init, whole⟩ := List.getLast?_eq_some_iff.mp ends
  have counts := not_idle_of_getLast?_dropIdleEnd ends
  have parent : path.parent? =
      some (path.front ++ ['/'].intercalate (dropIdleEnd init)) := by
    rw [parent?]
    split
    · rename_i empty
      rw [whole] at empty
      simp at empty
    · rw [whole, List.dropLast_concat]
  have noSlash : ∀ part ∈ init, '/' ∉ part := by
    intro part member
    exact noSlash_of_mem_parts (by rw [whole]; exact List.mem_append_left _ member)
  have start : ['/'].intercalate (dropIdleEnd init) <+: path.drop path.front.length := by
    have parts : dropIdleEnd init <+: (path.drop path.front.length).splitOn '/' := by
      refine (dropIdleEnd_isPrefix init).trans (List.IsPrefix.trans ?_ (dropIdleEnd_isPrefix _))
      rw [← Path.parts, whole]
      exact List.prefix_append ..
    have joined := intercalate_prefix parts
    rwa [List.intercalate_splitOn] at joined
  refine ⟨_, parent, ?_, front_front_append start noSlash, ?_⟩
  · conv_rhs => rw [← front_append_drop path]
    exact (List.prefix_append_right_inj _).mpr start
  · have noSlashKept : ∀ part ∈ dropIdleEnd init, '/' ∉ part := fun part member =>
      noSlash part ((dropIdleEnd_isPrefix init).subset member)
    rw [steps_front_append start, steps_intercalate noSlashKept, filter_dropIdleEnd,
      steps_eq_filter_parts, whole, List.filter_append, List.filter_singleton, counts]
    simp

/-! ## Names -/

/-- A text that can be the name of a file. -/
structure IsName (name : Text) : Prop where
  noSlash : '/' ∉ name
  counts : isIdle name = false
  notUp : name ≠ ['.', '.']

instance (name : Text) : Decidable (IsName name) :=
  decidable_of_iff ('/' ∉ name ∧ isIdle name = false ∧ name ≠ ['.', '.'])
    ⟨fun ⟨noSlash, counts, notUp⟩ => ⟨noSlash, counts, notUp⟩,
      fun isName => ⟨isName.noSlash, isName.counts, isName.notUp⟩⟩

theorem isName_of_fileName? {path : Path} {name : Text} (named : path.fileName? = some name) :
    IsName name := by
  rw [fileName?_eq, Option.filter_eq_some_iff] at named
  obtain ⟨last, notUp⟩ := named
  have member := List.mem_of_getLast? last
  exact ⟨noSlash_of_mem_steps member, not_idle_of_mem_steps member, by simpa using notUp⟩

/-- A name before its last dot is a start of it, and not an empty one. -/
theorem splitName_prefix {name : Text} (nonempty : name ≠ []) :
    (splitName name).1 <+: name ∧ (splitName name).1 ≠ [] := by
  simp only [splitName]
  split
  · rename_i dotted
    refine ⟨?_, dotted.2⟩
    exact (List.dropLast_prefix _).trans (List.rdropWhile_prefix (· ≠ '.') name)
  · exact ⟨List.prefix_refl name, nonempty⟩

/-- A name is split at a dot with no dot behind it, if there is something before it. -/
theorem splitName_dot (before : Text) {behind : Text} (noDot : '.' ∉ behind) :
    splitName (before ++ '.' :: behind) =
      if before = [] then (before ++ '.' :: behind, none) else (before, some behind) := by
  have noDotBackwards : ∀ c ∈ behind.reverse, decide (c ≠ '.') = true := by
    intro c member
    rw [decide_eq_true_iff]
    rintro rfl
    exact noDot (List.mem_reverse.mp member)
  have backwards : (before ++ '.' :: behind).reverse =
      behind.reverse ++ '.' :: before.reverse := by simp
  simp only [splitName, backwards, List.takeWhile_append_of_pos noDotBackwards,
    List.dropWhile_append_of_pos noDotBackwards]
  by_cases hidden : before = [] <;> simp [hidden]

/-- A name is split at its last dot, or not at all. -/
theorem splitName_cases (name : Text) :
    splitName name = (name, none) ∨
      ∃ before behind, '.' ∉ behind ∧ name = before ++ '.' :: behind ∧
        splitName name = (before, some behind) := by
  by_cases dotted : '.' ∈ name
  · obtain ⟨backwards, before, shape, noDot⟩ :=
      List.eq_append_cons_of_mem (List.mem_reverse.mpr dotted)
    have whole : name = before.reverse ++ '.' :: backwards.reverse := by
      rw [← List.reverse_inj, shape]
      simp
    have noDotBehind : '.' ∉ backwards.reverse := by rwa [List.mem_reverse]
    have split := splitName_dot before.reverse noDotBehind
    rw [← whole] at split
    by_cases hidden : before.reverse = []
    · left
      rw [split, if_pos hidden]
    · right
      rw [if_neg hidden] at split
      exact ⟨before.reverse, backwards.reverse, noDotBehind, whole, split⟩
  · left
    simp [splitName, dotted]

/-- The stem of a path with a file name is a start of it. -/
theorem stem_of_fileName? {path : Path} {name : Text} (named : path.fileName? = some name) :
    path.stem <+: name ∧ path.stem ≠ [] := by
  have nonempty : name ≠ [] := by
    rintro rfl
    exact absurd (isName_of_fileName? named).counts (by decide)
  rw [stem, named]
  exact splitName_prefix nonempty

/-! ## Joins -/

/-- What is added behind a path keeps its front, if it keeps a single dot apart. -/
theorem front_append {folder : Path} (nonempty : folder ≠ []) {added : Text}
    (apart : folder = ['.'] → added.head? = some '/') : front (folder ++ added) = front folder := by
  rcases front_cases folder with ⟨rest, rfl⟩ | ⟨rest, rfl, front, behind⟩ |
    ⟨front, relative, notDot, noDot⟩
  · rfl
  · rw [front]
    rcases behind with rfl | slash
    · obtain ⟨more, rfl⟩ := List.head?_eq_some_iff.mp (apart rfl)
      rfl
    · obtain ⟨more, rfl⟩ := List.head?_eq_some_iff.mp slash
      rfl
  · rw [front]
    obtain ⟨c, rest, rfl⟩ := List.exists_cons_of_ne_nil nonempty
    apply front_eq_nil
    · exact relative
    · intro dot
      obtain ⟨rfl, empty⟩ := List.cons.inj dot
      rw [(List.append_eq_nil_iff.mp empty).1] at notDot
      exact notDot rfl
    · intro dotSlash
      obtain ⟨rfl, slash⟩ := List.cons_prefix_cons.mp dotSlash
      cases rest with
      | nil => exact notDot rfl
      | cons d rest =>
        obtain ⟨rfl, -⟩ := List.cons_prefix_cons.mp slash
        exact noDot ⟨rest, rfl⟩

section

variable (folder : Path) {inner : Path} (bare : inner.front = [])
include bare

/-- A path without a front stands behind its folder in a join, a slash between them if none is
there. -/
theorem join_cases :
    folder = [] ∧ join folder inner = inner ∨
    (∃ lead, folder = lead ++ ['/'] ∧ join folder inner = folder ++ inner) ∨
    folder ≠ [] ∧ join folder inner = folder ++ '/' :: inner := by
  have relative : isAbsolute inner = false := by
    rw [← Bool.not_eq_true, isAbsolute_iff, bare]
    decide
  by_cases empty : folder = []
  · exact .inl ⟨empty, by simp [join, relative, empty]⟩
  by_cases slash : folder.getLast? = some '/'
  · obtain ⟨lead, whole⟩ := List.getLast?_eq_some_iff.mp slash
    exact .inr (.inl ⟨lead, whole, by simp [join, relative, slash]⟩)
  · exact .inr (.inr ⟨empty, by simp [join, relative, empty, slash]⟩)

theorem steps_join : (join folder inner).steps = folder.steps ++ inner.steps := by
  rcases join_cases folder bare with ⟨rfl, joined⟩ | ⟨lead, rfl, joined⟩ | ⟨-, joined⟩
  · rw [joined, steps_nil, List.nil_append]
  · rw [joined, List.append_assoc, List.singleton_append, steps_append_slash, steps_append_slash,
      steps_nil, List.append_nil]
  · rw [joined, steps_append_slash]

theorem front_join : (join folder inner).front = folder.front := by
  rcases join_cases folder bare with ⟨rfl, joined⟩ | ⟨lead, slash, joined⟩ | ⟨nonempty, joined⟩
  · rw [joined, bare]
    rfl
  · rw [joined]
    refine front_append (by simp [slash]) ?_
    intro dot
    have ends : folder.getLast? = some '/' := by rw [slash, List.getLast?_concat]
    rw [dot] at ends
    exact absurd ends (by decide)
  · rw [joined]
    exact front_append nonempty (fun _ => rfl)

/-- The parent of a join is the folder, up to idle parts, exactly if what is joined has one step. -/
theorem parent?_join_same_iff (counts : inner.steps ≠ []) :
    (∃ parent, (join folder inner).parent? = some parent ∧ parent.Same folder) ↔
      inner.steps.dropLast = [] := by
  have steps := steps_join folder bare
  have nonempty : (join folder inner).steps ≠ [] := by simp [steps, counts]
  obtain ⟨parent, found, -, front, most⟩ := exists_parent nonempty
  rw [steps, List.dropLast_append_of_ne_nil counts] at most
  constructor
  · rintro ⟨other, same, -, sameSteps⟩
    obtain rfl : parent = other := Option.some.inj (found.symm.trans same)
    rw [most] at sameSteps
    exact List.append_right_eq_self.mp sameSteps
  · intro single
    refine ⟨parent, found, ?_, ?_⟩
    · rw [front, front_join folder bare]
    · rw [most, single, List.append_nil]

end

theorem through_cons (folder : Path) (name : Text) (names : List Text) :
    folder.through (name :: names) = (join folder name).through names := rfl

theorem through_concat (folder : Path) (names : List Text) (name : Text) :
    folder.through (names ++ [name]) = join (folder.through names) name := by
  rw [through, through, List.foldl_append]
  rfl

namespace IsName

variable {name : Text} (isName : IsName name)
include isName

theorem nonempty : name ≠ [] := by
  rintro rfl
  exact absurd isName.counts (by decide)

theorem front_eq_nil : front name = [] := by
  apply Path.front_eq_nil
  · exact fun absolute => isName.noSlash (List.mem_of_mem_head? absolute)
  · rintro rfl
    exact absurd isName.counts (by decide)
  · exact fun dotSlash => isName.noSlash (dotSlash.subset (by simp))

theorem steps_eq : steps name = [name] := steps_of_noSlash isName.noSlash isName.counts

/-- The parts of a join are those of the folder, up to idle ones, and the name. -/
theorem splitOn_join (folder : Path) :
    ∃ lead, (join folder name).splitOn '/' = lead ++ [name] ∧
      (lead.filter fun part => !isIdle part) = folder.steps := by
  have single := List.splitOn_eq_singleton isName.noSlash
  rcases join_cases folder isName.front_eq_nil with ⟨rfl, joined⟩ | ⟨lead, rfl, joined⟩ |
    ⟨-, joined⟩
  · exact ⟨[], by rw [joined, single]; rfl, rfl⟩
  · refine ⟨lead.splitOn '/', ?_, ?_⟩
    · rw [joined, List.append_assoc, List.singleton_append, List.splitOn_append_cons_self, single]
    · rw [steps_append_slash, steps_nil, List.append_nil, steps]
  · refine ⟨folder.splitOn '/', ?_, rfl⟩
    rw [joined, List.splitOn_append_cons_self, single]

theorem join_inj (folder : Path) {other : Text} (isOther : IsName other)
    (same : join folder name = join folder other) : name = other := by
  have steps := steps_join folder isName.front_eq_nil
  rw [same, steps_join folder isOther.front_eq_nil, isName.steps_eq, isOther.steps_eq] at steps
  simpa using steps.symm

theorem fileName?_join (folder : Path) : (join folder name).fileName? = some name := by
  rw [fileName?_eq, steps_join folder isName.front_eq_nil, isName.steps_eq, List.getLast?_concat]
  simp [isName.notUp]

end IsName
end Lectern.Path
