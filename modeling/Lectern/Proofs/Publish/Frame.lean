import Lectern.Proofs.Publish.Run

/-!
# The frame of a run

Writing outputs one after another keeps every folder, and every file that no written path leads to.
Without force it keeps every file: a path that leads to a file in a tree with more folders led there
before, so the file was seen. `outcome_writeOutputs` carries this over a list of outputs, from the
first to the rest, and `changesOnlyReported` states it for whole runs.
-/

namespace Lectern.Publisher

open Machine

/-- What outputs need to be told apart: a closed tree, a folder that is there or is named without
steps upwards, and a name of its own for each output. -/
structure Placed (publisher : Publisher) (input : Path) (tree : FileTree) (outputs : List Output) :
    Prop where
  closed : tree.Closed
  folder : tree.Reaches (publisher.outputFolder input) ∨
    ['.', '.'] ∉ (publisher.outputFolder input).steps
  names : ∀ output ∈ outputs, Path.IsName (publisher.nameFor input output.language)
  distinct : outputs.Pairwise fun first second =>
    publisher.nameFor input first.language ≠ publisher.nameFor input second.language

/-- The written paths account for what changed: they are paths of outputs, every other file is
unchanged, and they hold their outputs. -/
structure Reported (publisher : Publisher) (input : Path) (outputs : List Output)
    (written : List Path) (before after : FileTree) : Prop where
  paths : written.Sublist (outputs.map fun output => publisher.outputPath input output.language)
  unchanged : ∀ location bytes, (∀ path ∈ written, after.locate path ≠ .ok location) →
    (after.entry? location = some (.file bytes) ↔ before.entry? location = some (.file bytes))
  content : ∀ output ∈ outputs, publisher.outputPath input output.language ∈ written →
    after.readFile (publisher.outputPath input output.language) =
      .ok (Text.toBytes output.latex)

/-- What writing outputs does to a tree, whether it succeeds or fails. -/
structure Outcome (publisher : Publisher) (input : Path) (force : Bool) (outputs : List Output)
    (before after : FileTree) (result : Except Failure (List Path)) : Prop where
  folders : before.KeepsFolders after
  closed : after.Closed
  files : force = false → ∀ location bytes, before.entry? location = some (.file bytes) →
    after.entry? location = some (.file bytes)
  failed : ∀ failure, result = .error failure → WriteFailure failure
  reported : ∀ written, result = .ok written →
    publisher.Reported input outputs written before after

section

variable {publisher : Publisher} {input : Path}

namespace Placed

variable {tree : FileTree} {output : Output} {rest : List Output}

theorem tail (placed : publisher.Placed input tree (output :: rest)) {next : FileTree}
    (closed : next.Closed) (keeps : tree.KeepsFolders next) : publisher.Placed input next rest where
  closed := closed
  folder := placed.folder.imp_left keeps.reaches
  names := fun other member => placed.names other (List.mem_cons_of_mem _ member)
  distinct := (List.pairwise_cons.mp placed.distinct).2

theorem name (placed : publisher.Placed input tree (output :: rest)) :
    Path.IsName (publisher.nameFor input output.language) :=
  placed.names output (List.mem_cons_self ..)

/-- The other outputs have names too, and not that of the first. -/
theorem other (placed : publisher.Placed input tree (output :: rest)) {other : Output}
    (member : other ∈ rest) :
    Path.IsName (publisher.nameFor input other.language) ∧
      publisher.nameFor input output.language ≠ publisher.nameFor input other.language :=
  ⟨placed.names other (List.mem_cons_of_mem _ member),
    (List.pairwise_cons.mp placed.distinct).1 other member⟩

/-- The path of the first output is none of the others. -/
theorem outputPath_ne (placed : publisher.Placed input tree (output :: rest)) {other : Output}
    (member : other ∈ rest) :
    publisher.outputPath input output.language ≠ publisher.outputPath input other.language := by
  intro same
  obtain ⟨isOther, differs⟩ := placed.other member
  rw [outputPath_eq, outputPath_eq] at same
  exact differs (placed.name.join_inj _ isOther same)

/-- Nor does it lead to the same place, whatever the tree. -/
theorem locate_ne (placed : publisher.Placed input tree (output :: rest)) {other : Output}
    (member : other ∈ rest) {later : FileTree} {location : Location}
    (located : later.locate (publisher.outputPath input output.language) = .ok location) :
    later.locate (publisher.outputPath input other.language) ≠ .ok location := by
  intro also
  obtain ⟨isOther, differs⟩ := placed.other member
  rw [outputPath_eq] at located also
  obtain ⟨-, rfl⟩ := (FileTree.follow_join_eq_ok_iff _ placed.name).mp
    (FileTree.locate_eq_ok_iff.mp located).2
  obtain ⟨-, same⟩ := (FileTree.follow_join_eq_ok_iff _ isOther).mp
    (FileTree.locate_eq_ok_iff.mp also).2
  exact differs (by simpa using same)

/-- Where the path of an output leads once folders are made, there was nothing if the path named
nothing before. -/
theorem vacant (placed : publisher.Placed input tree (output :: rest)) {middle : FileTree}
    (grows : tree.Extends middle) {location : Location}
    (located : middle.locate (publisher.outputPath input output.language) = .ok location)
    (looked : middle.lookUp location = .ok (middle.entry? location))
    (absent : kindOn tree (publisher.outputPath input output.language) = none) :
    tree.entry? location = none := by
  cases found : tree.entry? location with
  | none => rfl
  | some entry =>
    have keeps := grows.keepsFolders
    have follows := FileTree.locate_eq_ok_iff.mp located
    rw [outputPath_eq] at follows
    obtain ⟨reaches, same⟩ := (FileTree.follow_join_eq_ok_iff _ placed.name).mp follows.2
    have reachedBefore : tree.Reaches (publisher.outputFolder input) := by
      rcases placed.folder with there | noUp
      · exact there
      · rw [same] at found
        exact keeps.reaches_of_entry placed.closed noUp reaches found
    have locatedBefore : tree.locate (publisher.outputPath input output.language) =
        .ok location := by
      refine FileTree.locate_eq_ok_iff.mpr ⟨follows.1, ?_⟩
      rw [outputPath_eq]
      refine (FileTree.follow_join_eq_ok_iff _ placed.name).mpr ⟨reachedBefore, ?_⟩
      rw [same, keeps.destination]
    have seen := FileTree.find_of_locate locatedBefore looked found
    rw [kindOn, seen] at absent
    cases entry <;> cases absent

end Placed

/-- A written output and a report on the rest make a report. -/
theorem Reported.cons {before middle next after : FileTree} {output : Output} {rest : List Output}
    {written : List Path} (placed : publisher.Placed input before (output :: rest))
    (grows : before.Extends middle)
    (wrote : middle.writeFile (publisher.outputPath input output.language)
      (Text.toBytes output.latex) = .ok next)
    (keeps : next.KeepsFolders after)
    (others : publisher.Reported input rest written next after) :
    publisher.Reported input (output :: rest)
      (publisher.outputPath input output.language :: written) before after := by
  obtain ⟨location, located, looked, noFolder, rfl⟩ := FileTree.of_writeFile_eq_ok wrote
  have below := FileTree.ne_root noFolder
  have locatedAfter := keeps.locate ((FileTree.KeepsFolders.put below noFolder _).locate located)
  have pathOfWritten {path : Path} (member : path ∈ written) :
      ∃ other ∈ rest, publisher.outputPath input other.language = path :=
    List.mem_map.mp (others.paths.subset member)
  refine ⟨others.paths.cons_cons _, ?_, ?_⟩
  · intro other bytes outside
    have differs : other ≠ location := by
      rintro rfl
      exact outside _ (List.mem_cons_self ..) locatedAfter
    rw [others.unchanged other bytes fun path member =>
      outside path (List.mem_cons_of_mem _ member), FileTree.entry?_put below, if_neg differs,
      grows.file_iff]
  · intro other member inWritten
    rcases List.mem_cons.mp member with rfl | inRest
    · have kept : after.entry? location = some (.file (Text.toBytes other.latex)) := by
        refine (others.unchanged location _ ?_).mpr ?_
        · intro path inOthers
          obtain ⟨next, inRest, rfl⟩ := pathOfWritten inOthers
          exact placed.locate_ne inRest locatedAfter
        · rw [FileTree.entry?_put below, if_pos rfl]
      exact FileTree.readFile_of_find (FileTree.find_of_locate locatedAfter looked kept)
    · rcases List.mem_cons.mp inWritten with same | behind
      · exact absurd same.symm (placed.outputPath_ne inRest)
      · exact others.content other inRest behind

/-- One output that is written, and what the others then do. -/
theorem Outcome.cons {force : Bool} {before middle next after : FileTree} {output : Output}
    {rest : List Output} {result : Except Failure (List Path)}
    (placed : publisher.Placed input before (output :: rest))
    (absent : force = false →
      kindOn before (publisher.outputPath input output.language) = none)
    (grows : before.Extends middle)
    (wrote : middle.writeFile (publisher.outputPath input output.language)
      (Text.toBytes output.latex) = .ok next)
    (others : publisher.Outcome input force rest next after result) :
    publisher.Outcome input force (output :: rest) before after
      (result.map (publisher.outputPath input output.language :: ·)) := by
  have kept := FileTree.keepsFolders_of_writeFile wrote
  obtain ⟨location, located, looked, noFolder, rfl⟩ := FileTree.of_writeFile_eq_ok wrote
  refine ⟨(grows.keepsFolders.trans kept).trans others.folders, others.closed, ?_, ?_, ?_⟩
  · intro unforced other bytes there
    refine others.files unforced other bytes ?_
    have differs : other ≠ location := by
      rintro rfl
      rw [placed.vacant grows located looked (absent unforced)] at there
      cases there
    rw [FileTree.entry?_put (FileTree.ne_root noFolder), if_neg differs, grows.kept there]
  · intro failure failed
    cases result with
    | error error => exact others.failed failure failed
    | ok written => cases failed
  · intro written succeeded
    cases result with
    | error error => cases succeeded
    | ok behind =>
      obtain rfl := Except.ok.inj succeeded
      exact Reported.cons placed grows wrote others.folders (others.reported behind rfl)

/-- Writing outputs one after another. -/
theorem outcome_writeOutputs (force : Bool) {outputs : List Output} {machine : Machine}
    (placed : publisher.Placed input machine.tree outputs) :
    publisher.Outcome input force outputs machine.tree
      (machine.run (publisher.writeOutputs input force outputs)).2.tree
      (machine.run (publisher.writeOutputs input force outputs)).1 := by
  induction outputs generalizing machine with
  | nil =>
    refine ⟨.refl _, placed.closed, fun _ _ _ there => there, fun _ failed => ?_, ?_⟩
    · cases failed
    · intro written succeeded
      obtain rfl : [] = written := Except.ok.inj succeeded
      exact ⟨List.Sublist.refl _, fun _ _ _ => Iff.rfl, fun _ member => nomatch member⟩
  | cons output rest ih =>
    rcases run_writeOutputs_cons publisher input machine force output rest with
      ⟨told, unforced, present, sameTree, ran⟩ | ⟨failure, after, ran, grows, writes⟩ |
      ⟨middle, told, absent, grows, wrote, ran⟩
    · -- The output is skipped.
      have others := ih (sameTree ▸ placed.tail placed.closed (.refl _))
      rw [ran]
      rw [sameTree] at others
      refine ⟨others.folders, others.closed, others.files, others.failed, ?_⟩
      intro written succeeded
      obtain ⟨paths, unchanged, content⟩ := others.reported written succeeded
      refine ⟨paths.cons _, unchanged, ?_⟩
      intro other member inWritten
      rcases List.mem_cons.mp member with rfl | inRest
      · obtain ⟨later, inRest, same⟩ := List.mem_map.mp (paths.subset inWritten)
        exact absurd same.symm (placed.outputPath_ne inRest)
      · exact content other inRest inWritten
    · -- The output cannot be written.
      rw [ran]
      refine ⟨grows.keepsFolders, grows.closed placed.closed, fun _ _ _ => grows.kept, ?_, ?_⟩
      · intro other same
        rwa [← Except.error.inj same]
      · intro written succeeded
        cases succeeded
    · -- The output is written, and so is the rest on the tree that this leaves.
      have closed := FileTree.closed_of_writeFile wrote (grows.closed placed.closed)
      have keeps := grows.keepsFolders.trans (FileTree.keepsFolders_of_writeFile wrote)
      have others := ih (placed.tail closed keeps)
      rw [ran]
      exact Outcome.cons placed absent grows wrote others

end

/-! ## Whole runs -/

/-- No part of an output's name has a slash, and a configured folder is named without steps
upwards. -/
structure SlashFree (publisher : Publisher) (tree : FileTree) (input : Path) : Prop where
  extension : '/' ∉ publisher.config.output.extension
  tags : ∀ source, tree.readText input = .ok source →
    ∀ scene ∈ (Document.parse source).scenes, ∀ slide ∈ scene.elements, slide.isSlide →
      ∀ tag, slide.param? "lang" = some tag → '/' ∉ tag
  folder : ∀ directory ∈ publisher.config.output.directory,
    ['.', '.'] ∉ directory.splitOn '/'

/-- No slide of a deck file has a tag with a slash. -/
def TagsSlashFree (tree : FileTree) (input : Path) : Prop :=
  ∀ source, tree.readText input = .ok source →
    ∀ scene ∈ (Document.parse source).scenes, ∀ slide ∈ scene.elements, slide.isSlide →
      ∀ tag, slide.param? "lang" = some tag → '/' ∉ tag

/-- The outputs that a run has to write, if it has any. -/
theorem of_outputsOn_eq_ok {publisher : Publisher} {tree : FileTree} {input : Path}
    {outputs : List Output} (planned : publisher.outputsOn tree input = .ok outputs) :
    kindOn tree input = some .file ∧ ∃ source, tree.readText input = .ok source ∧
      publisher.render (Document.parse source) = .ok outputs := by
  rw [outputsOn] at planned
  split at planned
  · rename_i isFile
    refine ⟨isFile, ?_⟩
    split at planned
    · rename_i source read
      refine ⟨source, read, ?_⟩
      cases rendered : publisher.render (Document.parse source) with
      | error error =>
        rw [rendered] at planned
        cases planned
      | ok others =>
        rw [rendered] at planned
        obtain rfl : others = outputs := Except.ok.inj planned
        rfl
    · cases planned
  · cases planned

/-- A file is found in the folder that its parent leads to. -/
theorem parent_of_kindOn_file {tree : FileTree} (closed : tree.Closed) {input : Path}
    (isFile : kindOn tree input = some .file) :
    ∃ folder name, input.parent? = some folder ∧ input.fileName? = some name ∧
      tree.Reaches folder := by
  rw [kindOn] at isFile
  split at isFile
  · rename_i location bytes found
    obtain ⟨located, there⟩ := FileTree.of_find_eq_ok found
    have noFolder : tree.entry? location ≠ some .folder := by simp [there]
    obtain ⟨folder, name, parent, named, reaches, -⟩ :=
      FileTree.of_follow_closed closed (FileTree.locate_eq_ok_iff.mp located).2 noFolder
    exact ⟨folder, name, parent, named, reaches⟩
  · cases isFile
  · cases isFile

section

variable {config : Config} {requested : Option Text} {publisher : Publisher}
  (made : ofConfig config requested = .ok publisher)
  (noSlash : '/' ∉ config.output.extension) {input : Path} {name : Text}
  (named : input.fileName? = some name)
include made noSlash named

theorem isName_nameFor {language : Option Text} (noSlashInTag : ∀ tag ∈ language, '/' ∉ tag) :
    Path.IsName (publisher.nameFor input language) := by
  obtain ⟨rfl, usable⟩ := of_ofConfig_eq_ok made
  exact isName_outputName named (suffix_ne_nil usable) usable.noSlashInSuffix noSlashInTag noSlash

/-- The outputs of a run have the names of files. -/
theorem isName_of_outputsOn {tree : FileTree} (tags : TagsSlashFree tree input)
    {outputs : List Output} (planned : publisher.outputsOn tree input = .ok outputs) :
    ∀ output ∈ outputs, Path.IsName (publisher.nameFor input output.language) := by
  obtain ⟨-, source, read, rendered⟩ := of_outputsOn_eq_ok planned
  obtain ⟨-, ofDeck⟩ := languages_of_render rendered
  intro output member
  refine isName_nameFor made noSlash named fun tag isTag => ?_
  obtain ⟨scene, inDeck, slide, inScene, isSlide, tagged⟩ := ofDeck output member tag isTag
  exact tags source read scene inDeck slide inScene isSlide tag tagged

end

/-- The outputs of a run have places of their own. -/
theorem placed_of_outputsOn {config : Config} {requested : Option Text} {publisher : Publisher}
    (made : ofConfig config requested = .ok publisher) {tree : FileTree} (closed : tree.Closed)
    {input : Path} (slashFree : publisher.SlashFree tree input) {outputs : List Output}
    (planned : publisher.outputsOn tree input = .ok outputs) :
    publisher.Placed input tree outputs := by
  obtain ⟨isFile, source, read, rendered⟩ := of_outputsOn_eq_ok planned
  obtain ⟨folder, name, parent, named, reaches⟩ := parent_of_kindOn_file closed isFile
  obtain ⟨distinct, -⟩ := languages_of_render rendered
  have config_eq : publisher.config = config := by rw [(of_ofConfig_eq_ok made).1]
  have names := isName_of_outputsOn made (config_eq ▸ slashFree.extension) named slashFree.tags
    planned
  refine ⟨closed, ?_, names, ?_⟩
  · rw [outputFolder, parent]
    cases configured : publisher.config.output.directory with
    | none => exact .inl reaches
    | some directory =>
      right
      intro up
      exact slashFree.folder directory configured (List.mem_filter.mp up).1
  · refine (List.pairwise_map.mp distinct).imp ?_
    intro first second differs same
    exact differs (outputName_inj same)

/-- Why a run fails before it writes anything: the deck file is missing or cannot be read, a slide
has no language, or no slide has the requested one. -/
inductive EarlyFailure (input : Path) : Failure → Prop where
  | missing : EarlyFailure input (.fileMissing input)
  | unreadable (error : FileError) : EarlyFailure input (.file .read input error)
  | untagged (scene : Text) (position : Nat) :
    EarlyFailure input (.render input (.deck (.missingLanguage scene position)))
  | noLanguage (request : Text) (tags : List Text) :
    EarlyFailure input (.render input (.languageNotFound request tags))

/-- What a run may do to a tree: nothing if it fails early, nothing to a file that is there unless
it is forced, and nothing but what it reports if it succeeds. -/
structure ChangesOnlyReported (publisher : Publisher) (input : Path) (force : Bool)
    (before after : FileTree) (result : Except Failure (List Path)) : Prop where
  refused : ∀ failure, publisher.outputsOn before input = .error failure →
    result = .error failure ∧ after = before
  early : ∀ failure, result = .error failure → EarlyFailure input failure → after = before
  files : force = false → ∀ location bytes, before.entry? location = some (.file bytes) →
    after.entry? location = some (.file bytes)
  reported : ∀ written, result = .ok written →
    ∃ outputs, publisher.outputsOn before input = .ok outputs ∧
      publisher.Reported input outputs written before after

/-- A run changes only what it reports, on every closed tree, for every usable configuration,
requested language, deck file and force flag. -/
theorem changesOnlyReported {config : Config} {requested : Option Text} {publisher : Publisher}
    (made : ofConfig config requested = .ok publisher) {machine : Machine}
    (closed : machine.tree.Closed) {input : Path}
    (slashFree : publisher.SlashFree machine.tree input) (force : Bool) :
    publisher.ChangesOnlyReported input force machine.tree
      (machine.run (publisher.run input force)).2.tree
      (machine.run (publisher.run input force)).1 := by
  obtain ⟨told, sameTree, ran⟩ := run_eq publisher machine input force
  cases planned : publisher.outputsOn machine.tree input with
  | error failure =>
    simp only [planned] at ran
    rw [ran]
    refine ⟨?_, fun _ _ _ => sameTree, fun _ _ _ there => by rwa [sameTree], ?_⟩
    · intro other same
      obtain rfl := Except.error.inj (planned.symm.trans same)
      exact ⟨rfl, sameTree⟩
    · intro written succeeded
      cases succeeded
  | ok outputs =>
    simp only [planned] at ran
    have placed := placed_of_outputsOn made closed slashFree planned
    rw [← sameTree] at placed
    have outcome := outcome_writeOutputs force placed
    rw [ran]
    rw [sameTree] at outcome
    refine ⟨?_, ?_, outcome.files, ?_⟩
    · intro failure refused
      rw [planned] at refused
      cases refused
    · intro failure failed isEarly
      have writes := outcome.failed failure failed
      cases isEarly <;> cases writes
    · intro written succeeded
      exact ⟨outputs, planned, outcome.reported written succeeded⟩

/-- A deck whose text is known has no slashes if its slides have none. -/
theorem slashFree_of_source {publisher : Publisher} {tree : FileTree} {deck : Path} {source : Text}
    (extension : '/' ∉ publisher.config.output.extension)
    (folder : ∀ directory ∈ publisher.config.output.directory,
      ['.', '.'] ∉ directory.splitOn '/')
    (read : tree.readFile deck = .ok (Text.toBytes source))
    (tags : ∀ scene ∈ (Document.parse source).scenes, ∀ slide ∈ scene.elements,
      '/' ∉ (slide.param? "lang").getD []) : publisher.SlashFree tree deck := by
  refine ⟨extension, ?_, folder⟩
  intro other readText scene inDeck slide inScene _ tag tagged
  rw [FileTree.readText, read] at readText
  simp only [Text.ofBytes?_toBytes] at readText
  obtain rfl := Except.ok.inj readText
  have noSlash := tags scene inDeck slide inScene
  rwa [tagged] at noSlash

/-- A folder with a deck in two languages and the output of an earlier run for one of them. -/
def deckTree : FileTree where
  entries := ⟨[
    ([("deck.vmd" : Text)],
      .file (Text.toBytes "# Scene: A\n## Slide(lang=\"EN\")\n## Slide(lang=\"DE\")")),
    ([("deck_EN_output.tex" : Text)], .file (Text.toBytes "old"))], by decide⟩
  working := []

/-- The publisher with the standard configuration. -/
def standardPublisher : Publisher := ⟨Config.standard, none⟩

theorem slashFree_deckTree : standardPublisher.SlashFree deckTree "deck.vmd" :=
  slashFree_of_source (by decide) nofun rfl (by decide)

/-- Only the output that is not there is written, and it is all that changes. -/
theorem changesOnlyReported_deckTree :
    ofConfig Config.standard none = .ok standardPublisher ∧ deckTree.Closed ∧
      standardPublisher.SlashFree deckTree "deck.vmd" ∧
      ((fresh deckTree).run (standardPublisher.run "deck.vmd" false)).1.toOption =
        some [("deck_DE_output.tex" : Path)] ∧
      standardPublisher.ChangesOnlyReported "deck.vmd" false deckTree
        ((fresh deckTree).run (standardPublisher.run "deck.vmd" false)).2.tree
        ((fresh deckTree).run (standardPublisher.run "deck.vmd" false)).1 := by
  have made : ofConfig Config.standard none = .ok standardPublisher := rfl
  have closed : deckTree.Closed := by
    apply FileTree.closed_of_entries
    intro pair member
    rcases List.mem_pair.mp member with rfl | rfl <;> rfl
  have onFresh : standardPublisher.SlashFree (fresh deckTree).tree "deck.vmd" := slashFree_deckTree
  exact ⟨made, closed, slashFree_deckTree, by decide +kernel,
    changesOnlyReported made closed onFresh false⟩

end Lectern.Publisher
