import Lectern.Proofs.Publish.Underway

/-!
# Rendering a folder again

Without force, nothing is left to do for decks that were rendered: what was delivered is there, and
what could not be delivered cannot be delivered now. `Idle` says so for what is planned for a deck.
It holds after the deck is rendered (`idle_of_all`) and stays, whatever other decks deliver after it
(`Idle.after`). What was delivered is no deck, so a second run on a folder finds the decks of the
first one (`Grown.decksBelow_eq`), unless the first one made a folder with a path too long to open
it.
-/

namespace Lectern

namespace Parcel

/-- Nothing is left to do for files that are delivered one after another: those before the first
that cannot be delivered are there. -/
def Idle (result : Option (List Path)) (tree : FileTree) : List Parcel → Prop
  | [] => result = some []
  | parcel :: rest =>
    parcel.deliver false tree = (none, tree) ∧ result = none ∨
      parcel.deliver false tree = (some [], tree) ∧ Idle result tree rest

section

variable {family : List Parcel} {tree : FileTree} {result : Option (List Path)}

theorem Idle.all {parcels : List Parcel} (idle : Idle result tree parcels) :
    Change.all (parcels.map (deliver false)) tree = (result, tree) := by
  induction parcels with
  | nil => rw [show result = some [] from idle]; rfl
  | cons parcel rest ih =>
    rw [List.map_cons]
    rcases idle with ⟨failed, rfl⟩ | ⟨kept, behind⟩
    · rw [Change.all_of_failed (congrArg Prod.fst failed), failed]
    · rw [Change.all_of_made (congrArg Prod.fst kept), kept, ih behind]
      simp

/-- What is left to do does not change with other deliveries. -/
theorem Idle.after {parcels : List Parcel} (holds : Family family tree)
    (among : ∀ parcel ∈ parcels, parcel ∈ family) (idle : Idle result tree parcels)
    {other : Parcel} (member : other ∈ family) :
    Idle result (other.deliver false tree).2 parcels := by
  induction parcels with
  | nil => exact idle
  | cons parcel rest ih =>
    have first := among parcel (List.mem_cons_self ..)
    rcases idle with ⟨failed, same⟩ | ⟨kept, behind⟩
    · exact .inl ⟨holds.idle_after first member failed, same⟩
    · exact .inr ⟨holds.idle_after first member kept,
        ih (fun parcel inRest => among parcel (List.mem_cons_of_mem _ inRest)) behind⟩

/-- After a delivery of several files, nothing is left to do for them. -/
theorem idle_of_all {parcels : List Parcel} (holds : Family family tree)
    (among : ∀ parcel ∈ parcels, parcel ∈ family) :
    Idle ((Change.all (parcels.map (deliver false)) tree).1.map fun _ => [])
      (Change.all (parcels.map (deliver false)) tree).2 parcels := by
  induction parcels generalizing tree with
  | nil => rfl
  | cons parcel rest ih =>
    have first := among parcel (List.mem_cons_self ..)
    have amongRest : ∀ other ∈ rest, other ∈ family := fun other inRest =>
      among other (List.mem_cons_of_mem _ inRest)
    have again := (holds.stands first).again
    have kept := Family.keeps_deliver first false tree holds
    rw [List.map_cons]
    cases made : (parcel.deliver false tree).1 with
    | none =>
      rw [made] at again
      rw [Change.all_of_failed made]
      exact .inl ⟨again, rfl⟩
    | some written =>
      rw [made] at again
      rw [Change.all_of_made made]
      have behind := ih kept amongRest
      refine .inr ⟨?_, ?_⟩
      · -- The file that is there now is there after the others too.
        refine (Change.keeps_all (fun tree => Family family tree ∧
          parcel.deliver false tree = (some [], tree)) ?_ _ ⟨kept, again⟩).2
        rintro other inRest tree ⟨holds, idle⟩
        have member := amongRest other inRest
        exact ⟨Family.keeps_deliver member false tree holds, holds.idle_after first member idle⟩
      · rwa [Option.map_map]

end

end Parcel

namespace Publisher

open Machine

/-- Nothing is left to do for a plan. -/
def IdlePlan (result : Option (List Path)) (tree : FileTree) : Option (List Parcel) → Prop
  | none => result = none
  | some parcels => Parcel.Idle result tree parcels

section

variable {family : List Parcel} {tree : FileTree} {plan : Option (List Parcel)}

theorem IdlePlan.carryOut {result : Option (List Path)} (idle : IdlePlan result tree plan) :
    Publisher.carryOut false plan tree = (result, tree) := by
  cases plan with
  | none => rw [show result = none from idle]; rfl
  | some parcels => exact Parcel.Idle.all idle

theorem idlePlan_of_carryOut (holds : Parcel.Family family tree)
    (among : ∀ parcel ∈ plan.getD [], parcel ∈ family) :
    IdlePlan ((carryOut false plan tree).1.map fun _ => []) (carryOut false plan tree).2 plan := by
  cases plan with
  | none => rfl
  | some parcels => exact Parcel.idle_of_all holds among

/-- Nothing is left to do for a plan after others are carried out. -/
theorem keeps_idlePlan {result : Option (List Path)} {next : Option (List Parcel)}
    (among : ∀ parcel ∈ plan.getD [], parcel ∈ family)
    (amongNext : ∀ parcel ∈ next.getD [], parcel ∈ family) :
    (carryOut false next).Keeps fun tree =>
      Parcel.Family family tree ∧ IdlePlan result tree plan := by
  refine keeps_carryOut _ ?_
  rintro other inNext tree ⟨holds, idle⟩
  have member := amongNext other inNext
  refine ⟨Parcel.Family.keeps_deliver member false tree holds, ?_⟩
  cases plan with
  | none => exact idle
  | some parcels => exact Parcel.Idle.after holds among idle member

/-- Rendering decks again writes nothing and changes nothing, and what failed fails. -/
theorem attempts_again {publisher : Publisher} {start : FileTree} {decks order : List Path}
    (among : ∀ deck ∈ order, deck ∈ decks) {tree : FileTree}
    (holds : Parcel.Family (publisher.parcels start decks) tree) :
    Change.each (order.map (publisher.attempt false start))
        (Change.each (order.map (publisher.attempt false start)) tree).2 =
      ((Change.each (order.map (publisher.attempt false start)) tree).1.map
          (Option.map fun _ => []),
        (Change.each (order.map (publisher.attempt false start)) tree).2) := by
  induction order generalizing tree with
  | nil => rfl
  | cons deck rest ih =>
    have planned {deck : Path} (member : deck ∈ decks) :
        ∀ parcel ∈ (publisher.plan start deck).getD [], parcel ∈ publisher.parcels start decks :=
      fun parcel inPlan => mem_parcels_of_plan member inPlan
    have first := planned (among deck (List.mem_cons_self ..))
    have amongRest : ∀ other ∈ rest, other ∈ decks := fun other inRest =>
      among other (List.mem_cons_of_mem _ inRest)
    have kept : Parcel.Family (publisher.parcels start decks)
        (publisher.attempt false start deck tree).2 :=
      keeps_carryOut _ (fun parcel inPlan =>
        Parcel.Family.keeps_deliver (first parcel inPlan) false) tree holds
    have idle := idlePlan_of_carryOut holds first
    -- The first deck is still idle after the others.
    have still : Parcel.Family (publisher.parcels start decks)
          (Change.each (rest.map (publisher.attempt false start))
            (publisher.attempt false start deck tree).2).2 ∧
        IdlePlan ((publisher.attempt false start deck tree).1.map fun _ => [])
          (Change.each (rest.map (publisher.attempt false start))
            (publisher.attempt false start deck tree).2).2 (publisher.plan start deck) :=
      Change.keeps_each _ (fun other inRest =>
        keeps_idlePlan first (planned (amongRest other inRest))) ⟨kept, idle⟩
    have again : publisher.attempt false start deck _ = _ := still.2.carryOut
    simp only [List.map_cons, Change.each, again, ih amongRest kept]

end

/-! ## The same decks -/

/-- The files of a tree are those at the start and some that were delivered. -/
structure Grown (family : List Parcel) (start tree : FileTree) : Prop where
  kept : ∀ location bytes, start.entry? location = some (.file bytes) →
    tree.entry? location = some (.file bytes)
  delivered : ∀ location bytes, tree.entry? location = some (.file bytes) →
    start.entry? location = some (.file bytes) ∨
      ∃ parcel ∈ family, location = parcel.place start

theorem Grown.refl (family : List Parcel) (tree : FileTree) : Grown family tree tree :=
  ⟨fun _ _ found => found, fun _ _ found => .inl found⟩

section

variable {publisher : Publisher} {start : FileTree} {decks : List Path}

theorem Ready.keeps_grown (ready : publisher.Ready false start decks) {deck : Path}
    (member : deck ∈ decks) :
    (publisher.attempt false start deck).Keeps fun tree =>
      publisher.Underway start decks tree ∧ Grown (publisher.parcels start decks) start tree := by
  refine keeps_carryOut _ ?_
  rintro parcel inPlan tree ⟨underway, grown⟩
  have inParcels := mem_parcels_of_plan member inPlan
  have stands := underway.family.stands inParcels
  refine ⟨ready.keeps_deliver inParcels tree underway, ?_, ?_⟩
  · exact fun location bytes found => stands.entry?_deliver_false (grown.kept location bytes found)
  · intro location bytes found
    rcases stands.file_of_deliver found with own | there
    · exact .inr ⟨parcel, inParcels, by rw [own, Parcel.place_eq underway.folders]⟩
    · exact grown.delivered location bytes there

/-- What is delivered is no deck, so the decks that are found stay the same. -/
theorem Grown.decksBelow_eq {family : List Parcel} {tree : FileTree}
    (grown : Grown family start tree) (regular : start.Regular) (keeps : start.KeepsFolders tree)
    (names : ∀ parcel ∈ family, Path.IsName parcel.name)
    (noDeck : ∀ parcel ∈ family, parcel.path.isDeck = false) {folder : Path}
    {location : Location} (there : start.find folder = .ok (location, .folder))
    (walkable : start.Walkable folder) (walkableLater : tree.Walkable folder) :
    tree.decksBelow folder = start.decksBelow folder := by
  refine regular.decksBelow_eq keeps there walkable walkableLater ?_
  intro entry isDeck
  cases found : FileTree.foundAs location folder entry with
  | none =>
    rw [found] at isDeck
    cases isDeck
  | some file =>
    rw [found, Option.any_some] at isDeck
    obtain ⟨bytes, names, nonempty, rfl, rfl⟩ := FileTree.foundAs_eq_some_iff.mp found
    have below : location ++ names ≠ [] := List.append_ne_nil_of_right_ne_nil _ nonempty
    rw [FileTree.entry?_of_mem below, FileTree.entry?_of_mem below]
    refine ⟨fun now => ?_, grown.kept _ bytes⟩
    refine (grown.delivered _ bytes now).resolve_right ?_
    -- A deck has the name of nothing that was delivered.
    rintro ⟨parcel, member, same⟩
    obtain ⟨lead, last, rfl⟩ := List.eq_nil_or_concat names |>.resolve_left nonempty
    rw [List.concat_eq_append, ← List.append_assoc, Parcel.place] at same
    obtain rfl : last = parcel.name := (List.cons.inj (List.append_inj' same rfl).2).1
    have decked : parcel.path.isDeck = true := by
      rw [List.concat_eq_append, Path.through_concat] at isDeck
      rwa [Parcel.path, ← Path.isDeck_join _ parcel.folder (names parcel member)]
    rw [noDeck parcel member] at decked
    cases decked

end

/-! ## The same folder -/

/-- The summary of decks for which nothing was left to do. -/
theorem summary_idle (results : List (Option (List Path))) :
    summary (results.map (Option.map fun _ => [])) =
      ⟨(summary results).processed, (summary results).failed, []⟩ := by
  induction results with
  | nil => rfl
  | cons result rest ih =>
    rw [List.map_cons, summary_cons, summary_cons, ih]
    cases result <;> rfl

/-- What the first run leaves: what the decks deliver has been delivered, and no other file is
new. -/
theorem Ready.underway_and_grown {publisher : Publisher} {start : FileTree} {decks : List Path}
    (ready : publisher.Ready false start decks) {tree : FileTree}
    (left : (Change.each (decks.map (publisher.attempt false start)) start).2 = tree) :
    publisher.Underway start decks tree ∧ Grown (publisher.parcels start decks) start tree := by
  obtain ⟨underway, grown⟩ := Change.keeps_each (fun tree =>
    publisher.Underway start decks tree ∧ Grown (publisher.parcels start decks) start tree)
    (fun deck member => ready.keeps_grown member) ⟨ready.underway, .refl _ _⟩
  rw [left] at underway grown
  exact ⟨underway, grown⟩

/-- A second run without force on a folder that rendered changes nothing. It writes nothing and
counts what the first one counted if a walk can open all folders that are there then; else it
fails. -/
theorem runFolder_again {config : Config} {requested : Option Text} {publisher : Publisher}
    (made : ofConfig config requested = .ok publisher) {machine : Machine}
    (regular : machine.tree.Regular) {folder : Path} {decks : List Path}
    (found : (machine.run (findDecks folder)).1 = .ok decks)
    (slashFree : ∀ deck ∈ decks, publisher.SlashFree machine.tree deck)
    (noDeck : ∀ deck ∈ decks, ∀ output, publisher.HasOutput machine.tree deck output →
      (publisher.outputPath deck output.language).isDeck = false)
    {first : FolderSummary}
    (ran : (machine.run (publisher.runFolder folder false)).1 = .ok first) {after : Machine}
    (left : (machine.run (publisher.runFolder folder false)).2 = after) :
    (after.run (publisher.runFolder folder false)).2.tree = after.tree ∧
      (after.tree.Walkable folder → (after.run (publisher.runFolder folder false)).1 =
        .ok ⟨first.processed, first.failed, []⟩) ∧
      (¬ after.tree.Walkable folder → ∃ path error,
        (after.run (publisher.runFolder folder false)).1 = .error (.walk path error)) := by
  have listed := decksBelow_of_findDecks found
  obtain ⟨there, -⟩ := regular.of_decksBelow_eq_ok listed
  have ready : publisher.Ready false machine.tree decks :=
    ⟨family_parcels made regular.closed slashFree, there, nofun⟩
  obtain ⟨isFolder, -⟩ := of_runFolder_eq_ok ran
  obtain ⟨location, inPlace⟩ := FileTree.kindOn_eq_folder_iff_find.mp isFolder
  -- What the first run came to.
  obtain ⟨counted, leaves⟩ := run_runFolder publisher false isFolder listed
  obtain ⟨summarized, leavesAll⟩ := ready.runAllOn_eq (fun _ member => member) ready.underway
  rw [ran, summarized] at counted
  rw [left, leavesAll] at leaves
  obtain ⟨underway, grown⟩ := ready.underway_and_grown leaves.symm
  have isFolderAfter := underway.folders.kindOn_folder isFolder
  by_cases walkable : after.tree.Walkable folder
  · have noDecks : ∀ parcel ∈ publisher.parcels machine.tree decks,
        parcel.path.isDeck = false := by
      intro parcel member
      obtain ⟨deck, inDecks, output, hasOutput, rfl⟩ := mem_parcels.mp member
      exact noDeck deck inDecks output hasOutput
    -- The second run finds the same decks, and nothing is left to do for them.
    have sameDecks := grown.decksBelow_eq regular underway.folders ready.family.names noDecks
      inPlace (FileTree.walkable_of_decksBelow_eq_ok listed) walkable
    obtain ⟨result, tree⟩ := run_runFolder publisher false isFolderAfter (sameDecks.trans listed)
    obtain ⟨counts, leavesAgain⟩ := ready.runAllOn_eq (fun _ member => member) underway
    have again := attempts_again (fun _ member => member) ready.family
    rw [← leaves] at again
    rw [result, tree, counts, leavesAgain, again, summary_idle, ← Except.ok.inj counted]
    exact ⟨rfl, fun _ => rfl, fun blocked => absurd walkable blocked⟩
  · obtain ⟨location, inPlaceAfter⟩ := FileTree.kindOn_eq_folder_iff_find.mp isFolderAfter
    obtain ⟨way, error, -, -, stopped⟩ :=
      FileTree.decksBelow_of_not_walkable walkable inPlaceAfter
    rw [run_runFolder_of_stopped publisher false isFolderAfter stopped]
    exact ⟨rfl, fun open_ => absurd open_ walkable, fun _ => ⟨_, _, rfl⟩⟩

/-- The lectures are rendered a second time: two decks are fine and one still has no languages. -/
theorem runFolder_again_lectures :
    ofConfig intoBuild none = .ok lecturer ∧ lectures.Regular ∧
      ((fresh lectures).run (findDecks "decks")).1 = .ok lectureDecks ∧
      (∀ deck ∈ lectureDecks, lecturer.SlashFree lectures deck) ∧
      (∀ deck ∈ lectureDecks, ∀ output, lecturer.HasOutput lectures deck output →
        (lecturer.outputPath deck output.language).isDeck = false) ∧
      ((fresh lectures).run (lecturer.runFolder "decks" false)).1 =
        .ok ⟨2, 1, ["build/a_output.tex", "build/c_DE_output.tex", "build/c_EN_output.tex"]⟩ ∧
      ((fresh lectures).run (lecturer.runFolder "decks" false)).2.tree.Walkable "decks" ∧
      (((fresh lectures).run (lecturer.runFolder "decks" false)).2.run
        (lecturer.runFolder "decks" false)).1 = .ok ⟨2, 1, []⟩ ∧
      (((fresh lectures).run (lecturer.runFolder "decks" false)).2.run
          (lecturer.runFolder "decks" false)).2.tree =
        ((fresh lectures).run (lecturer.runFolder "decks" false)).2.tree := by
  have noDeck : ∀ deck ∈ lectureDecks, ∀ output, lecturer.HasOutput lectures deck output →
      (lecturer.outputPath deck output.language).isDeck = false := by
    intro deck member output hasOutput
    have family := family_parcels made_lecturer regular_lectures.closed slashFree_lectures
    rw [isDeck_outputPath family (by decide) (by decide) member hasOutput]
    decide
  have ran : ((fresh lectures).run (lecturer.runFolder "decks" false)).1 =
      .ok ⟨2, 1, ["build/a_output.tex", "build/c_DE_output.tex", "build/c_EN_output.tex"]⟩ := by
    have counted : ((fresh lectures).run (lecturer.runFolder "decks" false)).1.toOption =
        some ⟨2, 1,
          ["build/a_output.tex", "build/c_DE_output.tex", "build/c_EN_output.tex"]⟩ := by
      decide +kernel
    revert counted
    cases ((fresh lectures).run (lecturer.runFolder "decks" false)).1 with
    | error failure => exact nofun
    | ok summary => exact fun same => congrArg _ (Option.some.inj same)
  -- A walk can still open all folders.
  have walkable : ((fresh lectures).run (lecturer.runFolder "decks" false)).2.tree.Walkable
      "decks" := by
    have walked : (((fresh lectures).run (lecturer.runFolder "decks" false)).2.tree.decksBelow
        "decks").isOk = true := by
      decide +kernel
    cases found : ((fresh lectures).run (lecturer.runFolder "decks" false)).2.tree.decksBelow
        "decks" with
    | error stop =>
      rw [found] at walked
      cases walked
    | ok decks => exact FileTree.walkable_of_decksBelow_eq_ok found
  obtain ⟨unchanged, counted, -⟩ := runFolder_again made_lecturer
    (regular_lectures : (fresh lectures).tree.Regular) found_lectures slashFree_lectures noDeck ran
    rfl
  exact ⟨made_lecturer, regular_lectures, found_lectures, slashFree_lectures, noDeck, ran,
    walkable, counted walkable, unchanged⟩

/-! ## A path that is almost too long -/

/-- A deck with nothing beside it. -/
def handout : FileTree where
  entries := ⟨[
    ([("decks" : Text)], .folder),
    ([("decks" : Text), ("a.vmd" : Text)],
      .file (Text.toBytes "# Scene: A\n## Slide(lang=\"EN\")"))],
    by decide⟩
  working := []

/-- A configuration with a folder for outputs beside the decks. -/
def besideDecks : Config :=
  { Config.standard with
    output := { Config.standard.output with directory := some ("decks/outputs" : Text) } }

/-- The publisher of the handout. -/
def neighbour : Publisher := ⟨besideDecks, none⟩

/-- The folder of the handout by a path of 4090 bytes. -/
def handoutFolder : Path := Path.slashed "decks" 4085

/-- The deck of the handout, by a path as long as paths can be. -/
def handoutDeck : Path := Path.join handoutFolder "a.vmd"

theorem made_neighbour : ofConfig besideDecks none = .ok neighbour := rfl

theorem regular_handout : handout.Regular := by
  apply FileTree.regular_of_entries
  simp only [handout, List.forall_mem_cons]
  exact ⟨⟨rfl, by decide⟩, ⟨rfl, by decide⟩, nofun⟩

theorem check_decks : Path.check "decks" = .ok () := rfl

theorem find_handoutFolder :
    handout.find handoutFolder = .ok ([("decks" : Text)], .folder) := by
  have there : handout.find "decks" = .ok ([("decks" : Text)], .folder) := rfl
  exact FileTree.find_slashed there (by decide)

/-- The long path finds the deck as the short one does. -/
theorem find_handoutDeck : handout.find handoutDeck = handout.find "decks/a.vmd" := by
  have usable : handoutDeck.check = .ok () :=
    (Path.IsName.check_join_slashed (by decide) (by decide) check_decks 4084).trans
      (if_neg (by decide))
  have short : handout.find (Path.join "decks" "a.vmd") = .ok ([("decks" : Text), ("a.vmd" : Text)],
      .file (Text.toBytes "# Scene: A\n## Slide(lang=\"EN\")")) := rfl
  exact (FileTree.find_join_slashed (by decide) short usable (by decide)).trans short.symm

theorem found_handout :
    ((fresh handout).run (findDecks handoutFolder)).1 = .ok [handoutDeck] := by
  have isFile : kindOn handout handoutDeck = some .file := by
    rw [kindOn, find_handoutDeck]
    rfl
  have isDeck : handoutDeck.isDeck = true :=
    (Path.isDeck_join handoutFolder [] (by decide)).trans (by decide)
  have walked {folder : Path} (there : handout.find folder = .ok ([("decks" : Text)], .folder)) :
      handout.filesBelow folder = .ok [Path.join folder "a.vmd"] := by
    rw [FileTree.filesBelow, there]
    rfl
  have listed : (fresh handout).tree.decksBelow handoutFolder = .ok [handoutDeck] := by
    refine (FileTree.decksBelow_of_one (walked find_handoutFolder)).trans ?_
    rw [← handoutDeck, FileTree.hasDeck, isFile, isDeck]
    rfl
  rw [run_findDecks, listed]
  rfl

/-- What is planned for the deck is what is planned for it by the short path. -/
theorem plan_handoutDeck :
    neighbour.plan handout handoutDeck = neighbour.plan handout "decks/a.vmd" := by
  have named : handoutDeck.fileName? = some "a.vmd" :=
    Path.IsName.fileName?_join (by decide) handoutFolder
  have configured : neighbour.config.output.directory = some "decks/outputs" := rfl
  refine plan_eq_of_find configured find_handoutDeck ?_
  rw [Path.stem, named]
  rfl

theorem slashFree_handout : ∀ deck ∈ [handoutDeck], neighbour.SlashFree handout deck := by
  have read : handout.readFile handoutDeck =
      .ok (Text.toBytes "# Scene: A\n## Slide(lang=\"EN\")") := by
    rw [FileTree.readFile, find_handoutDeck]
    rfl
  rw [List.forall_mem_singleton]
  exact slashFree_of_source (by decide) (by decide) read (by decide)

theorem ready_handout : neighbour.Ready false handout [handoutDeck] := by
  have listed := decksBelow_of_findDecks found_handout
  exact ⟨family_parcels made_neighbour regular_handout.closed slashFree_handout,
    (regular_handout.of_decksBelow_eq_ok listed).1, nofun⟩

/-- What the first run counts, and the folder that it leaves. -/
theorem runFolder_handout {after : Machine}
    (left : ((fresh handout).run (neighbour.runFolder handoutFolder false)).2 = after) :
    ((fresh handout).run (neighbour.runFolder handoutFolder false)).1 =
        .ok ⟨1, 0, ["decks/outputs/a_output.tex"]⟩ ∧
      neighbour.Underway handout [handoutDeck] after.tree ∧
      kindOn after.tree (Path.join "decks" "outputs") = some .folder := by
  have isFolder : kindOn (fresh handout).tree handoutFolder = some .folder :=
    FileTree.kindOn_eq_folder_iff_find.mpr ⟨_, find_handoutFolder⟩
  have underway : neighbour.Underway handout [handoutDeck] (fresh handout).tree :=
    ready_handout.underway
  obtain ⟨counted, leaves⟩ :=
    run_runFolder neighbour false isFolder (decksBelow_of_findDecks found_handout)
  obtain ⟨summarized, leavesAll⟩ := ready_handout.runAllOn_eq (fun _ member => member) underway
  rw [leavesAll, left] at leaves
  rw [counted, summarized]
  refine ⟨?_, (ready_handout.underway_and_grown leaves.symm).1, ?_⟩
  · have first : summary (Change.each [carryOut false (neighbour.plan handout "decks/a.vmd")]
        handout).1 = ⟨1, 0, ["decks/outputs/a_output.tex"]⟩ := by
      decide +kernel
    rw [List.map_singleton, attempt, plan_handoutDeck]
    exact congrArg Except.ok first
  · have made : kindOn (Change.each [carryOut false (neighbour.plan handout "decks/a.vmd")]
        handout).2 (Path.join "decks" "outputs") = some .folder := by
      decide +kernel
    rw [leaves, List.map_singleton, attempt, plan_handoutDeck]
    exact made

/-- The deck of the handout is rendered, and the folder for its output is then too far from the
given one to be opened, so a second run fails. -/
theorem runFolder_fails_again_handout :
    ofConfig besideDecks none = .ok neighbour ∧ handout.Regular ∧
      ((fresh handout).run (findDecks handoutFolder)).1 = .ok [handoutDeck] ∧
      (∀ deck ∈ [handoutDeck], neighbour.SlashFree handout deck) ∧
      (∀ deck ∈ [handoutDeck], ∀ output, neighbour.HasOutput handout deck output →
        (neighbour.outputPath deck output.language).isDeck = false) ∧
      ((fresh handout).run (neighbour.runFolder handoutFolder false)).1 =
        .ok ⟨1, 0, ["decks/outputs/a_output.tex"]⟩ ∧
      ∃ path error, (((fresh handout).run (neighbour.runFolder handoutFolder false)).2.run
        (neighbour.runFolder handoutFolder false)).1 = .error (.walk path error) := by
  have noDeck : ∀ deck ∈ [handoutDeck], ∀ output, neighbour.HasOutput handout deck output →
      (neighbour.outputPath deck output.language).isDeck = false := by
    intro deck member output hasOutput
    rw [isDeck_outputPath ready_handout.family (by decide) (by decide) member hasOutput]
    decide
  generalize left : ((fresh handout).run (neighbour.runFolder handoutFolder false)).2 = after
  obtain ⟨ran, underway, made⟩ := runFolder_handout left
  have isFolder : kindOn after.tree handoutFolder = some .folder :=
    underway.folders.kindOn_folder
      (FileTree.kindOn_eq_folder_iff_find.mpr ⟨_, find_handoutFolder⟩)
  obtain ⟨location, there⟩ := FileTree.kindOn_eq_folder_iff_find.mp isFolder
  have blocked : ¬ after.tree.Walkable handoutFolder := by
    intro walkable
    have unusable : (Path.join handoutFolder "outputs").check = .error .nameTooLong :=
      (Path.IsName.check_join_slashed (by decide) (by decide) check_decks 4084).trans
        (if_pos (by decide))
    obtain ⟨place, found⟩ := FileTree.kindOn_eq_folder_iff_find.mp made
    obtain ⟨-, -, -, rfl, isOutputs⟩ :=
      (FileTree.find_join_eq_ok_iff _ (by decide)).mp found
    obtain ⟨-, rfl⟩ := FileTree.reaches_of_find there
    have same : after.tree.destination handoutFolder = after.tree.destination "decks" :=
      FileTree.destination_of_same (FileTree.same_slashed (by decide) 4085)
    have opened := walkable _ [("outputs" : Text)] there (by rw [same]; exact isOutputs)
    rw [Path.through, List.foldl_cons, List.foldl_nil, unusable] at opened
    cases opened
  obtain ⟨way, error, -, -, stopped⟩ := FileTree.decksBelow_of_not_walkable blocked there
  have fails : (after.run (neighbour.runFolder handoutFolder false)).1 =
      .error (.walk (handoutFolder.through way) error) := by
    rw [run_runFolder_of_stopped neighbour false isFolder stopped]
  exact ⟨made_neighbour, regular_handout, found_handout, slashFree_handout, noDeck, ran,
    _, _, fails⟩

end Publisher
end Lectern
