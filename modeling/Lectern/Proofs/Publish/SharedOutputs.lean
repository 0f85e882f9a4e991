import Lectern.Proofs.Publish.Order

/-!
# Shared outputs

Decks with one label in one folder share an output: a deck that is rendered later finds the output
of an earlier one in the way, or overwrites it. `lostOnlyIfShared` says when outputs of decks lead
to the same place, that nothing is lost where none do, and that something is lost where two decks
differ. Where all outputs go to one folder, decks of the same name in different folders share one
(`sharesOutput_twins`).
-/

namespace Lectern

namespace Parcel

section

variable {parcel : Parcel} {family : List Parcel} {tree : FileTree}

/-- A file for which there was nothing in its place is there after a delivery that does not fail. -/
theorem Stands.readFile_of_vacant (stands : parcel.Stands tree)
    (vacant : tree.entry? (parcel.place tree) = none) {force : Bool}
    (made : (parcel.deliver force tree).1 ≠ none) :
    (parcel.deliver force tree).2.readFile parcel.path = .ok parcel.bytes := by
  have vacantRoom := stands.entry?_room.trans vacant
  rw [← stands.place_room] at vacantRoom
  rw [← stands.deliver_room] at made ⊢
  by_cases reaches : (parcel.room tree).Reaches parcel.folder
  · rw [deliver_of_reaches stands.isName reaches, vacantRoom] at made ⊢
    by_cases fits : parcel.Fits
    · have written : parcel.verdict force none = .written :=
        verdict_eq_written_iff.mpr ⟨fits, nofun, fun _ => rfl⟩
      have below := parcel.place_ne_nil (parcel.room tree)
      have noFolder : FileTree.entry? (parcel.room tree) (parcel.place (parcel.room tree)) ≠
          some .folder := by simp [vacantRoom]
      have keeps := FileTree.KeepsFolders.put below noFolder (.file parcel.bytes)
      rw [written, carry, readFile_path_eq_ok_iff stands.isName]
      refine ⟨fits, keeps.reaches reaches, ?_⟩
      rw [place_eq keeps, FileTree.entry?_put below, if_pos rfl]
    · rw [verdict_of_not_fits fits] at made
      exact absurd rfl made
  · rw [deliver_of_stuck stands.isName (by rwa [stands.room_room])] at made
    exact absurd rfl made

/-- Deliveries to other places leave what is read. -/
theorem Family.readFile_all_of_ne (holds : Family family tree) (member : parcel ∈ family)
    {force : Bool} {others : List Parcel} (among : ∀ other ∈ others, other ∈ family)
    (differs : ∀ other ∈ others, parcel.place tree ≠ other.place tree) {bytes : ByteArray}
    (read : tree.readFile parcel.path = .ok bytes) :
    (Change.all (others.map (deliver force)) tree).2.readFile parcel.path = .ok bytes := by
  refine (Change.keeps_all (fun later => Family family later ∧ tree.KeepsFolders later ∧
    later.readFile parcel.path = .ok bytes) ?_ tree ⟨holds, .refl tree, read⟩).2.2
  rintro other inOthers later ⟨holds, keeps, there⟩
  have memberOther := among other inOthers
  have apart : parcel.place later ≠ other.place later := by
    rw [place_eq keeps, place_eq keeps]
    exact differs other inOthers
  exact ⟨keeps_deliver memberOther force later holds,
    keeps.trans ((holds.stands memberOther).keepsFolders force),
    (holds.readFile_deliver_of_ne member memberOther apart force bytes).mpr there⟩

/-- Files with vacant places of their own are all there after deliveries of which none fails. -/
theorem Family.readFile_all (holds : Family family tree) {force : Bool} {parcels : List Parcel}
    (among : ∀ parcel ∈ parcels, parcel ∈ family)
    (distinct : parcels.Pairwise fun parcel other => parcel.place tree ≠ other.place tree)
    (vacant : ∀ parcel ∈ parcels, tree.entry? (parcel.place tree) = none)
    (made : (Change.all (parcels.map (deliver force)) tree).1 ≠ none) (member : parcel ∈ parcels) :
    (Change.all (parcels.map (deliver force)) tree).2.readFile parcel.path = .ok parcel.bytes := by
  induction parcels generalizing tree with
  | nil => cases member
  | cons first rest ih =>
    have inFamily := among first (List.mem_cons_self ..)
    have amongRest : ∀ other ∈ rest, other ∈ family := fun other inRest =>
      among other (List.mem_cons_of_mem _ inRest)
    obtain ⟨differs, distinctRest⟩ := List.pairwise_cons.mp distinct
    have kept := keeps_deliver inFamily force tree holds
    have folders := (holds.stands inFamily).keepsFolders force
    rw [List.map_cons] at made ⊢
    cases delivered : (first.deliver force tree).1 with
    | none =>
      rw [Change.all_of_failed delivered] at made
      exact absurd rfl made
    | some written =>
      rw [Change.all_of_made delivered] at made ⊢
      rcases List.mem_cons.mp member with rfl | inRest
      · have succeeded : (parcel.deliver force tree).1 ≠ none := by simp [delivered]
        refine kept.readFile_all_of_ne inFamily amongRest ?_
          ((holds.stands inFamily).readFile_of_vacant (vacant parcel member) succeeded)
        intro other inRest
        rw [place_eq folders, place_eq folders]
        exact differs other inRest
      · refine ih kept amongRest ?_ ?_ (by simpa using made) inRest
        · exact distinctRest.imp fun apart => by rwa [place_eq folders, place_eq folders]
        · intro other inRest
          rw [place_eq folders, holds.entry?_deliver_of_ne (amongRest other inRest) inFamily
            (differs other inRest).symm]
          exact vacant other (List.mem_cons_of_mem _ inRest)

end

end Parcel

namespace Publisher

open Machine

/-- Every deck that can be rendered alone has its own outputs after its folder is rendered. -/
def Lossless (publisher : Publisher) (machine : Machine) (folder : Path) (force : Bool)
    (decks : List Path) : Prop :=
  ∀ deck ∈ decks, (machine.run (publisher.run deck force)).1.isOk →
    ∀ output, publisher.HasOutput machine.tree deck output →
      (machine.run (publisher.runFolder folder force)).2.tree.readFile
        (publisher.outputPath deck output.language) = .ok (Text.toBytes output.latex)

/-- When decks of a folder share outputs, and what becomes of their outputs if they do and if they
do not. -/
structure LostOnlyIfShared (publisher : Publisher) (machine : Machine) (folder : Path)
    (decks : List Path) : Prop where
  shared : ∀ deck ∈ decks, ∀ other ∈ decks, publisher.SharesOutput machine.tree deck other ↔
    ∃ output, publisher.HasOutput machine.tree deck output ∧
      ∃ next, publisher.HasOutput machine.tree other next ∧
        machine.tree.destination (publisher.outputFolder deck) =
          machine.tree.destination (publisher.outputFolder other) ∧
        label deck output.language = label other next.language
  kept : (∀ deck ∈ decks, ∀ other ∈ decks, deck ≠ other →
      ¬ publisher.SharesOutput machine.tree deck other) →
    (∀ deck ∈ decks, ∀ output, publisher.HasOutput machine.tree deck output →
      machine.tree.entry? (machine.tree.destination (publisher.outputPath deck output.language)) =
        none) →
    ∀ force, publisher.Lossless machine folder force decks ∧
      ∃ summary, (machine.run (publisher.runFolder folder force)).1 = .ok summary ∧
        summary.processed =
          decks.countP fun deck => (machine.run (publisher.run deck force)).1.isOk
  lost : ∀ deck ∈ decks, ∀ other ∈ decks, ∀ output, publisher.HasOutput machine.tree deck output →
    ∀ next, publisher.HasOutput machine.tree other next →
      publisher.outputPath deck output.language = publisher.outputPath other next.language →
      output.latex ≠ next.latex → ∀ force, (machine.run (publisher.run deck force)).1.isOk →
        (machine.run (publisher.run other force)).1.isOk →
        ¬ publisher.Lossless machine folder force decks

/-- A deck whose outputs have vacant places has all of them after it is rendered alone. -/
theorem Ready.readFile_run {publisher : Publisher} {machine : Machine} {force : Bool}
    {decks : List Path} (ready : publisher.Ready force machine.tree decks) {deck : Path}
    (member : deck ∈ decks)
    (distinct : ((publisher.plan machine.tree deck).getD []).Pairwise fun parcel other =>
      parcel.place machine.tree ≠ other.place machine.tree)
    (vacant : ∀ parcel ∈ (publisher.plan machine.tree deck).getD [],
      machine.tree.entry? (parcel.place machine.tree) = none)
    (succeeded : (machine.run (publisher.run deck force)).1.isOk) {parcel : Parcel}
    (inPlan : parcel ∈ (publisher.plan machine.tree deck).getD []) :
    (machine.run (publisher.run deck force)).2.tree.readFile parcel.path = .ok parcel.bytes := by
  have ran := ready.upshot_run rfl member
  have made : (publisher.attempt force machine.tree deck machine.tree).1 ≠ none := by
    rw [← ran, upshot]
    revert succeeded
    cases (machine.run (publisher.run deck force)).1 with
    | error failure =>
      intro isOk
      cases isOk
    | ok written =>
      intro _ same
      cases same
  have among : ∀ parcel ∈ (publisher.plan machine.tree deck).getD [],
      parcel ∈ publisher.parcels machine.tree decks :=
    fun parcel inPlan => mem_parcels_of_plan member inPlan
  have read : (publisher.attempt force machine.tree deck machine.tree).2.readFile parcel.path =
      .ok parcel.bytes := by
    rw [attempt] at made ⊢
    cases planned : publisher.plan machine.tree deck with
    | none =>
      rw [planned] at made
      exact absurd rfl made
    | some parcels =>
      rw [planned] at distinct vacant among inPlan made
      exact ready.family.readFile_all among distinct vacant made inPlan
  rwa [← ran] at read

/-- Where two decks share the path of an output and differ in it, one of them loses it. -/
theorem not_lossless_of_samePath (publisher : Publisher) (machine : Machine) (folder : Path)
    {decks : List Path} {deck other : Path} (member : deck ∈ decks) (memberOther : other ∈ decks)
    {output next : Output} (hasOutput : publisher.HasOutput machine.tree deck output)
    (hasNext : publisher.HasOutput machine.tree other next)
    (samePath : publisher.outputPath deck output.language =
      publisher.outputPath other next.language)
    (differs : output.latex ≠ next.latex) {force : Bool}
    (succeeded : (machine.run (publisher.run deck force)).1.isOk)
    (succeededOther : (machine.run (publisher.run other force)).1.isOk) :
    ¬ publisher.Lossless machine folder force decks := by
  intro lossless
  have own := lossless deck member succeeded output hasOutput
  have others := lossless other memberOther succeededOther next hasNext
  rw [samePath] at own
  have same := congrArg Text.ofBytes? (Except.ok.inj (own.symm.trans others))
  rw [Text.ofBytes?_toBytes, Text.ofBytes?_toBytes] at same
  exact differs (Option.some.inj same)

section

variable {config : Config} {requested : Option Text} {publisher : Publisher}
  (made : ofConfig config requested = .ok publisher)
include made

/-- What is planned for one deck has places of its own. -/
theorem pairwise_place_of_plan {start : FileTree} (closed : start.Closed) {deck : Path}
    (slashFree : publisher.SlashFree start deck) :
    ((publisher.plan start deck).getD []).Pairwise fun parcel other =>
      parcel.place start ≠ other.place start := by
  rw [plan]
  cases planned : publisher.outputsOn start deck with
  | error failure => exact List.Pairwise.nil
  | ok outputs =>
    have distinct := (placed_of_outputsOn made closed slashFree planned).distinct
    refine List.pairwise_map.mpr (distinct.imp ?_)
    intro output next differs same
    exact differs (List.cons.inj (List.append_inj' same rfl).2).1

/-- Outputs of decks below a folder lead to the same place exactly if they have the same label in
the same folder. Where none do and nothing is in their places, every deck that can be rendered has
its outputs in the end, with and without force. Where two decks share the path of an output and
differ in it, one of them loses it. -/
theorem lostOnlyIfShared {machine : Machine} (regular : machine.tree.Regular) {folder : Path}
    (isFolder : kindOn machine.tree folder = some .folder) {decks : List Path}
    (found : (machine.run (findDecks folder)).1 = .ok decks)
    (slashFree : ∀ deck ∈ decks, publisher.SlashFree machine.tree deck) :
    publisher.LostOnlyIfShared machine folder decks := by
  have listed := decksBelow_of_findDecks found
  obtain ⟨there, distinct⟩ := regular.of_decksBelow_eq_ok listed
  have family := family_parcels made regular.closed slashFree
  refine ⟨?_, ?_, ?_⟩
  · intro deck member other memberOther
    constructor
    · rintro ⟨output, hasOutput, next, hasNext, same⟩
      exact ⟨output, hasOutput, next, hasNext,
        (place_eq_iff family member memberOther hasOutput hasNext).mp same⟩
    · rintro ⟨output, hasOutput, next, hasNext, same⟩
      exact ⟨output, hasOutput, next, hasNext,
        (place_eq_iff family member memberOther hasOutput hasNext).mpr same⟩
  · intro separate vacant force
    have independent := independent_of_vacant there vacant separate
    have ready : publisher.Ready force machine.tree decks := independent.ready family there
    obtain ⟨summarized, left⟩ := run_runFolder publisher force isFolder listed
    have free := orderFree_of_ready independent ready distinct (List.Perm.refl decks)
    refine ⟨?_, _, summarized, free.processed⟩
    intro deck member succeeded output hasOutput
    rw [left, free.content deck member output hasOutput]
    have vacantPlan : ∀ parcel ∈ (publisher.plan machine.tree deck).getD [],
        machine.tree.entry? (parcel.place machine.tree) = none := by
      intro parcel inPlan
      obtain ⟨next, hasNext, rfl⟩ := mem_plan.mp inPlan
      rw [place_of_hasOutput family member hasNext]
      exact vacant deck member next hasNext
    have distinctPlan := pairwise_place_of_plan made regular.closed (slashFree deck member)
    have read := ready.readFile_run member distinctPlan vacantPlan succeeded
      (mem_plan.mpr ⟨output, hasOutput, rfl⟩)
    exact read
  · intro deck member other memberOther output hasOutput next hasNext samePath differs force
      succeeded succeededOther
    exact not_lossless_of_samePath publisher machine folder member memberOther hasOutput hasNext
      samePath differs succeeded succeededOther

end

/-- The lectures keep all their outputs, with and without force. -/
theorem lostOnlyIfShared_lectures :
    ofConfig intoBuild none = .ok lecturer ∧ lectures.Regular ∧
      kindOn lectures "decks" = some .folder ∧
      ((fresh lectures).run (findDecks "decks")).1 = .ok lectureDecks ∧
      (∀ deck ∈ lectureDecks, lecturer.SlashFree lectures deck) ∧
      lecturer.Lossless (fresh lectures) "decks" false lectureDecks ∧
      lecturer.Lossless (fresh lectures) "decks" true lectureDecks := by
  have isFolder : kindOn lectures "decks" = some .folder := rfl
  have onlyIfShared := lostOnlyIfShared made_lecturer
    (regular_lectures : (fresh lectures).tree.Regular) isFolder found_lectures slashFree_lectures
  have kept := onlyIfShared.kept separate_lectures vacant_lectures
  exact ⟨made_lecturer, regular_lectures, isFolder, found_lectures, slashFree_lectures,
    (kept false).1, (kept true).1⟩

/-! ## Decks of one name -/

/-- Two decks of one name in different folders. -/
def twins : FileTree where
  entries := ⟨[
    ([("decks" : Text)], .folder),
    ([("decks" : Text), ("a" : Text)], .folder),
    ([("decks" : Text), ("a" : Text), ("talk.vmd" : Text)],
      .file (Text.toBytes "# Scene: A\n## Slide(lang=\"EN\")\none")),
    ([("decks" : Text), ("b" : Text)], .folder),
    ([("decks" : Text), ("b" : Text), ("talk.vmd" : Text)],
      .file (Text.toBytes "# Scene: B\n## Slide(lang=\"EN\")\ntwo"))],
    by decide⟩
  working := []

/-- The decks of the twins. -/
def twinDecks : List Path := ["decks/a/talk.vmd", "decks/b/talk.vmd"]

/-- Both decks go to the same path in a folder that is not there yet, so one of them is lost, with
and without force. -/
theorem sharesOutput_twins :
    ofConfig intoBuild none = .ok lecturer ∧ twins.Regular ∧
      twins.entry? [("build" : Text)] = none ∧
      ((fresh twins).run (findDecks "decks")).1 = .ok twinDecks ∧
      (∃ output, lecturer.HasOutput twins "decks/a/talk.vmd" output ∧
        ∃ next, lecturer.HasOutput twins "decks/b/talk.vmd" next ∧
          lecturer.outputPath "decks/a/talk.vmd" output.language =
            lecturer.outputPath "decks/b/talk.vmd" next.language) ∧
      ¬ lecturer.Lossless (fresh twins) "decks" false twinDecks ∧
      ¬ lecturer.Lossless (fresh twins) "decks" true twinDecks := by
  have regular : twins.Regular := by
    apply FileTree.regular_of_entries
    simp only [twins, List.forall_mem_cons]
    exact ⟨⟨rfl, by decide⟩, ⟨rfl, by decide⟩, ⟨rfl, by decide⟩, ⟨rfl, by decide⟩,
      ⟨rfl, by decide⟩, nofun⟩
  have hasOutput : lecturer.HasOutput twins "decks/a/talk.vmd"
      ⟨none, Latex.renderDocument intoBuild.latex none
        (Document.parse "# Scene: A\n## Slide(lang=\"EN\")\none")⟩ := by decide +kernel
  have hasNext : lecturer.HasOutput twins "decks/b/talk.vmd"
      ⟨none, Latex.renderDocument intoBuild.latex none
        (Document.parse "# Scene: B\n## Slide(lang=\"EN\")\ntwo")⟩ := by decide +kernel
  have samePath : lecturer.outputPath "decks/a/talk.vmd" none =
      lecturer.outputPath "decks/b/talk.vmd" none := by decide
  have member : ("decks/a/talk.vmd" : Path) ∈ twinDecks := by decide
  have memberOther : ("decks/b/talk.vmd" : Path) ∈ twinDecks := by decide
  have loses (force : Bool)
      (succeeded : ((fresh twins).run (lecturer.run "decks/a/talk.vmd" force)).1.isOk)
      (succeededOther : ((fresh twins).run (lecturer.run "decks/b/talk.vmd" force)).1.isOk) :
      ¬ lecturer.Lossless (fresh twins) "decks" force twinDecks := by
    refine not_lossless_of_samePath lecturer (fresh twins) "decks" member memberOther hasOutput
      hasNext samePath ?_ succeeded succeededOther
    decide +kernel
  refine ⟨made_lecturer, regular, rfl, rfl, ⟨_, hasOutput, _, hasNext, samePath⟩, ?_, ?_⟩
  · exact loses false (by decide +kernel) (by decide +kernel)
  · exact loses true (by decide +kernel) (by decide +kernel)

end Publisher

end Lectern
