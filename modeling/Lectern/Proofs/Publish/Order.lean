import Lectern.Proofs.Publish.Underway

/-!
# Independent decks

Decks whose outputs have places of their own can be rendered in any order. The deliveries of
different decks do not show in each other, so neither do their plans (`Independent.apart`), and the
results for a folder are those that each deck has alone: a deck that fails does not show in another.
-/

namespace Lectern.Publisher

open Machine

/-- What an order of decks comes to on a machine: the tree of the given order, and for each deck
what it counts, writes and leaves if it is rendered alone. -/
structure OrderFree (publisher : Publisher) (machine : Machine) (force : Bool)
    (decks order : List Path) : Prop where
  tree : (publisher.runAllOn machine force order).2.tree =
    (publisher.runAllOn machine force decks).2.tree
  processed : (publisher.runAllOn machine force order).1.processed =
    decks.countP fun deck => (machine.run (publisher.run deck force)).1.isOk
  failed : (publisher.runAllOn machine force order).1.failed =
    decks.countP fun deck => !(machine.run (publisher.run deck force)).1.isOk
  total : (publisher.runAllOn machine force order).1.processed +
    (publisher.runAllOn machine force order).1.failed = decks.length
  written : (publisher.runAllOn machine force order).1.written.Perm
    (decks.flatMap fun deck => (machine.run (publisher.run deck force)).1.toOption.getD [])
  content : ∀ deck ∈ decks, ∀ output, publisher.HasOutput machine.tree deck output →
    ∀ bytes, (publisher.runAllOn machine force order).2.tree.readFile
        (publisher.outputPath deck output.language) = .ok bytes ↔
      (machine.run (publisher.run deck force)).2.tree.readFile
        (publisher.outputPath deck output.language) = .ok bytes

section

variable {publisher : Publisher} {force : Bool} {start : FileTree} {decks : List Path}

namespace Independent

variable (independent : publisher.Independent start decks)
include independent

/-- Independent decks that are there can be rendered without touching them. -/
theorem ready (family : Parcel.Family (publisher.parcels start decks) start)
    (found : ∀ deck ∈ decks, ∃ location, start.LeadsToFile deck location) :
    publisher.Ready force start decks := by
  refine ⟨family, found, ?_⟩
  intro _ parcel inParcels other inDecks
  obtain ⟨deck, member, output, hasOutput, rfl⟩ := mem_parcels.mp inParcels
  rw [place_of_hasOutput family member hasOutput]
  exact independent.decks deck member output hasOutput other inDecks

/-- What is planned for one deck has other places than what is planned for another. -/
theorem place_ne (family : Parcel.Family (publisher.parcels start decks) start)
    {deck other : Path} (member : deck ∈ decks) (memberOther : other ∈ decks)
    (differs : deck ≠ other) {parcel next : Parcel}
    (inPlan : parcel ∈ (publisher.plan start deck).getD [])
    (inNext : next ∈ (publisher.plan start other).getD []) :
    parcel.place start ≠ next.place start := by
  obtain ⟨output, hasOutput, rfl⟩ := mem_plan.mp inPlan
  obtain ⟨nextOutput, hasNext, rfl⟩ := mem_plan.mp inNext
  rw [place_of_hasOutput family member hasOutput, place_of_hasOutput family memberOther hasNext]
  exact independent.outputs deck member other memberOther differs output hasOutput nextOutput
    hasNext

variable (ready : publisher.Ready force start decks)
include ready

/-- Renderings of different decks do not show in each other. -/
theorem apart {deck other : Path} (member : deck ∈ decks) (memberOther : other ∈ decks)
    (differs : deck ≠ other) {tree : FileTree}
    (underway : publisher.Underway start decks tree) :
    (publisher.attempt force start deck).Apart (publisher.attempt force start other) tree := by
  refine apart_carryOut (publisher.Underway start decks) ?_ ?_ ?_ underway
  · exact fun parcel inPlan => ready.keeps_deliver (mem_parcels_of_plan member inPlan)
  · exact fun parcel inPlan => ready.keeps_deliver (mem_parcels_of_plan memberOther inPlan)
  · intro parcel inPlan next inNext tree underway
    refine underway.family.apart (mem_parcels_of_plan member inPlan)
      (mem_parcels_of_plan memberOther inNext) ?_ force
    rw [Parcel.place_eq underway.folders, Parcel.place_eq underway.folders]
    exact independent.place_ne ready.family member memberOther differs inPlan inNext

theorem pairwise {order : List Path} (among : ∀ deck ∈ order, deck ∈ decks)
    (distinct : order.Nodup) :
    order.Pairwise fun deck other => ∀ tree, publisher.Underway start decks tree →
      (publisher.attempt force start deck).Apart (publisher.attempt force start other) tree := by
  refine distinct.imp_of_mem ?_
  intro deck other member memberOther differs tree underway
  exact independent.apart ready (among deck member) (among other memberOther) differs underway

/-- Independent decks come to what each of them comes to alone. -/
theorem results_each {order : List Path} (among : ∀ deck ∈ order, deck ∈ decks)
    (distinct : order.Nodup) :
    (Change.each (order.map (publisher.attempt force start)) start).1 =
      order.map fun deck => (publisher.attempt force start deck start).1 :=
  Change.results_each (fun deck member => ready.keeps_attempt (among deck member))
    (independent.pairwise ready among distinct) ready.underway

/-- Independent decks leave the same tree in every order. -/
theorem tree_each (distinct : decks.Nodup) {order : List Path} (perm : order.Perm decks) :
    (Change.each (order.map (publisher.attempt force start)) start).2 =
      (Change.each (decks.map (publisher.attempt force start)) start).2 :=
  Change.tree_each_perm perm (fun _ member => ready.keeps_attempt member)
    (independent.pairwise ready (fun _ member => member) distinct) ready.underway

/-- What is read of a deck's outputs in the end is what is read after the deck is rendered alone. -/
theorem readFile_each (distinct : decks.Nodup) {deck : Path} (member : deck ∈ decks)
    {parcel : Parcel} (inPlan : parcel ∈ (publisher.plan start deck).getD []) (bytes : ByteArray) :
    (Change.each (decks.map (publisher.attempt force start)) start).2.readFile parcel.path =
        .ok bytes ↔
      (publisher.attempt force start deck start).2.readFile parcel.path = .ok bytes := by
  -- The deck may as well be the first one.
  rw [← independent.tree_each ready distinct (List.perm_cons_erase member).symm, List.map_cons,
    Change.each]
  have after := ready.keeps_attempt member start ready.underway
  generalize (publisher.attempt force start deck start).2 = alone at after ⊢
  refine (Change.keeps_each (fun tree => publisher.Underway start decks tree ∧
    (tree.readFile parcel.path = .ok bytes ↔ alone.readFile parcel.path = .ok bytes)) ?_
    ⟨after, Iff.rfl⟩).2
  intro other inRest
  obtain ⟨differs, inDecks⟩ := distinct.mem_erase_iff.mp inRest
  refine keeps_carryOut _ ?_
  rintro next inNext tree ⟨underway, same⟩
  have memberNext := mem_parcels_of_plan inDecks inNext
  have elsewhere : parcel.place tree ≠ next.place tree := by
    rw [Parcel.place_eq underway.folders, Parcel.place_eq underway.folders]
    exact independent.place_ne ready.family member inDecks differs.symm inPlan inNext
  exact ⟨ready.keeps_deliver memberNext tree underway,
    (underway.family.readFile_deliver_of_ne (mem_parcels_of_plan member inPlan) memberNext
      elsewhere force bytes).trans same⟩

end Independent

/-- Independent decks that are ready can be rendered in any order. -/
theorem orderFree_of_ready {machine : Machine}
    (independent : publisher.Independent machine.tree decks)
    (ready : publisher.Ready force machine.tree decks) (distinct : decks.Nodup)
    {order : List Path} (perm : order.Perm decks) :
    publisher.OrderFree machine force decks order := by
  have among : ∀ deck ∈ order, deck ∈ decks := fun deck => perm.mem_iff.mp
  have alone {deck : Path} (member : deck ∈ decks) :
      publisher.attempt force machine.tree deck machine.tree =
        machine.upshot (publisher.run deck force) := (ready.upshot_run rfl member).symm
  obtain ⟨summarized, left⟩ := ready.runAllOn_eq among ready.underway
  obtain ⟨-, leftByAll⟩ := ready.runAllOn_eq (fun _ member => member) ready.underway
  have sameTree := independent.tree_each ready distinct perm
  have results : (Change.each (order.map (publisher.attempt force machine.tree)) machine.tree).1 =
      order.map fun deck => (machine.run (publisher.run deck force)).1.toOption := by
    rw [independent.results_each ready among (perm.nodup_iff.mpr distinct)]
    refine List.map_congr_left fun deck member => ?_
    rw [alone (among deck member)]
    rfl
  rw [results] at summarized
  have processed : (publisher.runAllOn machine force order).1.processed =
      decks.countP fun deck => (machine.run (publisher.run deck force)).1.isOk := by
    rw [summarized, processed_summary, perm.countP_eq]
  have failed : (publisher.runAllOn machine force order).1.failed =
      decks.countP fun deck => !(machine.run (publisher.run deck force)).1.isOk := by
    rw [summarized, failed_summary, perm.countP_eq]
  refine ⟨?_, processed, failed, ?_, ?_, ?_⟩
  · rw [left, leftByAll, sameTree]
  · rw [processed, failed]
    simpa using (List.length_eq_countP_add_countP
      (fun deck => (machine.run (publisher.run deck force)).1.isOk)).symm
  · rw [summarized, written_summary]
    exact perm.flatMap_right _
  · intro deck member output hasOutput bytes
    have read := independent.readFile_each ready distinct member
      (mem_plan.mpr ⟨output, hasOutput, rfl⟩) bytes
    rw [alone member] at read
    rw [left, sameTree]
    exact read

end

/-- Decks that are found below a folder and are independent of each other can be rendered in any
order, and rendering the folder renders them in one. -/
theorem orderFree {config : Config} {requested : Option Text} {publisher : Publisher}
    (made : ofConfig config requested = .ok publisher) {machine : Machine}
    (regular : machine.tree.Regular) {folder : Path} {decks : List Path}
    (found : (machine.run (findDecks folder)).1 = .ok decks)
    (slashFree : ∀ deck ∈ decks, publisher.SlashFree machine.tree deck)
    (independent : publisher.Independent machine.tree decks) (force : Bool) :
    (kindOn machine.tree folder = some .folder →
      (machine.run (publisher.runFolder folder force)).1 =
          .ok (publisher.runAllOn machine force decks).1 ∧
        (machine.run (publisher.runFolder folder force)).2.tree =
          (publisher.runAllOn machine force decks).2.tree) ∧
      ∀ order : List Path, order.Perm decks → publisher.OrderFree machine force decks order := by
  have listed := decksBelow_of_findDecks found
  obtain ⟨there, distinct⟩ := regular.of_decksBelow_eq_ok listed
  have ready : publisher.Ready force machine.tree decks :=
    independent.ready (family_parcels made regular.closed slashFree) there
  refine ⟨fun isFolder => run_runFolder publisher force isFolder listed, ?_⟩
  intro order perm
  exact orderFree_of_ready independent ready distinct perm

/-- The lectures can be rendered from the last to the first. -/
theorem orderFree_lectures :
    ofConfig intoBuild none = .ok lecturer ∧ lectures.Regular ∧
      ((fresh lectures).run (findDecks "decks")).1 = .ok lectureDecks ∧
      (∀ deck ∈ lectureDecks, lecturer.SlashFree lectures deck) ∧
      lecturer.Independent lectures lectureDecks ∧
      lecturer.OrderFree (fresh lectures) true lectureDecks lectureDecks.reverse := by
  have listed := decksBelow_of_findDecks found_lectures
  have independent : lecturer.Independent lectures lectureDecks :=
    independent_of_vacant (regular_lectures.of_decksBelow_eq_ok listed).1 vacant_lectures
      separate_lectures
  have anyOrder := orderFree made_lecturer (regular_lectures : (fresh lectures).tree.Regular)
    found_lectures slashFree_lectures independent true
  exact ⟨made_lecturer, regular_lectures, found_lectures, slashFree_lectures, independent,
    anyOrder.2 _ (List.reverse_perm _)⟩

end Lectern.Publisher
