import Lectern.Proofs.Publish.Labels

/-!
# Runs on several decks

While decks are rendered one after another, the deck files stay as they were at the start: nothing
that is delivered has the place of a deck, or nothing is overwritten. So all plans can be made at
the start (`Ready.runAllOn_eq`), and rendering a deck keeps what its deliveries keep.
-/

namespace Lectern.Publisher

open Machine

/-- Decks that are there, with files to be delivered to places that are not those of decks. Without
force, the places do not matter. -/
structure Ready (publisher : Publisher) (force : Bool) (start : FileTree) (decks : List Path) :
    Prop where
  family : Parcel.Family (publisher.parcels start decks) start
  found : ∀ deck ∈ decks, ∃ location, start.LeadsToFile deck location
  aside : force = true → ∀ parcel ∈ publisher.parcels start decks, ∀ deck ∈ decks,
    parcel.place start ≠ start.destination deck

/-- What holds between the first deck and the last: folders and deck files are still there. -/
structure Underway (publisher : Publisher) (start : FileTree) (decks : List Path)
    (tree : FileTree) : Prop where
  family : Parcel.Family (publisher.parcels start decks) tree
  folders : start.KeepsFolders tree
  files : ∀ deck ∈ decks, ∀ location, start.LeadsToFile deck location →
    tree.entry? location = start.entry? location

/-- What rendering a deck does to a tree, as it was planned at the start. -/
def attempt (publisher : Publisher) (force : Bool) (start : FileTree) (deck : Path) : Change :=
  carryOut force (publisher.plan start deck)

namespace Ready

variable {publisher : Publisher} {force : Bool} {start : FileTree} {decks : List Path}
  (ready : publisher.Ready force start decks)
include ready

theorem underway : publisher.Underway start decks start :=
  ⟨ready.family, .refl start, fun _ _ _ _ => rfl⟩

theorem plan_eq {tree : FileTree} (underway : publisher.Underway start decks tree) {deck : Path}
    (member : deck ∈ decks) : publisher.plan tree deck = publisher.plan start deck := by
  obtain ⟨location, leads⟩ := ready.found deck member
  exact publisher.plan_eq underway.folders leads.1 (underway.files deck member location leads)

theorem keeps_deliver {parcel : Parcel} (member : parcel ∈ publisher.parcels start decks) :
    (parcel.deliver force).Keeps (publisher.Underway start decks) := by
  intro tree underway
  have stands := underway.family.stands member
  refine ⟨Parcel.Family.keeps_deliver member force tree underway.family,
    underway.folders.trans (stands.keepsFolders force), ?_⟩
  intro deck inDecks location leads
  obtain ⟨bytes, there⟩ := leads.2
  have same := underway.files deck inDecks location leads
  rw [there] at same ⊢
  cases force with
  | false => exact stands.entry?_deliver_false same
  | true =>
    refine stands.entry?_deliver true ?_ same
    rw [Parcel.place_eq underway.folders, ← FileTree.destination_of_follow leads.1]
    exact (ready.aside rfl parcel member deck inDecks).symm

theorem keeps_attempt {deck : Path} (member : deck ∈ decks) :
    (publisher.attempt force start deck).Keeps (publisher.Underway start decks) :=
  keeps_carryOut _ fun _ inPlan => ready.keeps_deliver (mem_parcels_of_plan member inPlan)

/-- Rendering one of the decks at the start. -/
theorem upshot_run {machine : Machine} (atStart : machine.tree = start) {deck : Path}
    (member : deck ∈ decks) :
    machine.upshot (publisher.run deck force) = publisher.attempt force start deck start := by
  subst atStart
  refine Publisher.upshot_run publisher deck force machine ?_
  intro parcels planned parcel inPlan
  exact ready.family.names parcel (mem_parcels_of_plan member (by rwa [planned]))

/-- Rendering some of the decks is carrying out their plans. -/
theorem runAllOn_eq {order : List Path} (among : ∀ deck ∈ order, deck ∈ decks) {machine : Machine}
    (underway : publisher.Underway start decks machine.tree) :
    (publisher.runAllOn machine force order).1 =
        summary (Change.each (order.map (publisher.attempt force start)) machine.tree).1 ∧
      (publisher.runAllOn machine force order).2.tree =
        (Change.each (order.map (publisher.attempt force start)) machine.tree).2 := by
  refine Publisher.runAllOn_eq ?_ ?_ ?_ machine underway
  · exact fun tree underway deck member => ready.plan_eq underway (among deck member)
  · intro deck member parcels planned parcel inPlan
    exact ready.family.names parcel
      (mem_parcels_of_plan (among deck member) (by rwa [planned]))
  · exact fun deck member => ready.keeps_attempt (among deck member)

end Ready

end Lectern.Publisher
