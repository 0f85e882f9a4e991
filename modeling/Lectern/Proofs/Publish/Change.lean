import Lectern.Files.FileTree

/-!
# Changes of a tree

What a publisher does to a tree, one file or one deck at a time: a change gives the paths that were
written, or fails, and leaves a tree. Changes follow each other until one fails (`all`), or whatever
becomes of them (`each`). Two changes are apart on a tree if neither shows in what becomes of the
other. Changes that are pairwise apart give what they would give alone (`results_each`) and can be
made in any order (`tree_each_perm`).
-/

namespace Lectern

/-- A change of a tree with the paths that were written, or `none` for a failure. -/
abbrev Change := FileTree → Option (List Path) × FileTree

namespace Change

/-- Changes one after another up to the first that fails. -/
def all : List Change → Change
  | [], tree => (some [], tree)
  | change :: rest, tree =>
    match change tree with
    | (none, after) => (none, after)
    | (some written, after) => ((all rest after).1.map (written ++ ·), (all rest after).2)

/-- Changes one after another, with what became of each. -/
def each : List Change → FileTree → List (Option (List Path)) × FileTree
  | [], tree => ([], tree)
  | change :: rest, tree =>
    ((change tree).1 :: (each rest (change tree).2).1, (each rest (change tree).2).2)

/-- Neither change shows in what becomes of the other, nor their order in the tree. -/
structure Apart (change other : Change) (tree : FileTree) : Prop where
  result : (change (other tree).2).1 = (change tree).1
  otherResult : (other (change tree).2).1 = (other tree).1
  tree : (change (other tree).2).2 = (other (change tree).2).2

/-- What a change keeps, whatever the tree. -/
def Keeps (change : Change) (Holds : FileTree → Prop) : Prop :=
  ∀ tree, Holds tree → Holds (change tree).2

variable {Holds : FileTree → Prop} {change other : Change} {tree : FileTree}

theorem all_of_failed (failed : (change tree).1 = none) (rest : List Change) :
    all (change :: rest) tree = (none, (change tree).2) := by
  rcases made : change tree with ⟨_ | written, after⟩
  · rw [all, made]
  · rw [made] at failed
    cases failed

theorem all_of_made {written : List Path} (made : (change tree).1 = some written)
    (rest : List Change) :
    all (change :: rest) tree = ((all rest (change tree).2).1.map (written ++ ·),
      (all rest (change tree).2).2) := by
  rcases result : change tree with ⟨_ | others, after⟩
  · rw [result] at made
    cases made
  · rw [result] at made
    obtain rfl := Option.some.inj made
    rw [all, result]

/-! ## Keeping -/

section

variable {Item : Type} {make : Item → Change} {items : List Item}

theorem keeps_all (Holds : FileTree → Prop)
    (keeps : ∀ item ∈ items, (make item).Keeps Holds) : (all (items.map make)).Keeps Holds := by
  induction items with
  | nil => exact fun tree holds => holds
  | cons item rest ih =>
    intro tree holds
    have first := keeps item (List.mem_cons_self ..) tree holds
    have behind := ih fun other member => keeps other (List.mem_cons_of_mem _ member)
    rw [List.map_cons]
    cases made : (make item tree).1 with
    | none => rwa [all_of_failed made]
    | some written =>
      rw [all_of_made made]
      exact behind _ first

theorem keeps_each (Holds : FileTree → Prop)
    (keeps : ∀ item ∈ items, (make item).Keeps Holds) (holds : Holds tree) :
    Holds (each (items.map make) tree).2 := by
  induction items generalizing tree with
  | nil => exact holds
  | cons item rest ih =>
    apply ih
    · exact fun other member => keeps other (List.mem_cons_of_mem _ member)
    · exact keeps item (List.mem_cons_self ..) tree holds

/-! ## Changes apart -/

theorem Apart.symm (apart : change.Apart other tree) : other.Apart change tree :=
  ⟨apart.otherResult, apart.result, apart.tree.symm⟩

/-- A sequence of changes is apart from a change that each of them is apart from. -/
theorem Apart.all (Holds : FileTree → Prop)
    (keeps : ∀ item ∈ items, (make item).Keeps Holds)
    (apart : ∀ item ∈ items, ∀ tree, Holds tree → (make item).Apart other tree)
    (holds : Holds tree) : (Change.all (items.map make)).Apart other tree := by
  induction items generalizing tree with
  | nil => exact ⟨rfl, rfl, rfl⟩
  | cons item rest ih =>
    have first := apart item (List.mem_cons_self ..) tree holds
    have kept := keeps item (List.mem_cons_self ..) tree holds
    have behind := ih (fun other member => keeps other (List.mem_cons_of_mem _ member))
      (fun other member => apart other (List.mem_cons_of_mem _ member)) kept
    rw [List.map_cons]
    cases made : (make item tree).1 with
    | none =>
      have madeThen := first.result.trans made
      refine ⟨?_, ?_, ?_⟩
      · rw [all_of_failed made, all_of_failed madeThen]
      · rw [all_of_failed made, first.otherResult]
      · rw [all_of_failed made, all_of_failed madeThen, first.tree]
    | some written =>
      have madeThen := first.result.trans made
      refine ⟨?_, ?_, ?_⟩
      · rw [all_of_made made, all_of_made madeThen, first.tree, behind.result]
      · rw [all_of_made made, behind.otherResult, first.otherResult]
      · rw [all_of_made made, all_of_made madeThen, first.tree, behind.tree]

/-- Changes that are pairwise apart give what they would give alone. -/
theorem results_each (keeps : ∀ item ∈ items, (make item).Keeps Holds)
    (apart : items.Pairwise fun item next =>
      ∀ tree, Holds tree → (make item).Apart (make next) tree)
    (holds : Holds tree) :
    (each (items.map make) tree).1 = items.map fun item => (make item tree).1 := by
  induction items generalizing tree with
  | nil => rfl
  | cons item rest ih =>
    rw [List.pairwise_cons] at apart
    have kept := keeps item (List.mem_cons_self ..) tree holds
    rw [List.map_cons, each, List.map_cons,
      ih (fun other member => keeps other (List.mem_cons_of_mem _ member)) apart.2 kept]
    refine congrArg _ (List.map_congr_left ?_)
    exact fun other member => (apart.1 other member tree holds).otherResult

/-- Changes that are pairwise apart leave the same tree in every order. -/
theorem tree_each_perm {order : List Item} (perm : order.Perm items)
    (keeps : ∀ item ∈ items, (make item).Keeps Holds)
    (apart : items.Pairwise fun item next =>
      ∀ tree, Holds tree → (make item).Apart (make next) tree)
    (holds : Holds tree) :
    (each (order.map make) tree).2 = (each (items.map make) tree).2 := by
  induction perm generalizing tree with
  | nil => rfl
  | cons item perm ih =>
    rw [List.pairwise_cons] at apart
    apply ih
    · exact fun other member => keeps other (List.mem_cons_of_mem _ member)
    · exact apart.2
    · exact keeps item (List.mem_cons_self ..) tree holds
  | swap item next rest =>
    rw [List.pairwise_cons] at apart
    have swapped := (apart.1 next (List.mem_cons_self ..) tree holds).tree
    simp only [List.map_cons, each, swapped]
  | trans first second firstIh secondIh =>
    refine (firstIh ?_ ?_ holds).trans (secondIh keeps apart holds)
    · exact fun item member => keeps item (second.mem_iff.mp member)
    · refine (second.pairwise_iff ?_).mpr apart
      exact fun apart tree holds => (apart tree holds).symm

end

end Change
end Lectern
