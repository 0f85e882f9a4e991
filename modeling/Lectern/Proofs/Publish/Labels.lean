import Lectern.Proofs.Publish.FoundDecks

/-!
# Outputs of different decks

An output is told from the others in its folder by its label, the stem of the deck file and the
language tag: the suffix and the extension are the same for all (`place_eq_iff`). Where no two decks
share an output and nothing is in the places of outputs, the decks are independent
(`independent_of_vacant`).
-/

namespace Lectern.Publisher

open Machine

/-- Outputs of different decks have different places, and none has the place of a deck. -/
structure Independent (publisher : Publisher) (tree : FileTree) (decks : List Path) : Prop where
  outputs : ∀ deck ∈ decks, ∀ other ∈ decks, deck ≠ other →
    ∀ output, publisher.HasOutput tree deck output → ∀ next, publisher.HasOutput tree other next →
      tree.destination (publisher.outputPath deck output.language) ≠
        tree.destination (publisher.outputPath other next.language)
  decks : ∀ deck ∈ decks, ∀ output, publisher.HasOutput tree deck output → ∀ other ∈ decks,
    tree.destination (publisher.outputPath deck output.language) ≠ tree.destination other

/-- Two decks have outputs that lead to the same place. -/
def SharesOutput (publisher : Publisher) (tree : FileTree) (deck other : Path) : Prop :=
  ∃ output, publisher.HasOutput tree deck output ∧
    ∃ next, publisher.HasOutput tree other next ∧
      tree.destination (publisher.outputPath deck output.language) =
        tree.destination (publisher.outputPath other next.language)

/-- What tells the outputs in a folder apart: the stem of the deck file and the language tag. -/
def label (deck : Path) (language : Option Text) : Text :=
  Path.stem deck ++ language.elim [] ('_' :: ·)

theorem nameFor_eq_iff (publisher : Publisher) {deck other : Path} {language next : Option Text} :
    publisher.nameFor deck language = publisher.nameFor other next ↔
      label deck language = label other next := by
  rw [nameFor, nameFor, outputName, outputName, List.append_left_inj, List.append_left_inj,
    List.append_left_inj]
  rfl

section

variable {publisher : Publisher} {start : FileTree} {decks : List Path}
  (family : Parcel.Family (publisher.parcels start decks) start)
include family

theorem place_of_hasOutput {deck : Path} (member : deck ∈ decks) {output : Output}
    (hasOutput : publisher.HasOutput start deck output) :
    (publisher.parcel deck output).place start =
      start.destination (publisher.outputPath deck output.language) :=
  place_parcel (family.names _ (mem_parcels.mpr ⟨deck, member, output, hasOutput, rfl⟩)) start

/-- Outputs of decks lead to the same place exactly if they have the same label in the same
folder. -/
theorem place_eq_iff {deck other : Path} (member : deck ∈ decks) (memberOther : other ∈ decks)
    {output next : Output} (hasOutput : publisher.HasOutput start deck output)
    (hasNext : publisher.HasOutput start other next) :
    start.destination (publisher.outputPath deck output.language) =
        start.destination (publisher.outputPath other next.language) ↔
      start.destination (publisher.outputFolder deck) =
          start.destination (publisher.outputFolder other) ∧
        label deck output.language = label other next.language := by
  rw [← place_of_hasOutput family member hasOutput, ← place_of_hasOutput family memberOther hasNext,
    Parcel.place, Parcel.place, ← nameFor_eq_iff publisher]
  constructor
  · intro same
    obtain ⟨sameFolder, sameName⟩ := List.append_inj' same rfl
    exact ⟨sameFolder, (List.cons.inj sameName).1⟩
  · rintro ⟨sameFolder, sameName⟩
    exact congrArg₂ (fun lead name => lead ++ [name]) sameFolder sameName

end

/-- Where the configured extension has no dot inside, an output is a deck exactly if this is the
extension of decks. -/
theorem isDeck_outputPath {publisher : Publisher} {start : FileTree} {decks : List Path}
    (family : Parcel.Family (publisher.parcels start decks) start)
    (suffix : publisher.config.output.suffix ≠ [])
    (noDot : '.' ∉ publisher.config.output.extension.dropWhile (· = '.')) {deck : Path}
    (member : deck ∈ decks) {output : Output} (hasOutput : publisher.HasOutput start deck output) :
    (publisher.outputPath deck output.language).isDeck =
      Text.equalIgnoringCase (publisher.config.output.extension.dropWhile (· = '.'))
        deckExtension := by
  have isName := family.names _ (mem_parcels.mpr ⟨deck, member, output, hasOutput, rfl⟩)
  have shape : (publisher.parcel deck output).name =
      (Path.stem deck ++ output.language.elim [] ('_' :: ·) ++ publisher.config.output.suffix) ++
        '.' :: publisher.config.output.extension.dropWhile (· = '.') := by
    rw [parcel, nameFor, outputName, List.append_assoc _ ['.'], List.singleton_append]
  rw [shape] at isName
  rw [outputPath_eq, show publisher.nameFor deck output.language = _ from shape]
  exact Path.isDeck_join_dot _ isName (List.append_ne_nil_of_right_ne_nil _ suffix) noDot

/-- Decks that share no output are independent where nothing is in the places of outputs. -/
theorem independent_of_vacant {publisher : Publisher} {start : FileTree} {decks : List Path}
    (found : ∀ deck ∈ decks, ∃ location, start.LeadsToFile deck location)
    (vacant : ∀ deck ∈ decks, ∀ output, publisher.HasOutput start deck output →
      start.entry? (start.destination (publisher.outputPath deck output.language)) = none)
    (separate : ∀ deck ∈ decks, ∀ other ∈ decks, deck ≠ other →
      ¬ publisher.SharesOutput start deck other) :
    publisher.Independent start decks := by
  refine ⟨?_, ?_⟩
  · intro deck member other memberOther differs output hasOutput next hasNext same
    exact separate deck member other memberOther differs ⟨output, hasOutput, next, hasNext, same⟩
  · intro deck member output hasOutput other memberOther same
    obtain ⟨location, followed, bytes, there⟩ := found other memberOther
    have nothing := vacant deck member output hasOutput
    rw [same, FileTree.destination_of_follow followed, there] at nothing
    cases nothing

/-! ## A folder of lectures -/

/-- A deck in one language, a deck without languages and, further down, a deck in two. -/
def lectures : FileTree where
  entries := ⟨[
    ([("decks" : Text)], .folder),
    ([("decks" : Text), ("a.vmd" : Text)],
      .file (Text.toBytes "# Scene: A\n## Slide(lang=\"EN\")")),
    ([("decks" : Text), ("b.vmd" : Text)], .file (Text.toBytes "# Scene: B\n## Slide")),
    ([("decks" : Text), ("more" : Text)], .folder),
    ([("decks" : Text), ("more" : Text), ("c.vmd" : Text)],
      .file (Text.toBytes "# Scene: C\n## Slide(lang=\"DE\")\n## Slide(lang=\"EN\")"))],
    by decide⟩
  working := []

/-- The decks of the lectures. -/
def lectureDecks : List Path := ["decks/a.vmd", "decks/b.vmd", "decks/more/c.vmd"]

/-- A configuration with a folder for all outputs. -/
def intoBuild : Config :=
  { Config.standard with
    output := { Config.standard.output with directory := some ("build" : Text) } }

/-- The publisher of the lectures. -/
def lecturer : Publisher := ⟨intoBuild, none⟩

theorem made_lecturer : ofConfig intoBuild none = .ok lecturer := rfl

theorem regular_lectures : lectures.Regular := by
  apply FileTree.regular_of_entries
  simp only [lectures, List.forall_mem_cons]
  exact ⟨⟨rfl, by decide⟩, ⟨rfl, by decide⟩, ⟨rfl, by decide⟩, ⟨rfl, by decide⟩,
    ⟨rfl, by decide⟩, nofun⟩

theorem found_lectures :
    ((fresh lectures).run (findDecks "decks")).1 = .ok lectureDecks := rfl

theorem slashFree_lectures :
    ∀ deck ∈ lectureDecks, lecturer.SlashFree lectures deck := by
  simp only [lectureDecks, List.forall_mem_cons]
  refine ⟨?_, ?_, ?_, nofun⟩
  · exact slashFree_of_source (by decide) (by decide) rfl (by decide)
  · exact slashFree_of_source (by decide) (by decide) rfl (by decide)
  · exact slashFree_of_source (by decide) (by decide) rfl (by decide)

/-- The outputs of the lectures stand in a folder that is not there yet. -/
theorem destination_lectures {deck : Path} (member : deck ∈ lectureDecks) {output : Output}
    (hasOutput : lecturer.HasOutput lectures deck output) :
    lectures.destination (lecturer.outputPath deck output.language) =
      [("build" : Text), lecturer.nameFor deck output.language] := by
  have family := family_parcels made_lecturer regular_lectures.closed slashFree_lectures
  exact (place_of_hasOutput family member hasOutput).symm

theorem vacant_lectures : ∀ deck ∈ lectureDecks, ∀ output,
    lecturer.HasOutput lectures deck output →
      lectures.entry? (lectures.destination
        (lecturer.outputPath deck output.language)) = none := by
  intro deck member output hasOutput
  rw [destination_lectures member hasOutput, Option.eq_none_iff_forall_ne_some]
  intro entry there
  cases regular_lectures.closed _ _ there

theorem separate_lectures : ∀ deck ∈ lectureDecks, ∀ other ∈ lectureDecks, deck ≠ other →
    ¬ lecturer.SharesOutput lectures deck other := by
  intro deck member other memberOther differs ⟨output, hasOutput, next, hasNext, same⟩
  have family := family_parcels made_lecturer regular_lectures.closed slashFree_lectures
  have labels := ((place_eq_iff family member memberOther hasOutput hasNext).mp same).2
  have stems : ∀ deck ∈ lectureDecks, ∀ other ∈ lectureDecks, deck ≠ other →
      deck.stem.head? ≠ other.stem.head? ∧ deck.stem.head?.isSome ∧ other.stem.head?.isSome := by
    decide
  obtain ⟨apart, first, second⟩ := stems deck member other memberOther differs
  have heads := congrArg List.head? labels
  rw [label, label, List.head?_append, List.head?_append,
    Option.or_of_isSome first, Option.or_of_isSome second] at heads
  exact apart heads

end Lectern.Publisher
