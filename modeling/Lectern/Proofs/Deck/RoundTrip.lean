import Lectern.Proofs.Deck.ElementReading
import Lectern.Proofs.Deck.HeaderReading

/-!
# Reading what was written

Every document that a deck can hold has a source, and each of its sources is read as the document:
in any order of parameters, with or without an empty list, and with quotes, equals signs and
parentheses wherever `Document.Writable` allows them.
-/

namespace Lectern

/-! ## Scenes -/

/-- Lines that a scene reads as these elements. -/
structure Scene.LinesOf (elements : List Element) (lines : List Text) : Prop where
  noFeed : ∀ line ∈ lines, '\n' ∉ line
  unmarked : ∀ line ∈ lines, ¬ mark <+: line
  segments : ∃ segments, segments.map elementOf = elements ∧
    Segment.split ElementHeader.ofLine? (lines.map Text.dropReturn) = ([], segments)

namespace Scene

/-- Written elements are lines that read as these elements. -/
theorem exists_linesOf {elements : List Element} {texts : List Text}
    (sources : List.Forall₂ Element.Source elements texts)
    (writable : ∀ element ∈ elements, element.Writable) :
    ∃ lines, texts.flatten = Text.ofLines lines ∧ LinesOf elements lines := by
  induction sources with
  | nil => exact ⟨[], rfl, by simp, by simp, [], rfl, rfl⟩
  | @cons element text elements texts source sources ih =>
    have writableHere := writable element (by simp)
    obtain ⟨lines, written, behind⟩ := ih fun other member => writable other (by simp [member])
    obtain ⟨segments, elementsBehind, cut⟩ := behind.segments
    cases source with
    | @written list params =>
      obtain ⟨segment, read, cutHere⟩ := element.split_linesWith writableHere params cut
      refine ⟨element.linesWith list ++ lines, ?_, ?_, ?_, segment :: segments, ?_, ?_⟩
      · rw [List.flatten_cons, written, Text.ofLines_append, Element.ofLines_linesWith]
      · rintro line member
        rcases List.mem_append.mp member with here | later
        · exact Element.noFeed_linesWith writableHere params line here
        · exact behind.noFeed line later
      · rintro line member
        rcases List.mem_append.mp member with here | later
        · exact Element.unmarked_linesWith writableHere list line here
        · exact behind.unmarked line later
      · rw [List.map_cons, read, elementsBehind]
      · rw [List.map_append, cutHere]

theorem LinesOf.parseElements {elements : List Element} {lines : List Text}
    (written : LinesOf elements lines) :
    Scene.parseElements (lines.map Text.dropReturn) = elements := by
  obtain ⟨segments, read, cut⟩ := written.segments
  rw [parseElements_eq_marked, Segment.marked, cut, read]

/-- Written scenes are cut into pieces that read as these scenes. -/
theorem pieces_sources {scenes : List Scene} {texts : List Text}
    (sources : List.Forall₂ Scene.Source scenes texts)
    (writable : ∀ scene ∈ scenes, scene.Writable) :
    (pieces texts.flatten true).1 = [] ∧ (pieces texts.flatten true).2.map ofPiece = scenes := by
  induction sources with
  | nil => exact ⟨rfl, rfl⟩
  | @cons scene text scenes texts source sources ih =>
    have writableHere := writable scene (by simp)
    obtain ⟨noLead, read⟩ := ih fun other member => writable other (by simp [member])
    cases source with
    | @written elementTexts elements =>
      obtain ⟨lines, written, linesOf⟩ := exists_linesOf elements writableHere.elements
      have noFeed : '\n' ∉ mark ++ ' ' :: scene.title := by
        simp [noFeed_mark, writableHere.noFeed]
      have isMarker : mark <+: mark ++ ' ' :: scene.title := List.prefix_append _ _
      have text : scene.markerLine ++ "\n" ++ elementTexts.flatten ++ texts.flatten =
          (mark ++ ' ' :: scene.title) ++ '\n' :: (Text.ofLines lines ++ texts.flatten) := by
        have opened : scene.markerLine = mark ++ ' ' :: scene.title := rfl
        rw [opened, written]
        simp
      have title : Text.trim ((mark ++ ' ' :: scene.title).drop mark.length) = scene.title := by
        rw [List.drop_left, Text.trim_cons_of_blank (by decide), writableHere.trimmed]
      rw [List.flatten_cons, text, pieces_lineStart noFeed, if_pos isMarker,
        pieces_ofLines linesOf.noFeed linesOf.unmarked, noLead, List.append_nil]
      refine ⟨rfl, ?_⟩
      rw [List.map_cons, read, ofPiece_append isMarker noFeed (readsLike_ofLines linesOf.noFeed),
        title, linesOf.parseElements]

end Scene

/-! ## Documents -/

theorem exists_sources {α : Type} {source : α → Text → Prop} {items : List α}
    (each : ∀ item, ∃ text, source item text) : ∃ texts, List.Forall₂ source items texts := by
  induction items with
  | nil => exact ⟨[], .nil⟩
  | cons item items ih =>
    obtain ⟨text, here⟩ := each item
    obtain ⟨texts, behind⟩ := ih
    exact ⟨text :: texts, .cons here behind⟩

namespace Document

/-- Every document can be written. -/
theorem exists_source (document : Document) : ∃ text, document.Source text := by
  obtain ⟨texts, scenes⟩ : ∃ texts, List.Forall₂ Scene.Source document.scenes texts := by
    apply exists_sources
    intro scene
    obtain ⟨texts, elements⟩ : ∃ texts, List.Forall₂ Element.Source scene.elements texts :=
      exists_sources fun element => ⟨_, .written (.list (List.Perm.refl element.params.entries))⟩
    exact ⟨_, .written elements⟩
  exact ⟨_, .written scenes⟩

/-- Reading undoes writing: a document that a deck can hold has a source, and each of its sources is
read as the document. -/
theorem parse_source_of_writable {document : Document} (writable : document.Writable) :
    (∃ text, document.Source text) ∧ ∀ text, document.Source text → parse text = document := by
  refine ⟨document.exists_source, ?_⟩
  rintro text ⟨scenes⟩
  have read := (Scene.pieces_sources scenes writable.scenes).2
  rw [parse, Header.parse_source writable.header, parseScenes, Header.pieces_source writable.header,
    read]

/-- A slide without content whose values have quotes, equals signs, parentheses and blanks. -/
def sampleSlide : Element where
  typeName := "Slide"
  params := ⟨[("lang", "EN"), ("title", " a = \"b\" (c) ")], by decide⟩
  content := []

/-- Notes without parameters, with a line that looks like a marker but is indented. -/
def sampleNotes : Element := ⟨"Notes", .empty, "Say it.\n\n  # Scene: two"⟩

/-- A document with both. -/
def sample : Document where
  header := ⟨"On \"=\"", "A = B", []⟩
  scenes := [⟨"One (of one)", [sampleSlide, sampleNotes]⟩]

/-- A source of `sample`, with parameters out of order. -/
def sampleSource : Text :=
  "---\ntitle = \"On \"=\"\"\nauthor = \"A = B\"\nstyle = \"\"\n---\n# Scene: One (of one)\n" ++
    "## Slide(title=\" a = \"b\" (c) \", lang=\"EN\")\n\n## Notes\nSay it.\n\n  # Scene: two\n"

theorem writable_sampleSlide : sampleSlide.Writable where
  typeName := by decide
  word := List.all_eq_true.mp (by decide +kernel)
  params := by
    intro binding member
    rcases List.mem_cons.mp member with rfl | member
    · constructor <;> decide
    · obtain rfl := List.mem_singleton.mp member
      constructor <;> decide
  trimmed := rfl
  noReturn := by decide
  noMarker := by decide
  noHeader := by decide +kernel

theorem writable_sampleNotes : sampleNotes.Writable where
  typeName := by decide
  word := List.all_eq_true.mp (by decide +kernel)
  params := by
    intro binding member
    exact absurd member List.not_mem_nil
  trimmed := rfl
  noReturn := by decide
  noMarker := by decide
  noHeader := by decide +kernel

theorem writable_sample : sample.Writable where
  header := by
    constructor <;> constructor <;> decide
  scenes := by
    intro scene member
    obtain rfl := List.mem_singleton.mp member
    refine ⟨by decide, by decide, ?_⟩
    intro element inside
    rcases List.mem_pair.mp inside with rfl | rfl
    · exact writable_sampleSlide
    · exact writable_sampleNotes

theorem source_sample : sample.Source sampleSource := by
  have order : [(("title" : Text), (" a = \"b\" (c) " : Text)), ("lang", "EN")].Perm
      sampleSlide.params.entries := List.Perm.swap ..
  have slide : sampleSlide.Source _ := .written (.list order)
  have notes : sampleNotes.Source _ := .written (.absent rfl)
  have scene : Scene.Source ⟨"One (of one)", [sampleSlide, sampleNotes]⟩ _ :=
    .written (.cons slide (.cons notes .nil))
  obtain ⟨text, document, same⟩ : ∃ text, sample.Source text ∧ text = sampleSource :=
    ⟨_, .written (.cons scene .nil), by decide +kernel⟩
  rwa [same] at document

/-- The sample is read from its source, whose parameters are out of order. -/
theorem parse_sampleSource :
    sample.Writable ∧ sample.Source sampleSource ∧ parse sampleSource = sample :=
  ⟨writable_sample, source_sample,
    (parse_source_of_writable writable_sample).2 sampleSource source_sample⟩

end Document
end Lectern
