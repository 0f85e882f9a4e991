import Lectern.Check.Basic
import Lectern.Latex.Document
import Lectern.Proofs.Deck.Segmentation
import Lectern.Proofs.Text.Returns

/-!
# Line endings of decks

A deck reads the same with returns in front of its line feeds. The header block is cut at dashes
and trimmed, which commutes with adding returns, and its lines then lose them. The scenes are read
from the parts between line feeds without the returns at their ends (`parseScenes_eq_scenesOf`), and
these parts are the same for both texts.
-/

namespace Lectern

namespace Header

theorem afterOpening?_inLine (c : Char) (rest : Text) :
    afterOpening? (c :: rest) false = afterOpening? rest (c = '\n') := rfl

/-- At a line start the block opens here or behind. -/
theorem afterOpening?_lineStart (c : Char) (rest : Text) :
    afterOpening? (c :: rest) true =
      (("---" : Text).isPrefixOf? (c :: rest)).or (afterOpening? rest (c = '\n')) := by
  rw [afterOpening?.eq_def]
  cases start : ("---" : Text).isPrefixOf? (c :: rest) <;> simp only [start, Option.or]

theorem afterOpening?_withReturns (source : Text) (lineStart : Bool) :
    afterOpening? (Text.withReturns source) lineStart =
      (afterOpening? source lineStart).map Text.withReturns := by
  induction source generalizing lineStart with
  | nil => rfl
  | cons c rest ih =>
    by_cases feed : c = '\n'
    · subst feed
      -- Neither a return nor a line feed starts the dashes, whatever the flag says.
      have unopened (first : Char) (differs : first ≠ '-') (more : Text) (flag : Bool) :
          afterOpening? (first :: more) flag = afterOpening? more (first = '\n') := by
        have noDash : ('-' == first) = false := by simpa using Ne.symm differs
        cases flag <;> simp [afterOpening?, List.isPrefixOf?, noDash]
      rw [Text.withReturns_feed, unopened '\r' (by decide), unopened '\n' (by decide),
        unopened '\n' (by decide), ih]
    · have noFeed : '\n' ∉ ("---" : Text) := by decide
      have dashes := Text.isPrefixOf?_withReturns noFeed (by decide) (c :: rest)
      rw [Text.withReturns_cons feed] at dashes ⊢
      cases lineStart with
      | false => rw [afterOpening?_inLine, afterOpening?_inLine, ih]
      | true =>
        rw [afterOpening?_lineStart, afterOpening?_lineStart, dashes, ih]
        cases ("---" : Text).isPrefixOf? (c :: rest) <;> rfl

theorem subset_of_afterOpening?_eq_some {source rest : Text} {lineStart : Bool}
    (opened : afterOpening? source lineStart = some rest) : rest ⊆ source := by
  induction source generalizing lineStart with
  | nil => cases opened
  | cons c more ih =>
    cases lineStart with
    | false => exact List.subset_cons_of_subset c (ih opened)
    | true =>
      rw [afterOpening?_lineStart, Option.or_eq_some_iff] at opened
      rcases opened with start | ⟨-, behind⟩
      · rw [← List.isPrefixOf?_eq_some_iff_append_eq.mp start]
        exact List.subset_append_right ..
      · exact List.subset_cons_of_subset c (ih behind)

/-- The entries of the header block do not depend on line endings. -/
theorem entries?_withReturns {source : Text} (noReturn : '\r' ∉ source) :
    entries? (Text.withReturns source) = entries? source := by
  rw [entries?, entries?, afterOpening?_withReturns]
  cases opened : afterOpening? source true with
  | none => rfl
  | some rest =>
    have inSource := subset_of_afterOpening?_eq_some opened
    have nonempty : ("---" : Text) ≠ [] := by decide
    have cut := Text.cutAtText_withReturns nonempty (by decide) (by decide) rest
    simp only [Option.map_some, Option.bind_eq_bind, Option.bind_some, cut]
    cases closed : Text.cutAtText "---" rest with
    | none => rfl
    | some parts =>
      obtain ⟨block, behind⟩ := parts
      have inRest : block ⊆ rest := by
        rw [Text.eq_of_cutAtText_eq_some closed, List.append_assoc]
        exact List.subset_append_left ..
      have noReturnInBlock : '\r' ∉ Text.trim block := fun member =>
        noReturn (inSource (inRest (Text.trim_subset block member)))
      simp [Text.trim_withReturns, Text.lines_withReturns noReturnInBlock]

end Header

/-- The return at the end of a line does not matter to a scene marker. -/
@[simp] theorem Scene.title?_dropReturn (line : Text) :
    title? (Text.dropReturn line) = title? line := by
  rcases Text.eq_dropReturn_or line with same | longer
  · rw [same]
  · have noReturn : '\r' ∉ mark := by decide
    have marked := Text.prefix_append_cons_iff noReturn (Text.dropReturn line) []
    rw [← longer] at marked
    rw [title?, title?]
    by_cases isMarker : mark <+: Text.dropReturn line
    · have behind : line.drop mark.length = (Text.dropReturn line).drop mark.length ++ ['\r'] := by
        conv_lhs => rw [longer]
        exact List.drop_append_of_le_length isMarker.length_le
      rw [if_pos isMarker, if_pos (marked.mpr isMarker), behind,
        Text.trim_concat_of_blank (by decide)]
    · rw [if_neg isMarker, if_neg (mt marked.mp isMarker)]

namespace Document

/-- The scenes of lines that have lost their ends. -/
def scenesOf (lines : List Text) : List Scene :=
  (Segment.marked Scene.title? lines).map fun (title, body) => ⟨title, Scene.parseElements body⟩

/-- The scenes of a deck are those of its parts between line feeds without returns at their ends. -/
theorem parseScenes_eq_scenesOf (source : Text) :
    parseScenes source = scenesOf ((source.splitOn '\n').map Text.dropReturn) := by
  have cut := Segment.split_map Scene.title?_dropReturn (source.splitOn '\n')
  rw [parseScenes_eq_marked, scenesOf, Segment.marked, Segment.marked, cut, List.map_map]
  rfl

/-- The scenes of a deck do not depend on line endings. -/
theorem parseScenes_withReturns {source : Text} (noReturn : '\r' ∉ source) :
    parseScenes (Text.withReturns source) = parseScenes source := by
  have noPair : ¬ ['\r', '\n'] <:+: source := fun occurs => noReturn (occurs.subset (by simp))
  have noLast : source.getLast? ≠ some '\r' := fun ends =>
    noReturn (List.mem_of_getLast? ends)
  rw [parseScenes_eq_scenesOf, parseScenes_eq_scenesOf,
    Text.map_dropReturn_splitOn_withReturns noReturn, Text.map_dropReturn_splitOn noPair noLast]

theorem parse_withReturns {source : Text} (noReturn : '\r' ∉ source) :
    parse (Text.withReturns source) = parse source := by
  rw [parse, parse, Header.parse, Header.parse, Header.entries?_withReturns noReturn,
    parseScenes_withReturns noReturn]

end Document

/-- A source text without returns and the same text with a return in front of every line feed have
the same header entries, the same document, the same report and the same output. -/
theorem sameDeck_withReturns {source : Text} (noReturn : '\r' ∉ source) :
    Header.entries? (Text.withReturns source) = Header.entries? source ∧
      Document.parse (Text.withReturns source) = Document.parse source ∧
      Check.checkSource (Text.withReturns source) = Check.checkSource source ∧
      ∀ (settings : Latex.Settings) (language : Option Text),
        Latex.render settings language (Document.parse (Text.withReturns source)) =
          Latex.render settings language (Document.parse source) := by
  have entries := Header.entries?_withReturns noReturn
  have document := Document.parse_withReturns noReturn
  refine ⟨entries, document, ?_, ?_⟩
  · rw [Check.checkSource, Check.checkSource, Check.checkDocument, Check.checkDocument, entries,
      document]
  · intro settings language
    rw [document]

/-- A deck with a header block, a slide and two bullets. -/
def feedDeck : Text :=
  "---\ntitle = \"T\"\n---\n# Scene: A\n## Slide(lang=\"EN\")\n- one\n- two"

theorem sameDeck_feedDeck :
    '\r' ∉ feedDeck ∧ Document.parse (Text.withReturns feedDeck) = Document.parse feedDeck := by
  have noReturn : '\r' ∉ feedDeck := by decide
  exact ⟨noReturn, (sameDeck_withReturns noReturn).2.1⟩

end Lectern
