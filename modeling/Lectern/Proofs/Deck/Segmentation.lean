import Lectern.Deck.Parser
import Lectern.Proofs.Segment
import Lectern.Proofs.Text.Lines
import Lectern.Proofs.Text.Occurrence

/-!
# Decks as segmented lines

Reading cuts the whole text at scene markers and runs over the lines of every piece.
`parseScenes_eq_marked` says that this comes to cutting the list of lines twice, and
`parseScenes_eq_scenesByLine` describes the result by the positions of marker and header lines.
-/

namespace Lectern

/-- The title that a line gives to a scene; `none` for a line that is no scene marker. -/
def Scene.title? (line : Text) : Option Text :=
  if mark <+: line then some (Text.trim (line.drop mark.length)) else none

/-- The elements of a scene by the positions of its header lines. The content of an element is all
between its header line and the next one, without returns at line ends. -/
def Scene.elementsByLine (lines : List Text) : List Element :=
  (Segment.byPosition ElementHeader.ofLine? lines).map fun (header, content) =>
    ⟨header.typeName, header.params, Text.trim (Text.joinLines (content.map Text.dropReturn))⟩

/-- The scenes of a deck by the positions of its marker lines, where lines are the parts between
line feeds. -/
def Document.scenesByLine (source : Text) : List Scene :=
  (Segment.byPosition Scene.title? (source.splitOn '\n')).map fun (title, lines) =>
    ⟨title, Scene.elementsByLine lines⟩

/-- The return at the end of a line does not matter to an element header. -/
@[simp] theorem ElementHeader.ofLine?_dropReturn (line : Text) :
    ofLine? (Text.dropReturn line) = ofLine? line := by
  rw [ofLine?, ofLine?, Text.trim_dropReturn]

namespace Scene

/-- The element of a header and the lines behind it. -/
def elementOf (segment : ElementHeader × List Text) : Element :=
  ⟨segment.1.typeName, segment.1.params, Text.trim (Text.joinLines segment.2)⟩

/-- The position behind lines that are no headers. -/
def Position.extend : Position → List Text → Position
  | .outside, _ => .outside
  | .inside header content, lines => .inside header (content ++ lines)

/-! ## Reading against segments -/

/-- From any position, reading completes the open element and gives one element per segment. -/
theorem elementsFrom_eq_split (position : Position) (lines : List Text) :
    elementsFrom position lines =
      (position.extend (Segment.split ElementHeader.ofLine? lines).1).finish ++
        (Segment.split ElementHeader.ofLine? lines).2.map elementOf := by
  induction lines generalizing position with
  | nil => cases position <;> simp [elementsFrom, Segment.split, Position.extend]
  | cons line rest ih =>
    rw [elementsFrom, ih]
    cases reading : ElementHeader.ofLine? line with
    | some header =>
      rw [Segment.split_cons_of_some reading]
      cases position <;>
        simp [Position.read, reading, Position.extend, Position.finish, elementOf]
    | none =>
      rw [Segment.split_cons_of_none reading]
      cases position <;> simp [Position.read, reading, Position.extend]

/-- The elements of a scene are the segments of its lines at header lines. -/
theorem parseElements_eq_marked (lines : List Text) :
    parseElements lines = (Segment.marked ElementHeader.ofLine? lines).map elementOf := by
  rw [parseElements, elementsFrom_eq_split]
  rfl

/-- Without the returns at line ends, the elements of a scene are those that the positions of its
header lines describe. -/
theorem parseElements_map_dropReturn (lines : List Text) :
    parseElements (lines.map Text.dropReturn) = elementsByLine lines := by
  have cut := Segment.split_map ElementHeader.ofLine?_dropReturn lines
  rw [parseElements_eq_marked, Segment.marked, cut, elementsByLine,
    ← Segment.marked_eq_byPosition, Segment.marked, List.map_map]
  rfl

/-! ## Ends of the text -/

/-- A last empty line changes no element. -/
theorem elementsFrom_concat_nil (position : Position) (lines : List Text) :
    elementsFrom position (lines ++ [[]]) = elementsFrom position lines := by
  induction lines generalizing position with
  | nil =>
    cases position with
    | outside => rfl
    | inside header content =>
      have noHeader : ElementHeader.ofLine? [] = none := rfl
      simp [elementsFrom, Position.read, noHeader, Position.finish, Text.trim_joinLines_concat_nil]
  | cons line rest ih => rw [List.cons_append, elementsFrom, elementsFrom, ih]

/-- The return at the end of the last line changes no element. -/
theorem elementsFrom_concat_dropReturn (position : Position) (lines : List Text) (line : Text) :
    elementsFrom position (lines ++ [Text.dropReturn line]) =
      elementsFrom position (lines ++ [line]) := by
  induction lines generalizing position with
  | nil =>
    cases reading : ElementHeader.ofLine? line with
    | some header => simp [elementsFrom, Position.read, reading]
    | none =>
      cases position with
      | outside => simp [elementsFrom, Position.read, reading]
      | inside header content =>
        simp [elementsFrom, Position.read, reading, Position.finish,
          Text.trim_joinLines_concat_dropReturn]
  | cons first rest ih =>
    rw [List.cons_append, List.cons_append, elementsFrom, elementsFrom, ih]

/-! ## Pieces against segments -/

/-- A text reads like some lines if it gives the same elements from every position. -/
def ReadsLike (text : Text) (lines : List Text) : Prop :=
  ∀ position, elementsFrom position (Text.lines text) =
    elementsFrom position (lines.map Text.dropReturn)

theorem readsLike_line {line : Text} (noFeed : '\n' ∉ line) : ReadsLike line [line] := by
  intro position
  rw [Text.lines_of_noFeed noFeed]
  split
  · rename_i empty
    subst empty
    exact (elementsFrom_concat_nil position []).symm
  · exact (elementsFrom_concat_dropReturn position [] line).symm

theorem ReadsLike.cons {line rest : Text} {lines : List Text} (like : ReadsLike rest lines)
    (noFeed : '\n' ∉ line) : ReadsLike (line ++ '\n' :: rest) (line :: lines) := by
  intro position
  rw [Text.lines_append_newline noFeed, List.map_cons, elementsFrom, elementsFrom, like]

theorem readsLike_ofLines {lines : List Text} (noFeed : ∀ line ∈ lines, '\n' ∉ line) :
    ReadsLike (Text.ofLines lines) lines := by
  intro position
  have read := Text.lines_ofLines_append noFeed []
  rw [List.append_nil] at read
  rw [read, Text.lines, List.append_nil]

theorem noFeed_mark : '\n' ∉ mark := by decide

/-- No marker stands inside a line. -/
theorem pieces_inLine {line : Text} (noFeed : '\n' ∉ line) (rest : Text) :
    pieces (line ++ '\n' :: rest) false =
      (line ++ '\n' :: (pieces rest true).1, (pieces rest true).2) := by
  induction line with
  | nil => simp [pieces]
  | cons c line ih =>
    have differs : c ≠ '\n' := fun same => noFeed (by simp [same])
    have noFeedBehind : '\n' ∉ line := fun member => noFeed (by simp [member])
    simp [pieces, differs, ih noFeedBehind]

/-- A line of its own falls to the part before the first piece, or is a piece. -/
theorem pieces_line {line : Text} (noFeed : '\n' ∉ line) :
    pieces line false = (line, []) ∧
      pieces line true = if mark <+: line then ([], [line]) else (line, []) := by
  induction line with
  | nil => exact ⟨rfl, rfl⟩
  | cons c line ih =>
    have differs : c ≠ '\n' := fun same => noFeed (by simp [same])
    have noFeedBehind : '\n' ∉ line := fun member => noFeed (by simp [member])
    have inLine := (ih noFeedBehind).1
    constructor
    · simp [pieces, differs, inLine]
    · simp [pieces, differs, inLine]

/-- A line at a line start opens a piece, or joins what is before the next piece. -/
theorem pieces_lineStart {line : Text} (noFeed : '\n' ∉ line) (rest : Text) :
    pieces (line ++ '\n' :: rest) true =
      if mark <+: line then
        ([], (line ++ '\n' :: (pieces rest true).1) :: (pieces rest true).2)
      else (line ++ '\n' :: (pieces rest true).1, (pieces rest true).2) := by
  have sameMark := Text.prefix_append_cons_iff noFeed_mark line rest
  cases line with
  | nil =>
    rw [List.nil_append] at sameMark
    have notEmpty : ¬ mark <+: [] := by decide
    simp only [List.nil_append, pieces, decide_true, Bool.true_and, List.isPrefixOf_iff_prefix,
      sameMark, if_neg notEmpty]
  | cons c line =>
    have differs : c ≠ '\n' := fun same => noFeed (by simp [same])
    have noFeedBehind : '\n' ∉ line := fun member => noFeed (by simp [member])
    have inLine := pieces_inLine noFeedBehind rest
    rw [List.cons_append] at sameMark
    simp only [List.cons_append, pieces, decide_eq_false differs, inLine, Bool.true_and,
      List.isPrefixOf_iff_prefix, sameMark]

/-- Lines that are no markers stay before the next piece. -/
theorem pieces_ofLines {lines : List Text} (noFeed : ∀ line ∈ lines, '\n' ∉ line)
    (unmarked : ∀ line ∈ lines, ¬ mark <+: line) (rest : Text) :
    pieces (Text.ofLines lines ++ rest) true =
      (Text.ofLines lines ++ (pieces rest true).1, (pieces rest true).2) := by
  induction lines with
  | nil => rfl
  | cons line more ih =>
    have behind := ih (fun other member => noFeed other (by simp [member]))
      (fun other member => unmarked other (by simp [member]))
    rw [Text.ofLines_cons, List.append_assoc, List.cons_append,
      pieces_lineStart (noFeed line (by simp)), if_neg (unmarked line (by simp)), behind,
      List.append_assoc, List.cons_append]

/-- The scene of a piece, by the lines that the piece reads like. -/
theorem ofPiece_append {line rest : Text} {lines : List Text} (isMarker : mark <+: line)
    (noFeed : '\n' ∉ line) (like : ReadsLike rest lines) :
    ofPiece (line ++ '\n' :: rest) =
      ⟨Text.trim (line.drop mark.length), parseElements (lines.map Text.dropReturn)⟩ := by
  obtain ⟨title, rfl⟩ := isMarker
  have noFeedTitle : ∀ c ∈ title, (decide (c ≠ '\n')) = true := by
    intro c member
    have differs : c ≠ '\n' := fun same => noFeed (by simp [same ▸ member])
    simpa using differs
  have behind : (mark ++ title ++ '\n' :: rest).drop mark.length = title ++ '\n' :: rest := by
    simp
  have read : elementsFrom .outside (Text.lines ('\n' :: rest)) =
      elementsFrom .outside (Text.lines rest) := rfl
  rw [ofPiece, pieceLines, behind, List.takeWhile_append_of_pos noFeedTitle,
    List.dropWhile_append_of_pos noFeedTitle]
  simp [parseElements, read, like .outside]

theorem ofPiece_line {line : Text} (isMarker : mark <+: line) (noFeed : '\n' ∉ line) :
    ofPiece line = ⟨Text.trim (line.drop mark.length), []⟩ := by
  obtain ⟨title, rfl⟩ := isMarker
  have noFeedTitle : ∀ c ∈ title, (decide (c ≠ '\n')) = true := by
    intro c member
    have differs : c ≠ '\n' := fun same => noFeed (by simp [same ▸ member])
    simpa using differs
  have behind : (mark ++ title).drop mark.length = title := by simp
  have noLines : title.dropWhile (fun c => decide (c ≠ '\n')) = [] :=
    List.dropWhile_eq_nil_iff.mpr noFeedTitle
  rw [ofPiece, pieceLines, behind, noLines, List.takeWhile_eq_self_iff.mpr noFeedTitle]
  rfl

/-- The scene of a segment of lines. -/
def ofSegment (segment : Text × List Text) : Scene :=
  ⟨segment.1, parseElements (segment.2.map Text.dropReturn)⟩

/-- Cutting joined lines at scene markers gives pieces that read like the segments of the lines. -/
theorem pieces_joinLines {lines : List Text} (nonempty : lines ≠ [])
    (noFeed : ∀ line ∈ lines, '\n' ∉ line) :
    ReadsLike (pieces (Text.joinLines lines) true).1 (Segment.split title? lines).1 ∧
      (pieces (Text.joinLines lines) true).2.map ofPiece =
        (Segment.split title? lines).2.map ofSegment := by
  induction lines with
  | nil => exact absurd rfl nonempty
  | cons line lines ih =>
    have noFeedHere : '\n' ∉ line := noFeed line (by simp)
    have noFeedBehind : ∀ other ∈ lines, '\n' ∉ other :=
      fun other member => noFeed other (by simp [member])
    by_cases isMarker : mark <+: line
    · have reading : title? line = some (Text.trim (line.drop mark.length)) := if_pos isMarker
      rw [Segment.split_cons_of_some reading]
      by_cases last : lines = []
      · subst last
        rw [show Text.joinLines [line] = line by simp [Text.joinLines],
          (pieces_line noFeedHere).2, if_pos isMarker]
        exact ⟨fun _ => rfl, by simp [ofPiece_line isMarker noFeedHere, ofSegment, Segment.split,
          parseElements, elementsFrom, Position.finish]⟩
      · obtain ⟨like, scenes⟩ := ih last noFeedBehind
        rw [Text.joinLines_cons last, pieces_lineStart noFeedHere, if_pos isMarker]
        refine ⟨fun _ => rfl, ?_⟩
        rw [List.map_cons, List.map_cons, scenes, ofPiece_append isMarker noFeedHere like]
        rfl
    · have reading : title? line = none := if_neg isMarker
      rw [Segment.split_cons_of_none reading]
      by_cases last : lines = []
      · subst last
        rw [show Text.joinLines [line] = line by simp [Text.joinLines],
          (pieces_line noFeedHere).2, if_neg isMarker]
        exact ⟨readsLike_line noFeedHere, rfl⟩
      · obtain ⟨like, scenes⟩ := ih last noFeedBehind
        rw [Text.joinLines_cons last, pieces_lineStart noFeedHere, if_neg isMarker]
        exact ⟨like.cons noFeedHere, scenes⟩

end Scene

namespace Document

/-- The scenes of a deck are the segments of its lines at marker lines. -/
theorem parseScenes_eq_marked (source : Text) :
    parseScenes source =
      (Segment.marked Scene.title? (source.splitOn '\n')).map Scene.ofSegment := by
  have joined : Text.joinLines (source.splitOn '\n') = source := List.intercalate_splitOn '\n'
  have scenes := (Scene.pieces_joinLines (List.splitOn_ne_nil '\n' source)
    (fun _ => Text.absent_of_mem_splitOn)).2
  rw [joined] at scenes
  exact scenes

/-- Reading the scenes of a deck is segmentation of its lines: one scene per marker line and one
element per header line of the scene, in order, with all lines in between as content. -/
theorem parseScenes_eq_scenesByLine (source : Text) :
    parseScenes source = scenesByLine source := by
  rw [parseScenes_eq_marked, Segment.marked_eq_byPosition, scenesByLine]
  apply List.map_congr_left
  rintro ⟨title, lines⟩ -
  rw [Scene.ofSegment, Scene.parseElements_map_dropReturn]

end Document
end Lectern
