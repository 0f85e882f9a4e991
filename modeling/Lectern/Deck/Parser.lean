import Lectern.Deck.Basic
import Lectern.Deck.ElementHeader
import Lectern.Text.Lines

/-!
# Reading decks

Reading never fails: what is missing has a default, and text outside every element is dropped.
The header block and the scene markers are found on the whole text, which is cut into pieces at
the markers. The elements of a piece are read line by line.
-/

namespace Lectern

/-- The rest behind the first line that starts with three dashes, beginning right after these. -/
def Header.afterOpening? : Text → Bool → Option Text
  | [], _ => none
  | c :: rest, lineStart =>
    match lineStart, ("---" : Text).isPrefixOf? (c :: rest) with
    | true, some after => some after
    | _, _ => afterOpening? rest (c = '\n')

/-- The entries of the header block, in order: what stands between a line that starts with three
dashes and the next three dashes, wherever these are. -/
def Header.entries? (source : Text) : Option (List (Text × Text)) := do
  let (block, _) ← Text.cutAtText "---" (← afterOpening? source true)
  some ((Text.lines (Text.trim block)).filterMap Params.binding?)

/-- The header of a deck. -/
def Header.parse (source : Text) : Header := .ofEntries ((entries? source).getD [])

/-- What a scene marker starts with. -/
def Scene.mark : Text := "# Scene:"

/-- Cuts a text in front of its scene markers: the part before the first one, and one piece per
marker. Markers stand at line starts; the flag says whether the text is at one. -/
def Scene.pieces : Text → Bool → Text × List Text
  | [], _ => ([], [])
  | c :: rest, lineStart =>
    let (before, pieces) := pieces rest (c = '\n')
    if lineStart && mark.isPrefixOf (c :: rest) then ([], (c :: before) :: pieces)
    else (c :: before, pieces)

/-- The lines of a piece from the end of its marker on. -/
def Scene.pieceLines (piece : Text) : List Text :=
  Text.lines ((piece.drop mark.length).dropWhile (· ≠ '\n'))

/-- Where reading stands in a scene: before its first element, or in an element whose header and
lines so far are known. -/
inductive Scene.Position where
  | outside
  | inside (header : ElementHeader) (content : List Text)

namespace Scene.Position

/-- The element that is complete when reading stops here. -/
def finish : Position → List Element
  | outside => []
  | inside header content =>
    [⟨header.typeName, header.params, Text.trim (Text.joinLines content)⟩]

/-- The position behind a line, and the element that the line completes. Text outside every
element is dropped. -/
def read (position : Position) (line : Text) : Position × List Element :=
  match ElementHeader.ofLine? line, position with
  | some header, _ => (inside header [], position.finish)
  | none, outside => (outside, [])
  | none, inside header content => (inside header (content ++ [line]), [])

end Scene.Position

/-- The elements of the lines read from a position on. -/
def Scene.elementsFrom (position : Scene.Position) : List Text → List Element
  | [] => position.finish
  | line :: rest => (position.read line).2 ++ elementsFrom (position.read line).1 rest

/-- The elements of a scene's lines. -/
def Scene.parseElements (lines : List Text) : List Element := elementsFrom .outside lines

/-- The scene of a piece. Its title is the rest of the marker's line. -/
def Scene.ofPiece (piece : Text) : Scene where
  title := Text.trim ((piece.drop mark.length).takeWhile (· ≠ '\n'))
  elements := parseElements (pieceLines piece)

/-- The scenes of a deck. -/
def Document.parseScenes (source : Text) : List Scene :=
  (Scene.pieces source true).2.map Scene.ofPiece

/-- Reads a deck. -/
def Document.parse (source : Text) : Document := ⟨Header.parse source, parseScenes source⟩

/-- The parameter tokens of a deck that bind nothing, in order. -/
def Document.unboundTokens (source : Text) : List Text :=
  (Scene.pieces source true).2.flatMap fun piece =>
    ((Scene.pieceLines piece).filterMap ElementHeader.ofLine?).flatMap fun header =>
      Params.unboundTokens header.list

end Lectern
