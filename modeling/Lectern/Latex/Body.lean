import Lectern.Deck.BodyLine
import Lectern.Latex.Inline

/-!
# Slide content

The lines of a slide or of one of its columns, rendered one after another. Neighbouring bullets
share a list: the first opens it, and the next line that renders to something else, or the end,
closes it. Lines that render to nothing leave an open list open.
-/

namespace Lectern.Latex

/-- Whether a list is open. -/
inductive ListState where
  | outside
  | inside
  deriving DecidableEq

/-- The box that stands for a piece of code. -/
def codePlaceholder (indent : Text) : List Text :=
  [indent ++ opening "center",
    indent ++ "  " ++ command "colorbox" "gray!20" ++ "\x7b" ++ opening "minipage"
      ++ braced "0.9\\textwidth",
    indent ++ "    " ++ command "vspace" "1em",
    indent ++ "    \\centering",
    indent ++ "    " ++ command "textbf" "Code-Snippet not implemented",
    indent ++ "    " ++ command "vspace" "1em",
    indent ++ "  " ++ closing "minipage" ++ "\x7d",
    indent ++ closing "center"]

/-- A centered image. -/
def imageBlock (indent source : Text) : List Text :=
  [indent ++ opening "center",
    indent ++ "  \\includegraphics[width=0.7\\textwidth]" ++ braced source,
    indent ++ closing "center"]

/-- The line that opens a list unless one is open. -/
def openList (indent : Text) : ListState → List Text
  | .outside => [indent ++ opening "itemize"]
  | .inside => []

/-- The line that closes a list if one is open. -/
def closeList (indent : Text) : ListState → List Text
  | .outside => []
  | .inside => [indent ++ closing "itemize"]

/-- A line of running text; a blank one becomes a gap. -/
def plainLine (indent line : Text) : Text :=
  let formatted := formatInline line
  indent ++ if Text.isBlankText formatted then command "vspace" "1em" else formatted

/-- The list state behind a content line and the lines it adds to the output. -/
def renderLine (indent : Text) (state : ListState) (line : Text) : ListState × List Text :=
  match BodyLine.classify line with
  | .column _ | .button | .image none => (state, [])
  | .code => (.outside, closeList indent state ++ codePlaceholder indent)
  | .image (some source) => (.outside, closeList indent state ++ imageBlock indent source)
  | .bullet text =>
    (.inside, openList indent state ++ [indent ++ "  \\item " ++ formatInline text])
  | .plain => (.outside, closeList indent state ++ [plainLine indent line])

/-- The output for content lines from a list state on, closed at the end. -/
def renderLinesFrom (indent : Text) (state : ListState) : List Text → List Text
  | [] => closeList indent state
  | line :: rest =>
    (renderLine indent state line).2
      ++ renderLinesFrom indent (renderLine indent state line).1 rest

/-- The output for content lines. -/
def renderLines (indent : Text) (lines : List Text) : List Text :=
  renderLinesFrom indent .outside lines

end Lectern.Latex
