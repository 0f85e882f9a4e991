import Lectern.Deck.Basic
import Lectern.Latex.Body
import Lectern.Latex.Columns

/-!
# Rendered documents

A document becomes a preamble with a title frame, then for every scene a comment and its
elements. Slides and code are frames; the other known kinds are comments, and buttons vanish. A
language filter leaves out the slides of other languages and nothing else.
-/

namespace Lectern.Latex

/-- The parts of the preamble that a configuration chooses. -/
structure Settings where
  classOptions : Text
  theme : Text
  deriving DecidableEq

/-- The usual preamble. -/
def Settings.standard : Settings := ⟨"aspectratio=169", "thwsbeamertheme"⟩

/-- The language that slides are filtered by; an empty one does not filter. -/
def activeFilter (language : Option Text) : Option Text := language.filter (· ≠ [])

/-- Preamble and title frame. -/
def renderHeader (settings : Settings) (header : Header) : List Text :=
  [comment "Generated LaTeX presentation",
    "\\documentclass[" ++ settings.classOptions ++ "]" ++ braced "beamer",
    command "usepackage" settings.theme,
    command "title" header.title,
    command "author" header.author,
    opening "document",
    opening "frame",
    "\\titlepage",
    closing "frame",
    []]

/-- A column of a slide. -/
def renderColumn (column : Column) : List Text :=
  ["  " ++ opening "column" ++ braced (textWidth column.percent)]
    ++ renderLines "    " column.lines ++ ["  " ++ closing "column"]

/-- The content of a slide in its layout. -/
def renderLayout : Layout → List Text
  | .single lines => renderLines "  " lines
  | .columns columns =>
    ["  " ++ opening "columns" ++ "[t]"] ++ columns.flatMap renderColumn
      ++ ["  " ++ closing "columns"]

/-- The start of a frame with its title. -/
def frameOpening (title : Text) : List Text :=
  [opening "frame" ++ "[fragile]", "  " ++ command "frametitle" title]

/-- The frame of a slide. -/
def renderSlide (slide : Element) : List Text :=
  frameOpening (escapeAmpersand (slide.paramOr "title" "Slide"))
    ++ ["  " ++ comment "Slide content:"]
    ++ renderLayout (.ofContent slide.content) ++ [closing "frame"]

/-- The frame of a code element. -/
def renderCode (element : Element) : List Text :=
  frameOpening ("Code: " ++ escapeAmpersand (element.paramOr "snippet" "Code"))
    ++ codePlaceholder "  " ++ [closing "frame"]

/-- The comments for an element that has no place on slides: its kind and one of its parameters. -/
def renderComment (element : Element) (label key fallback : Text) : List Text :=
  [comment (element.kind.displayName ++ " element is not rendered in LaTeX"),
    comment (label ++ ": " ++ escapeAmpersand (element.paramOr key fallback))]

/-- Whether a filter leaves an element in: only slides are ever left out. -/
def passes (filter : Option Text) (element : Element) : Bool :=
  match filter with
  | none => true
  | some language => !element.isSlide || element.param? "lang" = some language

/-- The output for an element that the filter leaves in. -/
def renderElement (element : Element) : List Text :=
  match element.kind with
  | .slide => renderSlide element
  | .teleprompt => renderComment element "Title" "title" "No title"
  | .code => renderCode element
  | .video | .screencast => renderComment element "Source" "source" "No source given"
  | .quiz => renderComment element "Name" "name" "No name"
  | .button => []
  | .unknown name => [comment ("Unknown element type: " ++ name)]

/-- The output for a scene. -/
def renderScene (filter : Option Text) (scene : Scene) : List Text :=
  [comment ("Scene: " ++ scene.title)]
    ++ (scene.elements.filter (passes filter)).flatMap renderElement ++ [[]]

/-- The output lines of a document for an optional language. -/
def renderDocument (settings : Settings) (language : Option Text) (document : Document) :
    List Text :=
  renderHeader settings document.header
    ++ document.scenes.flatMap (renderScene (activeFilter language)) ++ [closing "document"]

/-- The output text of a document. -/
def render (settings : Settings) (language : Option Text) (document : Document) : Text :=
  Text.joinLines (renderDocument settings language document)

end Lectern.Latex
