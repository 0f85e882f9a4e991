import Lectern.Config.Basic
import Lectern.Deck.Parser
import Lectern.Files.Path
import Lectern.Language.Basic
import Lectern.Session.Failure

/-!
# Outputs of a deck

A deck whose slides share one language has one output, and a deck in several languages has one
per language, or only the requested one. Every slide has to say its language. An output is named
for the deck file, its language and the configured suffix and extension.
-/

namespace Lectern

/-- The language tag of an element; an empty tag is none. -/
def Element.languageTag? (element : Element) : Option Text :=
  (element.param? "lang").filter (· ≠ [])

/-- The slides of a document, each with its scene title and its position in the scene. -/
def Document.placedSlides (document : Document) : List (Text × Nat × Element) :=
  document.scenes.flatMap fun scene =>
    ((scene.elements.zipIdx 1).filter fun (element, _) => element.isSlide).map
      fun (element, position) => (scene.title, position, element)

/-- The distinct tags in rising order. -/
def distinctTags (tags : List Text) : List Text :=
  (OrderedMap.ofList (tags.map fun tag => (tag, ()))).keys

/-- The language tags of a document in rising order; the first slide without one is an error. -/
def Document.languages (document : Document) : Except DeckError (List Text) :=
  match document.placedSlides.find? fun (_, _, slide) => slide.languageTag? = none with
  | some (scene, position, _) => .error (.missingLanguage scene position)
  | none =>
    .ok (distinctTags (document.placedSlides.filterMap fun (_, _, slide) => slide.languageTag?))

/-- A rendered deck in one language, or in whatever languages it has. -/
structure Output where
  language : Option Text
  lines : List Text
  deriving DecidableEq

/-- The LaTeX text of an output. -/
def Output.latex (output : Output) : Text := Text.joinLines output.lines

/-- Settings that can be used, and the language that was asked for. -/
structure Publisher where
  config : Config
  language : Option Text

namespace Publisher

/-- A publisher for a configuration without unusable values. -/
def ofConfig (config : Config) (language : Option Text) : Except Failure Publisher :=
  match config.validate with
  | .ok () => .ok ⟨config, language⟩
  | .error invalid => .error (.config none (.invalid invalid))

/-- The languages to render a deck with these tags in. -/
def targets (publisher : Publisher) (tags : List Text) : Except RenderError (List (Option Text)) :=
  match publisher.language with
  | some requested =>
    match Language.resolve? requested tags with
    | some tag => .ok [some tag]
    | none => .error (.languageNotFound requested tags)
  | none => .ok (if 1 < tags.length then tags.map some else [none])

/-- The outputs of a document. -/
def render (publisher : Publisher) (document : Document) : Except RenderError (List Output) :=
  match document.languages with
  | .error error => .error (.deck error)
  | .ok tags =>
    (publisher.targets tags).map fun targets =>
      targets.map fun language =>
        ⟨language, Latex.renderDocument publisher.config.latex language document⟩

/-- The name of an output file. -/
def outputName (input : Path) (language : Option Text) (suffix extension : Text) : Text :=
  Path.stem input ++ language.elim [] ('_' :: ·) ++ suffix ++ ['.']
    ++ extension.dropWhile (· = '.')

/-- The folder for the outputs of a deck file. -/
def outputFolder (publisher : Publisher) (input : Path) : Path :=
  publisher.config.output.directory.getD ((Path.parent? input).getD [])

/-- The path of an output of a deck file. -/
def outputPath (publisher : Publisher) (input : Path) (language : Option Text) : Path :=
  Path.join (publisher.outputFolder input)
    (outputName input language publisher.config.output.suffix publisher.config.output.extension)

end Publisher
end Lectern
