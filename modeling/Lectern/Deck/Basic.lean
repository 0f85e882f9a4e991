import Lectern.Deck.Params
import Lectern.Text.Lowercase

/-!
# Decks

A document has a header and scenes; a scene is a titled group of elements; an element has the
type word its author wrote, parameters and content. What an element is depends on its type word
alone, in any case.
-/

namespace Lectern

/-- What the header block says of the deck as a whole. -/
structure Header where
  title : Text
  author : Text
  style : Text
  deriving DecidableEq

/-- The value of the last entry with this key. -/
def Header.lastValue? (key : Text) (entries : List (Text × Text)) : Option Text :=
  (entries.reverse.find? fun entry => entry.1 = key).map Prod.snd

/-- The header of a list of entries, with a default for each key that has none. -/
def Header.ofEntries (entries : List (Text × Text)) : Header where
  title := (lastValue? "title" entries).getD "Untitled"
  author := (lastValue? "author" entries).getD "Unknown"
  style := (lastValue? "style" entries).getD []

/-- What an element is. -/
inductive ElementKind where
  | slide
  | teleprompt
  | code
  | video
  | screencast
  | quiz
  | button
  | unknown (name : Text)
  deriving DecidableEq

namespace ElementKind

/-- The kinds with a type word of their own, by the word in lower case. -/
def named : List (Text × ElementKind) :=
  [("slide", slide), ("teleprompt", teleprompt), ("code", code), ("video", video),
    ("screencast", screencast), ("quiz", quiz), ("button", button)]

/-- The kind that a type word names in any case; any other word is kept as written. -/
def ofName (name : Text) : ElementKind :=
  (named.lookup (Text.lowercase name)).getD (unknown name)

/-- The name used in generated comments and findings. -/
def displayName : ElementKind → Text
  | slide => "Slide"
  | teleprompt => "Teleprompt"
  | code => "Code"
  | video => "Video"
  | screencast => "Screencast"
  | quiz => "Quiz"
  | button => "Button"
  | unknown name => name

end ElementKind

/-- A typed block of a scene. -/
structure Element where
  typeName : Text
  params : Params
  content : Text
  deriving DecidableEq

namespace Element

/-- What the element is. -/
def kind (element : Element) : ElementKind := .ofName element.typeName

/-- The value of a parameter. -/
def param? (element : Element) (key : Text) : Option Text := element.params.get? key

/-- The value of a parameter, or a fallback where it is absent. -/
def paramOr (element : Element) (key fallback : Text) : Text := (element.param? key).getD fallback

/-- Whether the element is a slide. -/
def isSlide (element : Element) : Bool := element.kind = .slide

end Element

/-- A titled group of elements. -/
structure Scene where
  title : Text
  elements : List Element
  deriving DecidableEq

/-- A parsed deck. -/
structure Document where
  header : Header
  scenes : List Scene
  deriving DecidableEq

namespace Document

/-- All elements in order, each with its scene. -/
def elements (document : Document) : List (Scene × Element) :=
  document.scenes.flatMap fun scene => scene.elements.map fun element => (scene, element)

/-- All slides in order, each with its scene. -/
def slides (document : Document) : List (Scene × Element) :=
  document.elements.filter fun (_, element) => element.isSlide

/-- The number of elements of all scenes. -/
def elementCount (document : Document) : Nat :=
  (document.scenes.flatMap Scene.elements).length

end Document
end Lectern
