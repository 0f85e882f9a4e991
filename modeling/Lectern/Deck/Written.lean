import Lectern.Deck.Basic
import Lectern.Json.Basic

/-!
# Written decks

A document as a tree of values, for tools that want its structure and not its output.
-/

namespace Lectern

/-- Parameters as a tree of values, in the order of their keys. -/
def Params.toJson (params : Params) : Json :=
  .object (params.entries.map fun (key, value) => (key, .text value))

/-- An element as a tree of values. -/
def Element.toJson (element : Element) : Json :=
  .object [("type", .text element.typeName), ("parameters", element.params.toJson),
    ("content", .text element.content)]

/-- A scene as a tree of values. -/
def Scene.toJson (scene : Scene) : Json :=
  .object [("title", .text scene.title), ("elements", .list (scene.elements.map Element.toJson))]

/-- A header as a tree of values. -/
def Header.toJson (header : Header) : Json :=
  .object [("title", .text header.title), ("author", .text header.author),
    ("style", .text header.style)]

/-- A document as a tree of values. -/
def Document.toJson (document : Document) : Json :=
  .object [("header", document.header.toJson), ("scenes", .list (document.scenes.map Scene.toJson))]

end Lectern
