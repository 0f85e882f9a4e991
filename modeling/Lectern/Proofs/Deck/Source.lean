import Mathlib.Data.List.Forall2
import Lectern.Deck.Parser
import Lectern.Proofs.Text.Lines

/-!
# Deck sources

How a document is written as a deck: a header block, for every scene a marker line, and for every
element a header line with the content behind it. Parameters may stand in any order, and an element
without parameters may go without a list. `Document.Writable` names the documents that such a text
can hold; it does not restrict quotes, equals signs or parentheses in values.
-/

namespace Lectern

/-! ## Headers -/

/-- An entry of the header block. -/
def Header.entrySource (key value : Text) : Text := key ++ " = \"" ++ value ++ "\""

/-- The header block. -/
def Header.source (header : Header) : Text :=
  Text.ofLines ["---", entrySource "title" header.title, entrySource "author" header.author,
    entrySource "style" header.style, "---"]

/-- A header block with these entries, in this order. -/
def Header.block (entries : List (Text × Text)) : Text :=
  let lines := entries.map fun entry => entrySource entry.1 entry.2
  Text.ofLines (("---" : Text) :: lines ++ [("---" : Text)])

/-- An entry whose key is a word of ASCII letters and whose value stays on its line. -/
structure Header.PlainEntry (entry : Text × Text) : Prop where
  letters : entry.1.all Char.isAlpha
  noFeed : '\n' ∉ entry.2

/-- A value that an entry of the header block can hold. -/
def Header.WritableValue (value : Text) : Prop := '\n' ∉ value ∧ ¬ ("---" : Text) <:+: value

/-- A header that a block can hold. -/
structure Header.Writable (header : Header) : Prop where
  title : WritableValue header.title
  author : WritableValue header.author
  style : WritableValue header.style

/-! ## Parameters -/

/-- A parameter as a list has it. -/
def Params.bindingSource (binding : Text × Text) : Text := binding.1 ++ "=\"" ++ binding.2 ++ "\""

/-- The text between the parentheses of a list. -/
def Params.listSource (bindings : List (Text × Text)) : Text :=
  (", " : Text).intercalate (bindings.map bindingSource)

/-- What may stand behind a type word for these parameters. -/
inductive Params.Source (params : Params) : Text → Prop where
  | list {bindings : List (Text × Text)} (order : bindings.Perm params.entries) :
    Source params ("(" ++ listSource bindings ++ ")")
  | absent (empty : params.entries = []) : Source params []

/-- A parameter that a list can hold. -/
structure Params.WritableBinding (binding : Text × Text) : Prop where
  trimmedKey : Text.trim binding.1 = binding.1
  noCommaInKey : ',' ∉ binding.1
  noEqualsInKey : '=' ∉ binding.1
  noFeedInKey : '\n' ∉ binding.1
  noCommaInValue : ',' ∉ binding.2
  noFeedInValue : '\n' ∉ binding.2

/-! ## Elements -/

/-- The header line of an element. -/
def Element.headerLine (element : Element) (list : Text) : Text :=
  "## " ++ element.typeName ++ list

/-- The header line of an element with its content behind it. -/
inductive Element.Source (element : Element) : Text → Prop where
  | written {list : Text} (params : element.params.Source list) :
    Source element (element.headerLine list ++ "\n" ++ element.content ++ "\n")

/-- An element that a deck can hold. -/
structure Element.Writable (element : Element) : Prop where
  typeName : element.typeName ≠ []
  word : ∀ c ∈ element.typeName, Text.isWordChar c
  params : ∀ binding ∈ element.params.entries, Params.WritableBinding binding
  trimmed : Text.trim element.content = element.content
  noReturn : ¬ ("\r\n" : Text) <:+: element.content
  noMarker : ∀ line ∈ element.content.splitOn '\n', ¬ Scene.mark <+: line
  noHeader : ∀ line ∈ element.content.splitOn '\n', ElementHeader.ofLine? line = none

/-! ## Scenes and documents -/

/-- The marker line of a scene. -/
def Scene.markerLine (scene : Scene) : Text := "# Scene: " ++ scene.title

/-- The marker line of a scene with its elements behind it. -/
inductive Scene.Source (scene : Scene) : Text → Prop where
  | written {texts : List Text} (elements : List.Forall₂ Element.Source scene.elements texts) :
    Source scene (scene.markerLine ++ "\n" ++ texts.flatten)

/-- A scene that a deck can hold. -/
structure Scene.Writable (scene : Scene) : Prop where
  trimmed : Text.trim scene.title = scene.title
  noFeed : '\n' ∉ scene.title
  elements : ∀ element ∈ scene.elements, element.Writable

/-- The header block of a document with its scenes behind it. -/
inductive Document.Source (document : Document) : Text → Prop where
  | written {texts : List Text} (scenes : List.Forall₂ Scene.Source document.scenes texts) :
    Source document (document.header.source ++ texts.flatten)

/-- A document that a deck can hold. -/
structure Document.Writable (document : Document) : Prop where
  header : document.header.Writable
  scenes : ∀ scene ∈ document.scenes, scene.Writable

end Lectern
