import Lectern.Check.Diagnostic
import Lectern.Deck.Basic
import Lectern.Language.Basic

/-!
# Slide checks

A slide should have content, a title that is not blank, and no parameters that no tool knows.
Where one slide of a deck has a language tag, every slide needs one.
-/

namespace Lectern.Check

/-- The parameters of slides that tools know. -/
def knownSlideKeys : List Text := ["title", "lang", "style", "transition", "duration"]

/-- The finding for the language tag of a slide, in a deck where slides are tagged or not. -/
def languageFinding? (tagged : Bool) (slide : Element) : Option (Severity × Finding) :=
  match slide.param? "lang" with
  | some code =>
    if Language.isSlideCode code then none else some (.warning, .languageInvalid code)
  | none => if tagged then some (.error, .languageMissing) else none

/-- The findings for a slide. -/
def slideFindings (tagged : Bool) (slide : Element) : List (Severity × Finding) :=
  (if (slide.param? "title").any Text.isBlankText then [(.error, .slideTitleEmpty)] else [])
    ++ (slide.params.keys.filter fun key => !knownSlideKeys.contains (Text.lowercase key)).map
      (fun key => (.warning, .slideKeyUnknown key))
    ++ (if Text.isBlankText slide.content then [(.warning, .slideEmpty)] else [])
    ++ (languageFinding? tagged slide).toList

/-- The diagnostics for the slides among the elements of a scene from a position on. -/
def slideDiagnostics (tagged : Bool) (scene : Text) : Nat → List Element → List Diagnostic
  | _, [] => []
  | position, element :: rest =>
    (if element.isSlide then
        (slideFindings tagged element).map fun (severity, finding) =>
          ⟨severity, .element scene position element.typeName, finding⟩
      else [])
      ++ slideDiagnostics tagged scene (position + 1) rest

/-- Whether some slide of the document has a language tag. -/
def hasTaggedSlide (document : Document) : Bool :=
  document.slides.any fun (_, slide) => (slide.param? "lang").isSome

/-- The diagnostics for the slides of a document. -/
def slidesDiagnostics (document : Document) : List Diagnostic :=
  document.scenes.flatMap fun scene =>
    slideDiagnostics (hasTaggedSlide document) scene.title 1 scene.elements

end Lectern.Check
