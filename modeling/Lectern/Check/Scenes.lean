import Lectern.Check.Diagnostic
import Lectern.Deck.Basic

/-!
# Scene checks

A deck should have scenes, a scene a title and elements, and an element a known type and the
parameter that its comment or frame shows.
-/

namespace Lectern.Check

/-- The parameter that the output for a kind of element shows. -/
def shownParam? : ElementKind → Option Text
  | .code => some "snippet"
  | .quiz => some "name"
  | .video | .screencast => some "source"
  | _ => none

/-- The finding for an element other than a slide. -/
def elementFinding? (element : Element) : Option Finding :=
  match element.kind with
  | .unknown name => some (.elementTypeUnknown name)
  | kind =>
    match shownParam? kind with
    | some key =>
      if element.param? key = none then some (.paramMissing kind.displayName key) else none
    | none => none

/-- The diagnostics for the elements of a scene from a position on. -/
def elementDiagnostics (scene : Text) : Nat → List Element → List Diagnostic
  | _, [] => []
  | position, element :: rest =>
    ((elementFinding? element).map
        (Diagnostic.warning (.element scene position element.typeName))).toList
      ++ elementDiagnostics scene (position + 1) rest

/-- The diagnostics for a scene. -/
def sceneDiagnostics (index : Nat) (scene : Scene) : List Diagnostic :=
  let location := .scene index scene.title
  (if scene.title = [] then [.error location .sceneUntitled] else [])
    ++ (if scene.elements = [] then [.warning location .sceneEmpty] else [])
    ++ elementDiagnostics scene.title 1 scene.elements

/-- The diagnostics for scenes from an index on. -/
def scenesDiagnosticsFrom : Nat → List Scene → List Diagnostic
  | _, [] => []
  | index, scene :: rest => sceneDiagnostics index scene ++ scenesDiagnosticsFrom (index + 1) rest

/-- The diagnostics for the scenes of a document. -/
def scenesDiagnostics (document : Document) : List Diagnostic :=
  (if document.scenes = [] then [.warning .document .noScenes] else [])
    ++ scenesDiagnosticsFrom 1 document.scenes

end Lectern.Check
