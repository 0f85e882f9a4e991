import Mathlib.Data.List.Forall2
import Lectern.Check.Scenes
import Lectern.Latex.Document

/-!
# Degraded elements

Some elements are printed less than well: with a placeholder for a parameter that they lack, or as
a comment that their type is unknown. Both are said of the output alone, by comparing it with the
output for the same element with the parameter set. The scene checks have their own table of
parameters; `reportsDegraded` says that what they report at elements are exactly the degraded ones.
-/

namespace Lectern

/-- The elements of a document, each with its scene title and its position in the scene. -/
def Document.placedElements (document : Document) : List (Text × Nat × Element) :=
  document.scenes.flatMap fun scene =>
    (scene.elements.zipIdx 1).map fun (element, position) => (scene.title, position, element)

namespace Element

/-- The element with a parameter set. -/
def withParam (element : Element) (key value : Text) : Element :=
  { element with params := element.params.insert key value }

variable (element : Element) (key value : Text)

@[simp] theorem kind_withParam : (element.withParam key value).kind = element.kind := rfl

@[simp] theorem content_withParam : (element.withParam key value).content = element.content := rfl

@[simp] theorem paramOr_withParam (fallback : Text) :
    (element.withParam key value).paramOr key fallback = value := by
  rw [paramOr, param?, withParam, OrderedMap.get?_insert, if_pos rfl, Option.getD_some]

theorem paramOr_withParam_of_ne {other : Text} (differs : other ≠ key) (fallback : Text) :
    (element.withParam key value).paramOr other fallback = element.paramOr other fallback := by
  rw [paramOr, paramOr, param?, param?, withParam, OrderedMap.get?_insert, if_neg differs]

end Element

namespace Latex

/-! ## What the output shows -/

/-- The parameters that an element should have for the output, each with what is printed where it is
absent. A title is no such parameter, though the output has a placeholder for it too. -/
def placeholders : List (Text × Text) :=
  [("snippet", "Code"), ("name", "No name"), ("source", "No source given")]

/-- A placeholder is printed for an absent parameter: the output is that for the placeholder as a
value, and with some other value it would not be. -/
structure ShowsPlaceholder (element : Element) (key placeholder : Text) : Prop where
  listed : (key, placeholder) ∈ placeholders
  absent : element.param? key = none
  printed : renderElement element = renderElement (element.withParam key placeholder)
  shown : ∃ value, renderElement (element.withParam key value) ≠ renderElement element

/-- The comments for an element of a kind that has no place on slides. -/
def commentLines (kind : ElementKind) (label value : Text) : List Text :=
  [comment (kind.displayName ++ " element is not rendered in LaTeX"),
    comment (label ++ ": " ++ escapeAmpersand value)]

theorem renderComment_of_kind {element : Element} {kind : ElementKind} (same : element.kind = kind)
    (label key fallback : Text) : renderComment element label key fallback =
      commentLines kind label (element.paramOr key fallback) := by
  rw [renderComment, same, commentLines]

/-- All that is printed for an element is that the type with this name is unknown. -/
def PrintsUnknown (element : Element) (name : Text) : Prop :=
  renderElement element = [comment ("Unknown element type: " ++ name)]

/-- An element for which a placeholder is printed, or that its type is unknown. -/
def Degraded (element : Element) : Prop :=
  (∃ key placeholder, ShowsPlaceholder element key placeholder) ∨ ∃ name, PrintsUnknown element name

theorem printsUnknown_iff {element : Element} {name : Text} :
    PrintsUnknown element name ↔ element.kind = .unknown name := by
  rw [PrintsUnknown, renderElement.eq_def]
  cases element.kind with
  | unknown other => simp [comment]
  | slide | code => simp [renderSlide, renderCode, frameOpening]
  | teleprompt | video | screencast | quiz | button => simp [renderComment]

end Latex

namespace Check

open Latex

/-- What is printed for an element with a parameter to show depends on that parameter alone. -/
theorem renderElement_of_shownParam? {kind : ElementKind} {key : Text}
    (shows : shownParam? kind = some key) :
    ∃ placeholder, (key, placeholder) ∈ placeholders ∧ ∃ print : Text → List Text,
      print [] ≠ print placeholder ∧
        ∀ element : Element, element.kind = kind →
          renderElement element = print (element.paramOr key placeholder) := by
  cases kind with
  | code =>
    obtain rfl := Option.some.inj shows
    refine ⟨"Code", by decide, fun value => frameOpening ("Code: " ++ escapeAmpersand value)
      ++ codePlaceholder "  " ++ [closing "frame"], by decide, ?_⟩
    intro element isCode
    rw [renderElement, isCode]
    rfl
  | quiz =>
    obtain rfl := Option.some.inj shows
    refine ⟨"No name", by decide, commentLines .quiz "Name", by decide, ?_⟩
    intro element isQuiz
    rw [renderElement, isQuiz]
    exact renderComment_of_kind isQuiz "Name" "name" "No name"
  | video =>
    obtain rfl := Option.some.inj shows
    refine ⟨"No source given", by decide, commentLines .video "Source", by decide, ?_⟩
    intro element isVideo
    rw [renderElement, isVideo]
    exact renderComment_of_kind isVideo "Source" "source" "No source given"
  | screencast =>
    obtain rfl := Option.some.inj shows
    refine ⟨"No source given", by decide, commentLines .screencast "Source", by decide, ?_⟩
    intro element isScreencast
    rw [renderElement, isScreencast]
    exact renderComment_of_kind isScreencast "Source" "source" "No source given"
  | slide | teleprompt | button | unknown => cases shows

/-- A parameter that could have a placeholder but is not shown makes no difference. -/
theorem renderElement_withParam_of_hidden {element : Element} {key placeholder : Text}
    (listed : (key, placeholder) ∈ placeholders) (hidden : shownParam? element.kind ≠ some key)
    (value : Text) : renderElement (element.withParam key value) = renderElement element := by
  have noTitle : ("title" : Text) ≠ key := by
    have unlisted : ("title" : Text) ∉ placeholders.map Prod.fst := by decide
    rintro rfl
    exact unlisted (List.mem_map_of_mem listed)
  have differs {shown : Text} (shows : shownParam? element.kind = some shown) : shown ≠ key := by
    rintro rfl
    exact hidden shows
  rw [renderElement.eq_def, renderElement.eq_def, Element.kind_withParam]
  cases kind : element.kind with
  | slide =>
    dsimp only
    rw [renderSlide, renderSlide, element.paramOr_withParam_of_ne key value noTitle,
      Element.content_withParam]
  | teleprompt =>
    dsimp only
    rw [renderComment, renderComment, element.paramOr_withParam_of_ne key value noTitle,
      Element.kind_withParam]
  | code =>
    dsimp only
    rw [renderCode, renderCode,
      element.paramOr_withParam_of_ne key value (differs (by rw [kind]; rfl))]
  | video | screencast | quiz =>
    dsimp only
    rw [renderComment, renderComment, Element.kind_withParam,
      element.paramOr_withParam_of_ne key value (differs (by rw [kind]; rfl))]
  | button | unknown => rfl

/-- A placeholder is printed exactly for an absent parameter that is to be shown. -/
theorem showsPlaceholder_iff {element : Element} {key : Text} :
    (∃ placeholder, ShowsPlaceholder element key placeholder) ↔
      shownParam? element.kind = some key ∧ element.param? key = none := by
  constructor
  · rintro ⟨placeholder, listed, absent, -, value, differs⟩
    refine ⟨?_, absent⟩
    by_contra hidden
    exact differs (renderElement_withParam_of_hidden listed hidden value)
  · rintro ⟨shows, absent⟩
    obtain ⟨placeholder, listed, print, differs, prints⟩ := renderElement_of_shownParam? shows
    have instead : renderElement element = print placeholder := by
      rw [prints element rfl, Element.paramOr, absent, Option.getD_none]
    have given (value : Text) : renderElement (element.withParam key value) = print value := by
      rw [prints _ (element.kind_withParam key value), Element.paramOr_withParam]
    refine ⟨placeholder, listed, absent, ?_, [], ?_⟩
    · rw [instead, given]
    · rw [instead, given]
      exact differs

/-- What is found at an element is what is printed for it. -/
theorem elementFinding?_eq_some_iff {element : Element} {finding : Finding} :
    elementFinding? element = some finding ↔
      (∃ name, PrintsUnknown element name ∧ finding = .elementTypeUnknown name) ∨
      ∃ key, (∃ placeholder, ShowsPlaceholder element key placeholder) ∧
        finding = .paramMissing element.kind.displayName key := by
  simp only [printsUnknown_iff, showsPlaceholder_iff, elementFinding?]
  split
  · rename_i name isUnknown
    rw [isUnknown]
    simp [shownParam?, eq_comm]
  · rename_i named
    have known (name : Text) : element.kind ≠ .unknown name := named name
    cases shows : shownParam? element.kind with
    | none => simp [known]
    | some key =>
      by_cases absent : element.param? key = none
      · simp [known, absent, eq_comm]
      · simp [known, absent]

/-- Exactly at the degraded elements something is found. -/
theorem isSome_elementFinding?_iff {element : Element} :
    (elementFinding? element).isSome ↔ Degraded element := by
  rw [Option.isSome_iff_exists, Degraded]
  simp only [elementFinding?_eq_some_iff]
  constructor
  · rintro ⟨finding, ⟨name, prints, -⟩ | ⟨key, shows, -⟩⟩
    · exact .inr ⟨name, prints⟩
    · exact .inl ⟨key, shows⟩
  · rintro (⟨key, shows⟩ | ⟨name, prints⟩)
    · exact ⟨_, .inr ⟨key, shows, rfl⟩⟩
    · exact ⟨_, .inl ⟨name, prints, rfl⟩⟩

instance (element : Element) : Decidable (Degraded element) :=
  decidable_of_iff _ isSome_elementFinding?_iff

/-! ## Diagnostics at elements -/

/-- Whether a diagnostic applies to an element. -/
def Diagnostic.isAtElement (diagnostic : Diagnostic) : Bool :=
  match diagnostic.location with
  | .element .. => true
  | _ => false

/-- A diagnostic warns, at the place of an element, of what is printed for it. -/
structure Reports (diagnostic : Diagnostic) (placed : Text × Nat × Element) : Prop where
  warning : diagnostic.severity = .warning
  location : diagnostic.location = .element placed.1 placed.2.1 placed.2.2.typeName
  finding :
    (∃ name, PrintsUnknown placed.2.2 name ∧ diagnostic.finding = .elementTypeUnknown name) ∨
    ∃ key, (∃ placeholder, ShowsPlaceholder placed.2.2 key placeholder) ∧
      diagnostic.finding = .paramMissing placed.2.2.kind.displayName key

/-- The diagnostic for an element at its place. -/
def placedDiagnostic? (placed : Text × Nat × Element) : Option Diagnostic :=
  (elementFinding? placed.2.2).map
    (Diagnostic.warning (.element placed.1 placed.2.1 placed.2.2.typeName))

theorem elementDiagnostics_eq (scene : Text) (position : Nat) (elements : List Element) :
    elementDiagnostics scene position elements =
      ((elements.zipIdx position).map
        fun (element, position) => (scene, position, element)).filterMap placedDiagnostic? := by
  induction elements generalizing position with
  | nil => rfl
  | cons element rest ih =>
    rw [elementDiagnostics, ih, List.zipIdx_cons, List.map_cons, List.filterMap_cons]
    cases found : elementFinding? element with
    | none => simp [placedDiagnostic?, found]
    | some finding => simp [placedDiagnostic?, found]

theorem isAtElement_of_mem {scene : Text} {position : Nat} {elements : List Element}
    {diagnostic : Diagnostic} (member : diagnostic ∈ elementDiagnostics scene position elements) :
    diagnostic.isAtElement := by
  rw [elementDiagnostics_eq, List.mem_filterMap] at member
  obtain ⟨placed, -, found⟩ := member
  obtain ⟨finding, -, rfl⟩ := Option.map_eq_some_iff.mp found
  rfl

/-- The diagnostics at the elements of a scene, among all for it. -/
theorem filter_sceneDiagnostics (index : Nat) (scene : Scene) :
    (sceneDiagnostics index scene).filter Diagnostic.isAtElement =
      elementDiagnostics scene.title 1 scene.elements := by
  have own : (elementDiagnostics scene.title 1 scene.elements).filter Diagnostic.isAtElement =
      elementDiagnostics scene.title 1 scene.elements :=
    List.filter_eq_self.mpr fun _ => isAtElement_of_mem
  rw [sceneDiagnostics, List.filter_append, List.filter_append, own]
  split <;> split <;> rfl

/-- The diagnostics at elements are those for the elements of the document in order. -/
theorem filter_scenesDiagnostics (document : Document) :
    (scenesDiagnostics document).filter Diagnostic.isAtElement =
      document.placedElements.filterMap placedDiagnostic? := by
  have fromIndex (index : Nat) (scenes : List Scene) :
      (scenesDiagnosticsFrom index scenes).filter Diagnostic.isAtElement =
        scenes.flatMap fun scene => elementDiagnostics scene.title 1 scene.elements := by
    induction scenes generalizing index with
    | nil => rfl
    | cons scene rest ih =>
      rw [scenesDiagnosticsFrom, List.filter_append, filter_sceneDiagnostics, ih,
        List.flatMap_cons]
  rw [scenesDiagnostics, List.filter_append, fromIndex, Document.placedElements,
    List.filterMap_flatMap]
  have noElement : (if document.scenes = [] then [Diagnostic.warning .document .noScenes]
      else []).filter Diagnostic.isAtElement = [] := by
    split <;> rfl
  rw [noElement, List.nil_append]
  exact List.flatMap_congr fun scene _ => elementDiagnostics_eq scene.title 1 scene.elements

/-- The elements that pass, each with what is made of it. -/
theorem forall₂_filterMap_filter {α β : Type} {R : β → α → Prop} {make : α → Option β}
    {passes : α → Prop} [DecidablePred passes] (some_iff : ∀ a, (make a).isSome ↔ passes a)
    (relates : ∀ a b, make a = some b → R b a) (list : List α) :
    List.Forall₂ R (list.filterMap make) (list.filter (passes ·)) := by
  induction list with
  | nil => exact .nil
  | cons a rest ih =>
    cases made : make a with
    | none =>
      have stays : ¬ passes a := by simp [← some_iff, made]
      rwa [List.filterMap_cons_none made, List.filter_cons_of_neg (by simpa using stays)]
    | some b =>
      have passed : passes a := by simp [← some_iff, made]
      rw [List.filterMap_cons_some made, List.filter_cons_of_pos (by simpa using passed)]
      exact .cons (relates a b made) ih

/-- The scene checks and the unfiltered output agree on the degraded elements. -/
structure ReportsDegraded (document : Document) : Prop where
  reported : List.Forall₂ Reports
    ((scenesDiagnostics document).filter Diagnostic.isAtElement)
    (document.placedElements.filter fun (_, _, element) => Degraded element)
  printed : ∀ settings, renderDocument settings none document =
    renderHeader settings document.header
      ++ (document.scenes.flatMap fun scene =>
        [comment ("Scene: " ++ scene.title)] ++ scene.elements.flatMap renderElement ++ [[]])
      ++ [closing "document"]

/-- An element is degraded if it is of unknown type or lacks the parameter that is to be shown for
its kind. The diagnostics of the scene checks at elements are one warning for each degraded element
of the unfiltered output, in order. -/
theorem reportsDegraded :
    (∀ element : Element, Degraded element ↔
      (∃ name, element.kind = .unknown name) ∨
      (element.kind = .code ∧ element.param? "snippet" = none) ∨
      (element.kind = .quiz ∧ element.param? "name" = none) ∨
      ((element.kind = .video ∨ element.kind = .screencast) ∧ element.param? "source" = none)) ∧
    ∀ document, ReportsDegraded document := by
  refine ⟨?kinds, fun document => ⟨?reported, ?printed⟩⟩
  case kinds =>
    intro element
    rw [Degraded]
    simp only [printsUnknown_iff, showsPlaceholder_iff]
    cases element.kind <;> simp [shownParam?]
  case reported =>
    rw [filter_scenesDiagnostics]
    refine forall₂_filterMap_filter ?_ ?_ document.placedElements
    · intro placed
      rw [placedDiagnostic?, Option.isSome_map, isSome_elementFinding?_iff]
    · intro placed diagnostic made
      obtain ⟨finding, found, rfl⟩ := Option.map_eq_some_iff.mp made
      exact ⟨rfl, rfl, elementFinding?_eq_some_iff.mp found⟩
  case printed =>
    intro settings
    have all (elements : List Element) : elements.filter (passes none) = elements :=
      List.filter_eq_self.mpr fun _ _ => rfl
    have unfiltered (scene : Scene) : renderScene none scene =
        [comment ("Scene: " ++ scene.title)] ++ scene.elements.flatMap renderElement ++ [[]] := by
      rw [renderScene, all]
    rw [renderDocument, activeFilter, Option.filter_none,
      List.flatMap_congr fun scene _ => unfiltered scene]

end Check
end Lectern
