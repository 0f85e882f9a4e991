import Lectern.Check.Slides
import Lectern.Proofs.Publish.Languages

/-!
# Language tags, checked and collected

Collecting the language tags of a document stops at the first slide without one; the slide checks
go on and report every fault. Both take the slides in the same order (`slidesDiagnostics_eq`), and
where some slide is tagged, a slide has a finding about a missing or empty tag exactly if collecting
stops at it (`exists_tagFault_iff`). So the first such finding is where collecting stops.
-/

namespace Lectern

/-- Whether some slide has a language parameter, be it empty. -/
def Document.HasTag (document : Document) : Prop :=
  ∃ scene ∈ document.scenes, ∃ slide ∈ scene.elements,
    slide.isSlide ∧ (slide.param? "lang").isSome

namespace Check

/-- A finding that a slide has no tag, or that its tag is empty. -/
def isTagFault : Severity × Finding → Bool
  | (.error, .languageMissing) => true
  | (.warning, .languageInvalid []) => true
  | _ => false

/-- Whether a diagnostic says that a slide has no tag, or that its tag is empty. -/
def Diagnostic.isTagFault (diagnostic : Diagnostic) : Bool :=
  Check.isTagFault (diagnostic.severity, diagnostic.finding)

/-- The checks of a document and the collection of its tags agree. -/
structure TagsAgree (document : Document) : Prop where
  refused : document.HasTag → ((∃ error, document.languages = .error error) ↔
    ∃ diagnostic ∈ slidesDiagnostics document, diagnostic.isTagFault)
  first : document.HasTag → ∀ error, document.languages = .error error →
    ∃ diagnostic scene position typeName,
      (slidesDiagnostics document).find? Diagnostic.isTagFault = some diagnostic ∧
      diagnostic.location = .element scene position typeName ∧
      error = .missingLanguage scene position
  accepted : document.HasTag →
    (∀ diagnostic ∈ slidesDiagnostics document, diagnostic.isTagFault = false) →
    ∃ tags, document.languages = .ok tags ∧ tags.Nodup ∧
      ∀ tag, tag ∈ tags ↔ ∃ scene ∈ document.scenes, ∃ slide ∈ scene.elements,
        slide.isSlide ∧ slide.param? "lang" = some tag
  silent : ¬ document.HasTag → ∀ diagnostic ∈ slidesDiagnostics document,
    diagnostic.finding ≠ .languageMissing ∧ ∀ code, diagnostic.finding ≠ .languageInvalid code
  untagged : ¬ document.HasTag → ((∃ error, document.languages = .error error) ↔
    ∃ scene ∈ document.scenes, ∃ slide ∈ scene.elements, slide.isSlide)

/-! ## Slides in order -/

/-- The diagnostics for one slide at its place. -/
def placedDiagnostics (tagged : Bool) (placed : Text × Nat × Element) : List Diagnostic :=
  (slideFindings tagged placed.2.2).map fun (severity, finding) =>
    ⟨severity, .element placed.1 placed.2.1 placed.2.2.typeName, finding⟩

theorem slideDiagnostics_eq (tagged : Bool) (scene : Text) (position : Nat)
    (elements : List Element) :
    slideDiagnostics tagged scene position elements =
      (((elements.zipIdx position).filter fun (element, _) => element.isSlide).map
        fun (element, position) => (scene, position, element)).flatMap
          (placedDiagnostics tagged) := by
  induction elements generalizing position with
  | nil => rfl
  | cons element rest ih =>
    rw [slideDiagnostics, ih, List.zipIdx_cons]
    cases isSlide : element.isSlide with
    | false => simp [isSlide]
    | true => simp [isSlide, placedDiagnostics]

/-- The slide checks go through the slides of a document in order. -/
theorem slidesDiagnostics_eq (document : Document) :
    slidesDiagnostics document =
      document.placedSlides.flatMap (placedDiagnostics (hasTaggedSlide document)) := by
  rw [slidesDiagnostics, Document.placedSlides, List.flatMap_assoc]
  apply List.flatMap_congr
  intro scene _
  exact slideDiagnostics_eq (hasTaggedSlide document) scene.title 1 scene.elements

theorem hasTaggedSlide_iff (document : Document) : hasTaggedSlide document ↔ document.HasTag := by
  simp [hasTaggedSlide, Document.slides, Document.elements, Document.HasTag]

/-! ## Findings about tags -/

/-- Findings about tags come from the check of the tag alone. -/
theorem mem_slideFindings_iff {tagged : Bool} {slide : Element} {severity : Severity}
    {finding : Finding}
    (about : finding = .languageMissing ∨ ∃ code, finding = .languageInvalid code) :
    (severity, finding) ∈ slideFindings tagged slide ↔
      languageFinding? tagged slide = some (severity, finding) := by
  rw [slideFindings, List.mem_append, List.mem_append, List.mem_append, Option.mem_toList,
    List.mem_map]
  rcases about with rfl | ⟨code, rfl⟩
  · simp only [List.mem_ite_nil_right, List.mem_singleton, Prod.mk.injEq, reduceCtorEq,
      and_false, exists_false, false_or]
  · simp only [List.mem_ite_nil_right, List.mem_singleton, Prod.mk.injEq, reduceCtorEq,
      and_false, exists_false, false_or]

theorem isTagFault_iff {severity : Severity} {finding : Finding} :
    isTagFault (severity, finding) ↔ severity = .error ∧ finding = .languageMissing ∨
      severity = .warning ∧ finding = .languageInvalid [] := by
  rw [isTagFault.eq_def]
  split <;> simp_all

theorem languageTag?_eq_none {slide : Element} :
    slide.languageTag? = none ↔ slide.param? "lang" = none ∨ slide.param? "lang" = some [] := by
  rw [Element.languageTag?]
  cases slide.param? "lang" with
  | none => simp
  | some tag => simp [Option.filter]

/-- Where some slide is tagged, the check of a tag finds fault with it if there is none or if it is
empty. -/
theorem languageFinding?_fault_iff {slide : Element} :
    (languageFinding? true slide = some (.error, .languageMissing) ∨
      languageFinding? true slide = some (.warning, .languageInvalid [])) ↔
        slide.languageTag? = none := by
  have empty : Language.isSlideCode [] = false := by decide +kernel
  rw [languageTag?_eq_none, languageFinding?]
  cases slide.param? "lang" with
  | none => simp
  | some code =>
    by_cases isCode : Language.isSlideCode code
    · have nonempty : code ≠ [] := by
        rintro rfl
        rw [empty] at isCode
        cases isCode
      simp [isCode, nonempty]
    · simp [isCode]

/-- A slide has a finding about a missing or empty tag exactly if collecting stops at it. -/
theorem exists_tagFault_iff {placed : Text × Nat × Element} :
    (∃ diagnostic ∈ placedDiagnostics true placed, diagnostic.isTagFault) ↔
      placed.2.2.languageTag? = none := by
  rw [← languageFinding?_fault_iff, ← mem_slideFindings_iff (.inl rfl),
    ← mem_slideFindings_iff (.inr ⟨[], rfl⟩)]
  constructor
  · rintro ⟨diagnostic, member, fault⟩
    obtain ⟨⟨severity, finding⟩, found, rfl⟩ := List.mem_map.mp member
    rcases isTagFault_iff.mp fault with ⟨rfl, rfl⟩ | ⟨rfl, rfl⟩
    · exact .inl found
    · exact .inr found
  · rintro (found | found)
    · exact ⟨_, List.mem_map_of_mem found, rfl⟩
    · exact ⟨_, List.mem_map_of_mem found, rfl⟩

theorem location_of_mem_placedDiagnostics {tagged : Bool} {placed : Text × Nat × Element}
    {diagnostic : Diagnostic} (member : diagnostic ∈ placedDiagnostics tagged placed) :
    diagnostic.location = .element placed.1 placed.2.1 placed.2.2.typeName := by
  obtain ⟨-, -, rfl⟩ := List.mem_map.mp member
  rfl

/-- The first finding about a missing or empty tag is at the first slide where collecting stops. -/
theorem find?_tagFault {document : Document} (tagged : hasTaggedSlide document = true)
    {placed : Text × Nat × Element}
    (stops : (document.placedSlides.find? fun (_, _, slide) => slide.languageTag? = none) =
      some placed) :
    ∃ diagnostic, (slidesDiagnostics document).find? Diagnostic.isTagFault = some diagnostic ∧
      diagnostic.location = .element placed.1 placed.2.1 placed.2.2.typeName := by
  obtain ⟨isUntagged, before, after, slides, allTagged⟩ := List.find?_eq_some_iff_append.mp stops
  obtain ⟨fault, member, isFault⟩ := exists_tagFault_iff.mpr (of_decide_eq_true isUntagged)
  cases found : (placedDiagnostics true placed).find? Diagnostic.isTagFault with
  | none => exact absurd isFault (List.find?_eq_none.mp found fault member)
  | some diagnostic =>
    refine ⟨diagnostic, ?_, location_of_mem_placedDiagnostics (List.mem_of_find?_eq_some found)⟩
    rw [slidesDiagnostics_eq, tagged, List.find?_flatMap]
    refine List.findSome?_eq_some_iff.mpr ⟨before, placed, after, slides, found, ?_⟩
    intro other isBefore
    refine List.find?_eq_none.mpr fun diagnostic member isFault => ?_
    have untagged := exists_tagFault_iff.mp ⟨diagnostic, member, isFault⟩
    simpa [untagged] using allTagged other isBefore

/-! ## Agreement -/

/-- Collecting fails at the first slide without a tag. -/
theorem languages_eq_error_iff {document : Document} {error : DeckError} :
    document.languages = .error error ↔
      ∃ placed, (document.placedSlides.find? fun (_, _, slide) => slide.languageTag? = none) =
        some placed ∧ error = .missingLanguage placed.1 placed.2.1 := by
  rw [Document.languages]
  split
  · rename_i scene position slide stops
    constructor
    · intro refused
      exact ⟨_, stops, (Except.error.inj refused).symm⟩
    · rintro ⟨placed, found, rfl⟩
      obtain rfl := Option.some.inj (stops.symm.trans found)
      rfl
  · rename_i complete
    simp [complete]

theorem exists_languages_error_iff {document : Document} :
    (∃ error, document.languages = .error error) ↔
      ∃ placed ∈ document.placedSlides, placed.2.2.languageTag? = none := by
  constructor
  · rintro ⟨error, refused⟩
    obtain ⟨placed, stops, -⟩ := languages_eq_error_iff.mp refused
    exact ⟨placed, List.mem_of_find?_eq_some stops, by simpa using List.find?_some stops⟩
  · rintro ⟨placed, member, isUntagged⟩
    have stops : (document.placedSlides.find? fun (_, _, slide) =>
        slide.languageTag? = none).isSome :=
      List.find?_isSome.mpr ⟨placed, member, by simpa using isUntagged⟩
    obtain ⟨first, found⟩ := Option.isSome_iff_exists.mp stops
    exact ⟨_, languages_eq_error_iff.mpr ⟨first, found, rfl⟩⟩

/-- Where some slide is tagged, collecting fails exactly if there is a finding about a missing or
empty tag. -/
theorem exists_error_iff {document : Document} (tagged : hasTaggedSlide document = true) :
    (∃ error, document.languages = .error error) ↔
      ∃ diagnostic ∈ slidesDiagnostics document, diagnostic.isTagFault := by
  rw [exists_languages_error_iff, slidesDiagnostics_eq, tagged]
  simp only [List.mem_flatMap]
  constructor
  · rintro ⟨placed, member, isUntagged⟩
    obtain ⟨fault, found, isFault⟩ := exists_tagFault_iff.mpr isUntagged
    exact ⟨fault, ⟨placed, member, found⟩, isFault⟩
  · rintro ⟨fault, ⟨placed, member, found⟩, isFault⟩
    exact ⟨placed, member, exists_tagFault_iff.mp ⟨fault, found, isFault⟩⟩

/-- Where no slide is tagged, nothing is found about tags. -/
theorem untagged_of_mem_slidesDiagnostics {document : Document} (untagged : ¬ document.HasTag)
    {diagnostic : Diagnostic} (member : diagnostic ∈ slidesDiagnostics document) :
    ¬ (diagnostic.finding = .languageMissing ∨
      ∃ code, diagnostic.finding = .languageInvalid code) := by
  intro about
  have noTag : hasTaggedSlide document = false := by
    rwa [← Bool.not_eq_true, hasTaggedSlide_iff]
  rw [slidesDiagnostics_eq, noTag, List.mem_flatMap] at member
  obtain ⟨placed, isPlaced, reported⟩ := member
  obtain ⟨⟨severity, finding⟩, found, rfl⟩ := List.mem_map.mp reported
  rw [mem_slideFindings_iff about, languageFinding?] at found
  obtain ⟨scene, inDocument, inScene, isSlide⟩ :=
    Document.mem_map_placedSlides.mp (List.mem_map_of_mem isPlaced)
  split at found
  · rename_i tag
    exact untagged ⟨scene, inDocument, _, inScene, isSlide, Option.isSome_of_eq_some tag⟩
  · simp at found

theorem exists_error_iff_of_untagged {document : Document} (untagged : ¬ document.HasTag) :
    (∃ error, document.languages = .error error) ↔
      ∃ scene ∈ document.scenes, ∃ slide ∈ scene.elements, slide.isSlide := by
  rw [exists_languages_error_iff]
  constructor
  · rintro ⟨placed, isPlaced, -⟩
    obtain ⟨scene, inDocument, inScene, isSlide⟩ :=
      Document.mem_map_placedSlides.mp (List.mem_map_of_mem isPlaced)
    exact ⟨scene, inDocument, placed.2.2, inScene, isSlide⟩
  · rintro ⟨scene, inDocument, slide, inScene, isSlide⟩
    obtain ⟨placed, isPlaced, rfl⟩ := List.mem_map.mp
      (Document.mem_map_placedSlides.mpr ⟨scene, inDocument, inScene, isSlide⟩)
    refine ⟨placed, isPlaced, languageTag?_eq_none.mpr (.inl ?_)⟩
    by_contra tagged
    exact untagged ⟨scene, inDocument, _, inScene, isSlide, Option.isSome_iff_ne_none.mpr tagged⟩

/-- Checking the slides and collecting their tags agree on which slide is at fault, and on the tags
if none is. -/
theorem tagsAgree (document : Document) : TagsAgree document where
  refused := fun tagged => exists_error_iff ((hasTaggedSlide_iff document).mpr tagged)
  first := by
    intro tagged error refused
    obtain ⟨placed, stops, rfl⟩ := languages_eq_error_iff.mp refused
    obtain ⟨diagnostic, found, location⟩ :=
      find?_tagFault ((hasTaggedSlide_iff document).mpr tagged) stops
    exact ⟨diagnostic, _, _, _, found, location, rfl⟩
  accepted := by
    intro tagged noFault
    cases discovered : document.languages with
    | error error =>
      obtain ⟨fault, member, isFault⟩ :=
        (exists_error_iff ((hasTaggedSlide_iff document).mpr tagged)).mp ⟨error, discovered⟩
      rw [noFault fault member] at isFault
      cases isFault
    | ok tags =>
      refine ⟨tags, rfl, ?_, fun _ => Document.mem_languages_iff discovered⟩
      obtain ⟨-, rfl⟩ := Document.languages_eq_ok discovered
      exact OrderedMap.keys_nodup _
  silent := by
    intro untagged diagnostic member
    have nothing := untagged_of_mem_slidesDiagnostics untagged member
    refine ⟨fun missing => nothing (.inl missing), ?_⟩
    exact fun code invalid => nothing (.inr ⟨code, invalid⟩)
  untagged := exists_error_iff_of_untagged

end Check
end Lectern
