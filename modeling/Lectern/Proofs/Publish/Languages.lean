import Lectern.Proofs.OrderedMap
import Lectern.Proofs.Text.Utf8
import Lectern.Publish.Outputs

/-!
# Outputs by language

Rendering a document in a language is rendering the document without the slides of other languages.
Each slide has one language of the deck, so the outputs of a deck in several languages share its
slides out among them, and all of them have everything else.
-/

namespace Lectern

/-- Whether an element is in the output for a language. -/
def Element.inLanguage (tag : Text) (element : Element) : Bool :=
  !element.isSlide || element.param? "lang" = some tag

/-- The scene without its slides in other languages. -/
def Scene.onlyLanguage (tag : Text) (scene : Scene) : Scene :=
  { scene with elements := scene.elements.filter (Element.inLanguage tag) }

/-- The document without its slides in other languages. -/
def Document.onlyLanguage (tag : Text) (document : Document) : Document :=
  { document with scenes := document.scenes.map (Scene.onlyLanguage tag) }

/-- The output of a document rendered without a filter, under the name of a language. -/
def Output.unfiltered (config : Config) (language : Option Text) (document : Document) : Output :=
  ⟨language, Latex.renderDocument config.latex none document⟩

/-- How a document with these language tags is rendered. -/
structure RendersByLanguage (config : Config) (document : Document) (tags : List Text) : Prop where
  rising : tags.Pairwise fun a b => Text.utf8 a < Text.utf8 b
  tagsOfSlides : ∀ tag, tag ∈ tags ↔ ∃ scene ∈ document.scenes, ∃ slide ∈ scene.elements,
    slide.isSlide ∧ slide.param? "lang" = some tag
  oneLanguage : tags.length ≤ 1 →
    (Publisher.mk config none).render document = .ok [.unfiltered config none document]
  severalLanguages : 1 < tags.length →
    (Publisher.mk config none).render document =
      .ok (tags.map fun tag => .unfiltered config (some tag) (document.onlyLanguage tag))
  slideInOne : ∀ scene ∈ document.scenes, ∀ slide ∈ scene.elements, slide.isSlide →
    ∃! tag, tag ∈ tags ∧ slide ∈ (scene.onlyLanguage tag).elements
  othersInAll : ∀ scene ∈ document.scenes, ∀ element ∈ scene.elements, element.isSlide = false →
    ∀ tag ∈ tags, element ∈ (scene.onlyLanguage tag).elements
  requested : ∀ request tag, Language.resolve? request tags = some tag → tag ∈ tags ∧
    (Publisher.mk config (some request)).render document =
      .ok [.unfiltered config (some tag) (document.onlyLanguage tag)]
  requestedOfOne : tags.length = 1 → ∀ request tag, Language.resolve? request tags = some tag →
    (Publisher.mk config (some request)).render document =
      .ok [.unfiltered config (some tag) document]

namespace Element

variable {element : Element}

/-- A slide is in the output for its language. -/
theorem inLanguage_slide (isSlide : element.isSlide) {tag : Text} :
    element.inLanguage tag ↔ element.param? "lang" = some tag := by
  rw [inLanguage, isSlide, Bool.not_true, Bool.false_or, decide_eq_true_iff]

/-- Everything else is in all outputs. -/
theorem inLanguage_other (notSlide : element.isSlide = false) (tag : Text) :
    element.inLanguage tag := by
  rw [inLanguage, notSlide, Bool.not_false, Bool.true_or]

theorem languageTag?_eq_some {tag : Text} :
    element.languageTag? = some tag ↔ element.param? "lang" = some tag ∧ tag ≠ [] := by
  simp [languageTag?, Option.filter_eq_some_iff]

end Element

/-! ## Tags -/

namespace Document

/-- The slides of a document are those that are placed. -/
theorem map_placedSlides (document : Document) :
    document.placedSlides.map (fun (_, _, slide) => slide) =
      document.scenes.flatMap fun scene => scene.elements.filter Element.isSlide := by
  rw [placedSlides, List.map_flatMap]
  apply List.flatMap_congr
  intro scene _
  have numbered : (scene.elements.zipIdx 1).map Prod.fst = scene.elements :=
    List.zipIdx_map_fst 1 scene.elements
  rw [List.map_map]
  conv_rhs => rw [← numbered, List.filter_map]
  rfl

theorem mem_map_placedSlides {document : Document} {slide : Element} :
    slide ∈ document.placedSlides.map (fun (_, _, slide) => slide) ↔
      ∃ scene ∈ document.scenes, slide ∈ scene.elements ∧ slide.isSlide := by
  rw [map_placedSlides, List.mem_flatMap]
  simp only [List.mem_filter]

variable {document : Document} {tags : List Text}

/-- The tags of a document whose slides all have one. -/
theorem languages_eq_ok (discovered : document.languages = .ok tags) :
    (∀ slide ∈ document.placedSlides.map (fun (_, _, slide) => slide),
      slide.languageTag? ≠ none) ∧
      tags = distinctTags
        ((document.placedSlides.map (fun (_, _, slide) => slide)).filterMap
          Element.languageTag?) := by
  rw [languages] at discovered
  split at discovered
  · cases discovered
  · rename_i complete
    obtain rfl := Except.ok.inj discovered
    constructor
    · intro slide member
      obtain ⟨⟨scene, position, other⟩, placed, rfl⟩ := List.mem_map.mp member
      simpa using List.find?_eq_none.mp complete _ placed
    · rw [List.filterMap_map]
      rfl

end Document

theorem mem_distinctTags {tags : List Text} {tag : Text} :
    tag ∈ distinctTags tags ↔ tag ∈ tags := by
  rw [distinctTags, OrderedMap.mem_keys_ofList, List.map_map]
  simp

theorem rising_distinctTags (tags : List Text) :
    (distinctTags tags).Pairwise fun a b => Text.utf8 a < Text.utf8 b :=
  (OrderedMap.keys_rising _).imp Text.utf8_lt_of_compare

namespace Document

variable {document : Document} {tags : List Text}

/-- A tag of a document is not empty and is the tag of one of its slides. -/
theorem mem_languages (discovered : document.languages = .ok tags) {tag : Text} :
    tag ∈ tags ↔ tag ≠ [] ∧ ∃ scene ∈ document.scenes, ∃ slide ∈ scene.elements,
      slide.isSlide ∧ slide.param? "lang" = some tag := by
  obtain ⟨-, rfl⟩ := languages_eq_ok discovered
  rw [mem_distinctTags, List.mem_filterMap]
  constructor
  · rintro ⟨slide, member, tagged⟩
    obtain ⟨scene, inDocument, inScene, isSlide⟩ := mem_map_placedSlides.mp member
    obtain ⟨named, nonempty⟩ := Element.languageTag?_eq_some.mp tagged
    exact ⟨nonempty, scene, inDocument, slide, inScene, isSlide, named⟩
  · rintro ⟨nonempty, scene, inDocument, slide, inScene, isSlide, named⟩
    refine ⟨slide, mem_map_placedSlides.mpr ⟨scene, inDocument, inScene, isSlide⟩, ?_⟩
    exact Element.languageTag?_eq_some.mpr ⟨named, nonempty⟩

/-- Every slide of a document with tags has one of them. -/
theorem exists_tag_of_slide (discovered : document.languages = .ok tags) {scene : Scene}
    (inDocument : scene ∈ document.scenes) {slide : Element} (inScene : slide ∈ scene.elements)
    (isSlide : slide.isSlide) : ∃ tag ∈ tags, slide.param? "lang" = some tag := by
  have tagged := (languages_eq_ok discovered).1 slide
    (mem_map_placedSlides.mpr ⟨scene, inDocument, inScene, isSlide⟩)
  obtain ⟨tag, found⟩ := Option.ne_none_iff_exists'.mp tagged
  obtain ⟨named, nonempty⟩ := Element.languageTag?_eq_some.mp found
  have member := (mem_languages discovered).mpr
    ⟨nonempty, scene, inDocument, slide, inScene, isSlide, named⟩
  exact ⟨tag, member, named⟩

/-- The tags of a document are exactly those of its slides. -/
theorem mem_languages_iff (discovered : document.languages = .ok tags) {tag : Text} :
    tag ∈ tags ↔ ∃ scene ∈ document.scenes, ∃ slide ∈ scene.elements,
      slide.isSlide ∧ slide.param? "lang" = some tag := by
  constructor
  · exact fun member => ((mem_languages discovered).mp member).2
  · rintro ⟨scene, inDocument, slide, inScene, isSlide, named⟩
    obtain ⟨other, member, same⟩ := exists_tag_of_slide discovered inDocument inScene isSlide
    obtain rfl := Option.some.inj (named.symm.trans same)
    exact member

/-- Every slide is in the output for one tag and in no other. -/
theorem existsUnique_tag_of_slide (discovered : document.languages = .ok tags) {scene : Scene}
    (inDocument : scene ∈ document.scenes) {slide : Element} (inScene : slide ∈ scene.elements)
    (isSlide : slide.isSlide) : ∃! tag, tag ∈ tags ∧ slide ∈ (scene.onlyLanguage tag).elements := by
  obtain ⟨tag, member, named⟩ := exists_tag_of_slide discovered inDocument inScene isSlide
  refine ⟨tag, ⟨member, ?_⟩, ?_⟩
  · exact List.mem_filter.mpr ⟨inScene, (Element.inLanguage_slide isSlide).mpr named⟩
  · rintro other ⟨-, shown⟩
    have passed := (Element.inLanguage_slide isSlide).mp (List.mem_filter.mp shown).2
    exact Option.some.inj (passed.symm.trans named)

/-- Where there is one tag, no slide is in another language. -/
theorem onlyLanguage_eq_self (discovered : document.languages = .ok tags) {tag : Text}
    (single : tags = [tag]) : document.onlyLanguage tag = document := by
  have kept : ∀ scene ∈ document.scenes, scene.onlyLanguage tag = scene := by
    intro scene inDocument
    have all : ∀ element ∈ scene.elements, element.inLanguage tag = true := by
      intro element inScene
      cases isSlide : element.isSlide with
      | false => exact Element.inLanguage_other isSlide tag
      | true =>
        obtain ⟨other, member, named⟩ := exists_tag_of_slide discovered inDocument inScene isSlide
        rw [single, List.mem_singleton] at member
        rw [member] at named
        exact (Element.inLanguage_slide isSlide).mpr named
    rw [Scene.onlyLanguage, List.filter_eq_self.mpr all]
  have scenes : document.scenes.map (Scene.onlyLanguage tag) = document.scenes :=
    List.map_congr_left kept |>.trans (List.map_id _)
  rw [onlyLanguage, scenes]

end Document

/-! ## Rendering -/

namespace Latex

/-- A language filter acts as the deletion of slides. -/
theorem renderScene_some (tag : Text) (scene : Scene) :
    renderScene (some tag) scene = renderScene none (scene.onlyLanguage tag) := by
  have unfiltered : ((scene.onlyLanguage tag).elements).filter (passes none) =
      (scene.onlyLanguage tag).elements := List.filter_eq_self.mpr fun _ _ => rfl
  rw [renderScene, renderScene, unfiltered]
  rfl

/-- Rendering in a language is rendering without the slides of other languages. -/
theorem renderDocument_some (settings : Settings) {tag : Text} (nonempty : tag ≠ [])
    (document : Document) :
    renderDocument settings (some tag) document =
      renderDocument settings none (document.onlyLanguage tag) := by
  have active : activeFilter (some tag) = some tag := by simp [activeFilter, nonempty]
  have inactive : activeFilter none = none := rfl
  have scenes : (document.onlyLanguage tag).scenes.flatMap (renderScene none) =
      document.scenes.flatMap (renderScene (some tag)) := by
    rw [Document.onlyLanguage, List.flatMap_map]
    apply List.flatMap_congr
    intro scene _
    exact (renderScene_some tag scene).symm
  rw [renderDocument, renderDocument, active, inactive, scenes]
  rfl

end Latex

/-- A request can only mean a tag that is there. -/
theorem Language.mem_of_resolve?_eq_some {request tag : Text} {tags : List Text}
    (resolved : resolve? request tags = some tag) : tag ∈ tags := by
  rw [resolve?] at resolved
  split at resolved
  · rename_i found
    obtain rfl := Option.some.inj resolved
    exact List.mem_of_find?_eq_some found
  · exact List.mem_of_find?_eq_some resolved

namespace Publisher

/-- The languages that are rendered are distinct tags of the deck, or there is none. -/
theorem targets_eq_ok {publisher : Publisher} {tags : List Text} (distinct : tags.Nodup)
    {targets : List (Option Text)} (chosen : publisher.targets tags = .ok targets) :
    targets.Nodup ∧ ∀ tag, some tag ∈ targets → tag ∈ tags := by
  rw [Publisher.targets] at chosen
  split at chosen
  · split at chosen
    · rename_i resolved
      obtain rfl := Except.ok.inj chosen
      refine ⟨List.nodup_singleton _, ?_⟩
      intro tag member
      obtain rfl := Option.some.inj (List.mem_singleton.mp member)
      exact Language.mem_of_resolve?_eq_some resolved
    · cases chosen
  · obtain rfl := Except.ok.inj chosen
    split
    · refine ⟨distinct.map (Option.some_injective _), ?_⟩
      intro tag member
      simpa using member
    · exact ⟨List.nodup_singleton _, fun tag member => by simp at member⟩

/-- The outputs of a document are in distinct languages, which slides have as their tags. -/
theorem languages_of_render {publisher : Publisher} {document : Document} {outputs : List Output}
    (rendered : publisher.render document = .ok outputs) :
    (outputs.map Output.language).Nodup ∧
      ∀ output ∈ outputs, ∀ tag ∈ output.language, ∃ scene ∈ document.scenes,
        ∃ slide ∈ scene.elements, slide.isSlide ∧ slide.param? "lang" = some tag := by
  rw [render] at rendered
  cases discovered : document.languages with
  | error error =>
    rw [discovered] at rendered
    cases rendered
  | ok tags =>
    rw [discovered] at rendered
    cases chosen : publisher.targets tags with
    | error error =>
      simp only [chosen] at rendered
      cases rendered
    | ok targets =>
      simp only [chosen] at rendered
      obtain rfl := Except.ok.inj rendered
      have distinct : tags.Nodup := by
        obtain ⟨-, rfl⟩ := Document.languages_eq_ok discovered
        exact OrderedMap.keys_nodup _
      obtain ⟨nodup, ofDeck⟩ := targets_eq_ok distinct chosen
      have languages : (targets.map fun language => Output.mk language
          (Latex.renderDocument publisher.config.latex language document)).map Output.language =
            targets := by
        rw [List.map_map]
        exact List.map_id targets
      refine ⟨by rwa [languages], ?_⟩
      intro output member tag isTag
      have inTargets : some tag ∈ targets := by
        rw [← languages, ← Option.mem_def.mp isTag]
        exact List.mem_map_of_mem member
      exact (Document.mem_languages_iff discovered).mp (ofDeck tag inTargets)

section

variable {document : Document} {tags : List Text} (discovered : document.languages = .ok tags)
include discovered

/-- An output for a tag of the document. -/
theorem output_eq_unfiltered (config : Config) {tag : Text} (member : tag ∈ tags) :
    Output.mk (some tag) (Latex.renderDocument config.latex (some tag) document) =
      .unfiltered config (some tag) (document.onlyLanguage tag) := by
  have nonempty := ((Document.mem_languages discovered).mp member).1
  rw [Output.unfiltered, Latex.renderDocument_some _ nonempty]

theorem render_requested (config : Config) {request tag : Text}
    (resolved : Language.resolve? request tags = some tag) :
    (Publisher.mk config (some request)).render document =
      .ok [.unfiltered config (some tag) (document.onlyLanguage tag)] := by
  have member := Language.mem_of_resolve?_eq_some resolved
  have targets : (Publisher.mk config (some request)).targets tags = .ok [some tag] := by
    rw [Publisher.targets]
    simp only [resolved]
  rw [render, discovered]
  simp only [targets, Except.map, List.map_cons, List.map_nil,
    output_eq_unfiltered discovered config member]

/-- Rendering goes by language, for every document whose slides all have one and every
configuration. -/
theorem rendersByLanguage (config : Config) : RendersByLanguage config document tags where
  rising := by
    obtain ⟨-, rfl⟩ := Document.languages_eq_ok discovered
    exact rising_distinctTags _
  tagsOfSlides := fun _ => Document.mem_languages_iff discovered
  oneLanguage := by
    intro few
    have one : ¬ 1 < tags.length := by omega
    rw [render, discovered]
    simp only [targets, if_neg one, Except.map, List.map_cons, List.map_nil, Output.unfiltered]
  severalLanguages := by
    intro several
    rw [render, discovered]
    simp only [targets, if_pos several, Except.map, List.map_map]
    congr 1
    apply List.map_congr_left
    intro tag member
    exact output_eq_unfiltered discovered config member
  slideInOne := fun _ inDocument _ inScene isSlide =>
    Document.existsUnique_tag_of_slide discovered inDocument inScene isSlide
  othersInAll := by
    intro scene _ element inScene notSlide tag _
    exact List.mem_filter.mpr ⟨inScene, Element.inLanguage_other notSlide tag⟩
  requested := by
    intro request tag resolved
    exact ⟨Language.mem_of_resolve?_eq_some resolved, render_requested discovered config resolved⟩
  requestedOfOne := by
    intro one request tag resolved
    have member := Language.mem_of_resolve?_eq_some resolved
    obtain ⟨only, single⟩ := List.length_eq_one_iff.mp one
    obtain rfl : tag = only := by rwa [single, List.mem_singleton] at member
    rw [render_requested discovered config resolved,
      Document.onlyLanguage_eq_self discovered single]

end

/-- A deck in two languages, with a quiz that belongs to neither. -/
def sampleDeck : Document where
  header := ⟨"T", "A", []⟩
  scenes := [⟨"One", [
    ⟨"Slide", ⟨[("lang", "EN")], by decide⟩, "- Hello"⟩,
    ⟨"Slide", ⟨[("lang", "DE")], by decide⟩, "- Hallo"⟩,
    ⟨"Quiz", ⟨[("name", "warmup")], by decide⟩, []⟩]⟩]

theorem languages_sampleDeck : sampleDeck.languages = .ok [("DE" : Text), "EN"] := by
  rfl

theorem rendersByLanguage_sampleDeck :
    sampleDeck.languages = .ok [("DE" : Text), "EN"] ∧
      RendersByLanguage Config.standard sampleDeck ["DE", "EN"] :=
  ⟨languages_sampleDeck, rendersByLanguage languages_sampleDeck Config.standard⟩

end Publisher
end Lectern
