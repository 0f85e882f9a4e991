import Lectern.Proofs.Deck.Contained
import Lectern.Proofs.Latex.Document

/-!
# Lines of the output

A document that was read has no line feed in any text that the renderer places on a line of its
own, and the renderer adds none. So the output falls back into the lines it was joined from, and
what an author wrote in a comment stays in that comment: `LineByLine` says both for one document,
and `lineByLine_of_contained` proves it.
-/

namespace Lectern

/-- The second document is the first one with this element taken out of one scene. -/
inductive Document.Without (element : Element) : Document → Document → Prop where
  | intro (header : Header) (front back : List Scene) (title : Text) (lead rest : List Element) :
    Without element ⟨header, front ++ ⟨title, lead ++ element :: rest⟩ :: back⟩
      ⟨header, front ++ ⟨title, lead ++ rest⟩ :: back⟩

/-- Taking out an element leaves the others at their places. -/
theorem Document.Without.contained {element : Element} {document others : Document}
    (without : Document.Without element document others) (contained : document.Contained) :
    others.Contained := by
  cases without with
  | intro header front back title lead rest =>
    refine ⟨contained.header, ?_⟩
    intro scene member
    rcases List.mem_append.mp member with inFront | behind
    · exact contained.scenes scene (List.mem_append_left _ inFront)
    rcases List.mem_cons.mp behind with rfl | inBack
    · have whole := contained.scenes ⟨title, lead ++ element :: rest⟩ (by simp)
      refine ⟨whole.noFeed, whole.trimmed, ?_⟩
      intro other inside
      refine whole.elements other ?_
      rcases List.mem_append.mp inside with inLead | inRest
      · exact List.mem_append_left _ inLead
      · exact List.mem_append_right _ (List.mem_cons_of_mem _ inRest)
    · exact contained.scenes scene (List.mem_append_right _ (List.mem_cons_of_mem _ inBack))

namespace Latex

/-- Settings on one line. -/
structure Settings.OneLine (settings : Settings) : Prop where
  classOptions : '\n' ∉ settings.classOptions
  theme : '\n' ∉ settings.theme

/-- The number of comment lines for an element of a kind that is rendered as comments only. -/
def commentCount? : ElementKind → Option Nat
  | .slide | .code => none
  | .teleprompt | .video | .screencast | .quiz => some 2
  | .unknown _ => some 1
  | .button => some 0

/-- The output of a document falls back into its lines. An element that is rendered as comments
adds its lines, which are as many as its kind says and comments all, and changes no other line. -/
structure LineByLine (settings : Settings) (language : Option Text) (document : Document) :
    Prop where
  split : (render settings language document).splitOn '\n' =
    renderDocument settings language document
  comments : ∀ element others count, Document.Without element document others →
    commentCount? element.kind = some count →
      ∃ before after,
        (render settings language document).splitOn '\n' =
          before ++ renderElement element ++ after ∧
        (render settings language others).splitOn '\n' = before ++ after ∧
        (renderElement element).length = count ∧
        ∀ line ∈ renderElement element, ("% " : Text) <+: line

/-- Lines without line feeds. -/
def Unbroken (lines : List Text) : Prop := ∀ line ∈ lines, '\n' ∉ line

namespace Unbroken

theorem nil : Unbroken [] := fun _ member => nomatch member

theorem single {line : Text} (noFeed : '\n' ∉ line) : Unbroken [line] := by
  intro other member
  rwa [List.mem_singleton.mp member]

theorem append {first second : List Text} (left : Unbroken first) (right : Unbroken second) :
    Unbroken (first ++ second) :=
  fun line member => (List.mem_append.mp member).elim (left line) (right line)

theorem flatMap {α : Type} {items : List α} {linesOf : α → List Text}
    (each : ∀ item ∈ items, Unbroken (linesOf item)) : Unbroken (items.flatMap linesOf) := by
  intro line member
  obtain ⟨item, inItems, inLines⟩ := List.mem_flatMap.mp member
  exact each item inItems line inLines

end Unbroken

/-! ## Texts -/

theorem noFeed_escapeAmpersand {text : Text} (noFeed : '\n' ∉ text) :
    '\n' ∉ escapeAmpersand text := by
  intro member
  obtain ⟨c, inText, made⟩ := List.mem_flatMap.mp member
  split at made
  · exact absurd made (by decide)
  · obtain rfl := List.mem_singleton.mp made
    exact noFeed inText

/-- Emphasis adds no line feed: a command has none, and its argument is a part of the text. -/
theorem noFeed_replace_emphasis {stars name : Text} (nonempty : stars ≠ [])
    (all : ∀ c ∈ stars, c = '*') (noFeedInName : '\n' ∉ name) {text : Text} (noFeed : '\n' ∉ text) :
    '\n' ∉ Text.replace (emphasis? stars name) text := by
  refine Text.absent_replace (goesForward_emphasis nonempty all) ?_ noFeed
  intro text image after read absent
  obtain ⟨part, rfl, -, rfl⟩ := eq_of_emphasis?_eq_some read
  have noFeedInPart : '\n' ∉ part := fun member => absent (by simp [member])
  simp [command, braced, noFeedInName, noFeedInPart]

theorem noFeed_formatInline {line : Text} (noFeed : '\n' ∉ line) : '\n' ∉ formatInline line := by
  have stripped : '\n' ∉ Remark.strip line := fun member => noFeed (Remark.strip_subset line member)
  have strong : '\n' ∉ formatStrong (Remark.strip line) :=
    noFeed_replace_emphasis (by decide) (by simp) (by decide) stripped
  have emphasised : '\n' ∉ formatEmphasis (formatStrong (Remark.strip line)) :=
    noFeed_replace_emphasis (by decide) (by simp) (by decide) strong
  exact noFeed_escapeAmpersand emphasised

theorem noFeed_textWidth (percent : Nat) : '\n' ∉ textWidth percent := by
  have digits (n : Nat) : '\n' ∉ Text.ofNat n := by
    intro member
    have isDigit : Char.isDigit '\n' := Nat.isDigit_of_mem_toDigits (by decide) (by decide) member
    exact absurd isDigit (by decide)
  have zero : '\n' ∉ (if percent % 100 < 10 then "0" else "" : String).toList := by
    split <;> decide
  simp [textWidth, digits, zero]

theorem noFeed_comment {text : Text} (noFeed : '\n' ∉ text) : '\n' ∉ comment text := by
  simp [comment, noFeed]

/-! ## Slide content -/

section

variable {indent : Text} (noFeedInIndent : '\n' ∉ indent)
include noFeedInIndent

theorem unbroken_codePlaceholder : Unbroken (codePlaceholder indent) := by
  simp [Unbroken, codePlaceholder, opening, closing, command, braced, noFeedInIndent]

theorem unbroken_imageBlock {source : Text} (noFeed : '\n' ∉ source) :
    Unbroken (imageBlock indent source) := by
  simp [Unbroken, imageBlock, opening, closing, command, braced, noFeedInIndent, noFeed]

theorem unbroken_openList (state : ListState) : Unbroken (openList indent state) := by
  cases state with
  | outside => simp [Unbroken, openList, opening, command, braced, noFeedInIndent]
  | inside => exact Unbroken.nil

theorem unbroken_closeList (state : ListState) : Unbroken (closeList indent state) := by
  cases state with
  | outside => exact Unbroken.nil
  | inside => simp [Unbroken, closeList, closing, command, braced, noFeedInIndent]

theorem noFeed_plainLine {line : Text} (noFeed : '\n' ∉ line) : '\n' ∉ plainLine indent line := by
  rw [plainLine, List.mem_append, not_or]
  refine ⟨noFeedInIndent, ?_⟩
  split
  · decide
  · exact noFeed_formatInline noFeed

/-- What one content line adds to the output is unbroken, whatever the line is read as. -/
theorem unbroken_renderLine {line : Text} (noFeed : '\n' ∉ line) (state : ListState) :
    Unbroken (renderLine indent state line).2 := by
  have closed := unbroken_closeList noFeedInIndent state
  rw [renderLine]
  cases reading : BodyLine.classify line with
  | column width => exact Unbroken.nil
  | button => exact Unbroken.nil
  | code => exact closed.append (unbroken_codePlaceholder noFeedInIndent)
  | image source =>
    cases source with
    | none => exact Unbroken.nil
    | some source =>
      have noFeedInSource : '\n' ∉ source := fun member =>
        noFeed (BodyLine.subset_of_classify_eq_image reading member)
      exact closed.append (unbroken_imageBlock noFeedInIndent noFeedInSource)
  | bullet text =>
    have noFeedInText : '\n' ∉ text := fun member =>
      noFeed (BodyLine.subset_of_classify_eq_bullet reading member)
    have item : '\n' ∉ indent ++ "  \\item " ++ formatInline text := by
      simp [noFeedInIndent, noFeed_formatInline noFeedInText]
    exact (unbroken_openList noFeedInIndent state).append (Unbroken.single item)
  | plain => exact closed.append (Unbroken.single (noFeed_plainLine noFeedInIndent noFeed))

theorem unbroken_renderLinesFrom {lines : List Text} (noFeed : Unbroken lines)
    (state : ListState) : Unbroken (renderLinesFrom indent state lines) := by
  induction lines generalizing state with
  | nil => exact unbroken_closeList noFeedInIndent state
  | cons line lines ih =>
    have here := unbroken_renderLine noFeedInIndent (noFeed line (by simp)) state
    exact here.append (ih (fun other member => noFeed other (by simp [member])) _)

end

theorem unbroken_renderColumn {column : Column} (noFeed : Unbroken column.lines) :
    Unbroken (renderColumn column) := by
  have opened : Unbroken ["  " ++ opening "column" ++ braced (textWidth column.percent)] := by
    simp [Unbroken, opening, command, braced, noFeed_textWidth]
  have content : Unbroken (renderLines "    " column.lines) :=
    unbroken_renderLinesFrom (by decide) noFeed .outside
  exact (opened.append content).append (Unbroken.single (by decide))

/-- Slide content in its layout is unbroken, because a layout shows lines. -/
theorem unbroken_renderLayout (content : Text) :
    Unbroken (renderLayout (.ofContent content)) := by
  have noFeed : Unbroken (Layout.ofContent content).lines := fun line member =>
    Text.noFeed_of_mem_lines (Layout.lines_ofContent_subset content member)
  cases layout : Layout.ofContent content with
  | single lines =>
    rw [layout] at noFeed
    exact unbroken_renderLinesFrom (by decide) noFeed .outside
  | columns columns =>
    have each : ∀ column ∈ columns, Unbroken (renderColumn column) := by
      intro column member
      apply unbroken_renderColumn
      intro line inColumn
      refine noFeed line ?_
      rw [layout]
      exact List.mem_flatMap.mpr ⟨column, member, inColumn⟩
    exact ((Unbroken.single (by decide)).append (Unbroken.flatMap each)).append
      (Unbroken.single (by decide))

/-! ## Elements, scenes and documents -/

theorem unbroken_frameOpening {title : Text} (noFeed : '\n' ∉ title) :
    Unbroken (frameOpening title) := by
  simp [Unbroken, frameOpening, opening, command, braced, noFeed]

section

variable {element : Element} (contained : element.Contained)
include contained

/-- A parameter of an element, or its fallback, stays on its line. -/
theorem noFeed_param (key : Text) {fallback : Text} (noFeed : '\n' ∉ fallback) :
    '\n' ∉ escapeAmpersand (element.paramOr key fallback) := by
  have values : ∀ binding ∈ element.params.entries, '\n' ∉ binding.2 := fun binding member =>
    (contained.params binding member).noFeedInValue
  exact noFeed_escapeAmpersand (element.absent_paramOr values noFeed key)

theorem noFeed_displayName : '\n' ∉ element.kind.displayName :=
  element.absent_displayName contained.noFeedInType (by decide)

theorem unbroken_renderComment {label fallback : Text} (noFeedInLabel : '\n' ∉ label) (key : Text)
    (noFeedInFallback : '\n' ∉ fallback) :
    Unbroken (renderComment element label key fallback) := by
  have name : '\n' ∉ element.kind.displayName ++ " element is not rendered in LaTeX" := by
    simp [noFeed_displayName contained]
  have value : '\n' ∉ label ++ ": " ++ escapeAmpersand (element.paramOr key fallback) := by
    simp [noFeedInLabel, noFeed_param contained key noFeedInFallback]
  exact (Unbroken.single (noFeed_comment name)).append (Unbroken.single (noFeed_comment value))

/-- Every element that keeps to its place is rendered to unbroken lines. -/
theorem unbroken_renderElement : Unbroken (renderElement element) := by
  rw [renderElement]
  cases kind : element.kind with
  | slide =>
    have title : '\n' ∉ escapeAmpersand (element.paramOr "title" "Slide") :=
      noFeed_param contained "title" (by decide)
    have remark : Unbroken ["  " ++ comment "Slide content:"] := Unbroken.single (by decide)
    have content := unbroken_renderLayout element.content
    have opened := (unbroken_frameOpening title).append remark
    exact (opened.append content).append (Unbroken.single (by decide))
  | teleprompt => exact unbroken_renderComment contained (by decide) "title" (by decide)
  | code =>
    have label : '\n' ∉ ("Code: " : Text) := by decide
    have snippet : '\n' ∉ escapeAmpersand (element.paramOr "snippet" "Code") :=
      noFeed_param contained "snippet" (by decide)
    have title := List.not_mem_append label snippet
    have box : Unbroken (codePlaceholder "  ") := unbroken_codePlaceholder (by decide)
    exact ((unbroken_frameOpening title).append box).append (Unbroken.single (by decide))
  | video => exact unbroken_renderComment contained (by decide) "source" (by decide)
  | screencast => exact unbroken_renderComment contained (by decide) "source" (by decide)
  | quiz => exact unbroken_renderComment contained (by decide) "name" (by decide)
  | button => exact Unbroken.nil
  | unknown name =>
    have noFeedInName := noFeed_displayName contained
    rw [kind] at noFeedInName
    have known : '\n' ∉ name := noFeedInName
    exact Unbroken.single (noFeed_comment (by simp [known]))

end

theorem unbroken_renderScene {scene : Scene} (contained : scene.Contained)
    (filter : Option Text) : Unbroken (renderScene filter scene) := by
  have heading : Unbroken [comment ("Scene: " ++ scene.title)] :=
    Unbroken.single (noFeed_comment (by simp [contained.noFeed]))
  have shown : Unbroken ((scene.elements.filter (passes filter)).flatMap renderElement) := by
    apply Unbroken.flatMap
    intro element member
    exact unbroken_renderElement (contained.elements element (List.mem_filter.mp member).1)
  exact (heading.append shown).append (Unbroken.single List.not_mem_nil)

theorem unbroken_renderHeader {settings : Settings} (oneLine : settings.OneLine) {header : Header}
    (fields : header.OneLine) : Unbroken (renderHeader settings header) := by
  simp [Unbroken, renderHeader, comment, opening, closing, command, braced, oneLine.classOptions,
    oneLine.theme, fields.title, fields.author]

theorem unbroken_renderDocument {settings : Settings} (oneLine : settings.OneLine)
    {document : Document} (contained : document.Contained) (language : Option Text) :
    Unbroken (renderDocument settings language document) := by
  have scenes : Unbroken (document.scenes.flatMap (renderScene (activeFilter language))) := by
    apply Unbroken.flatMap
    intro scene member
    exact unbroken_renderScene (contained.scenes scene member) (activeFilter language)
  exact ((unbroken_renderHeader oneLine contained.header).append scenes).append
    (Unbroken.single (by decide))

/-- The lines of the output are the lines it was joined from. -/
theorem splitOn_render {settings : Settings} (oneLine : settings.OneLine) {document : Document}
    (contained : document.Contained) (language : Option Text) :
    (render settings language document).splitOn '\n' =
      renderDocument settings language document :=
  List.splitOn_intercalate '\n' (unbroken_renderDocument oneLine contained language)
    (by simp [renderDocument])

/-! ## Elements that are comments -/

/-- The lines of an element that is rendered as comments. -/
theorem comments_renderElement {element : Element} {count : Nat}
    (known : commentCount? element.kind = some count) :
    (renderElement element).length = count ∧
      ∀ line ∈ renderElement element, ("% " : Text) <+: line := by
  have all (texts : List Text) : ∀ line ∈ texts.map comment, ("% " : Text) <+: line := by
    intro line member
    obtain ⟨text, -, rfl⟩ := List.mem_map.mp member
    exact List.prefix_append ..
  rw [renderElement]
  cases kind : element.kind with
  | slide => simp [kind, commentCount?] at known
  | code => simp [kind, commentCount?] at known
  | teleprompt | video | screencast | quiz =>
    rw [kind] at known
    obtain rfl := Option.some.inj known
    exact ⟨rfl, all [_, _]⟩
  | button =>
    rw [kind] at known
    obtain rfl := Option.some.inj known
    exact ⟨rfl, all []⟩
  | unknown name =>
    rw [kind] at known
    obtain rfl := Option.some.inj known
    exact ⟨rfl, all [_]⟩

/-- A filter leaves elements in that are comments. -/
theorem passes_of_commentCount? {element : Element} {count : Nat}
    (known : commentCount? element.kind = some count) (filter : Option Text) :
    passes filter element := by
  have noSlide : element.isSlide = false := by
    rw [Element.isSlide, decide_eq_false_iff_not]
    intro isSlide
    rw [isSlide] at known
    cases known
  cases filter with
  | none => rfl
  | some language => simp [passes, noSlide]

/-- Taking out an element that the filter leaves in takes out its lines. -/
theorem renderDocument_of_without {element : Element} {document others : Document}
    (without : Document.Without element document others) {language : Option Text}
    (shown : passes (activeFilter language) element) (settings : Settings) :
    ∃ before after,
      renderDocument settings language document = before ++ renderElement element ++ after ∧
      renderDocument settings language others = before ++ after := by
  cases without with
  | intro header front back title lead rest =>
    let linesOf (elements : List Element) :=
      (elements.filter (passes (activeFilter language))).flatMap renderElement
    refine ⟨renderHeader settings header ++ front.flatMap (renderScene (activeFilter language)) ++
        [comment ("Scene: " ++ title)] ++ linesOf lead,
      linesOf rest ++ [[]] ++ back.flatMap (renderScene (activeFilter language)) ++
        [closing "document"], ?_, ?_⟩
    · simp [renderDocument, renderScene, linesOf, List.filter_cons_of_pos shown]
    · simp [renderDocument, renderScene, linesOf]

/-- In a document that keeps to its places, the output is line by line what the parts make of it. -/
theorem lineByLine_of_contained {settings : Settings} (oneLine : settings.OneLine)
    {document : Document} (contained : document.Contained) (language : Option Text) :
    LineByLine settings language document where
  split := splitOn_render oneLine contained language
  comments := by
    intro element others count without known
    have shown := passes_of_commentCount? known (activeFilter language)
    obtain ⟨before, after, whole, remaining⟩ :=
      renderDocument_of_without without shown settings
    obtain ⟨length, comments⟩ := comments_renderElement known
    refine ⟨before, after, ?_, ?_, length, comments⟩
    · rw [splitOn_render oneLine contained language, whole]
    · rw [splitOn_render oneLine (without.contained contained) language, remaining]

/-- Whatever text is read, author text keeps to its line and to its comment: the document that is
read is contained, and every rendering of it falls back into its lines. -/
theorem contained_and_lineByLine (source : Text) :
    (Document.parse source).Contained ∧
      ∀ settings : Settings, settings.OneLine → ∀ language : Option Text,
        LineByLine settings language (Document.parse source) := by
  have contained := Document.contained_parse source
  refine ⟨contained, ?_⟩
  intro settings oneLine language
  exact lineByLine_of_contained oneLine contained language

/-- A deck whose author tries to leave a comment by a return, a quote and a line of LaTeX. -/
theorem contained_and_lineByLine_escaping :
    Settings.standard.OneLine ∧
      LineByLine Settings.standard (some "EN") (Document.parse
        "# Scene: A\r\\input\n## Teleprompt(title=\"%\r\\end\")\n\\input\n## Note\n\\input") := by
  have oneLine : Settings.standard.OneLine := ⟨by decide, by decide⟩
  exact ⟨oneLine, (contained_and_lineByLine _).2 _ oneLine _⟩

end Latex
end Lectern
