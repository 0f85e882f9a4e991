import Lectern.Latex.Document
import Lectern.Proofs.Latex.Body
import Lectern.Proofs.Latex.Columns
import Lectern.Proofs.Deck.ElementTexts

/-!
# Nesting of rendered documents

Every part of a rendered document leads from the environments around it back to them: columns
inside a frame, frames and comments inside the document. `wellNested_render` puts the parts
together for every document without backslashes, all settings without them, and any language.
-/

namespace Lectern

/-- An element whose rendered texts have no backslash. Only the content of slides is rendered. -/
structure Element.NoBackslash (element : Element) : Prop where
  typeName : '\\' ∉ element.typeName
  values : ∀ binding ∈ element.params.entries, '\\' ∉ binding.2
  content : element.isSlide → '\\' ∉ element.content

/-- A document whose rendered texts have no backslash. -/
structure Document.NoBackslash (document : Document) : Prop where
  title : '\\' ∉ document.header.title
  author : '\\' ∉ document.header.author
  sceneTitles : ∀ scene ∈ document.scenes, '\\' ∉ scene.title
  elements : ∀ scene ∈ document.scenes, ∀ element ∈ scene.elements, element.NoBackslash

namespace Latex

/-- Settings without backslashes. -/
structure Settings.NoBackslash (settings : Settings) : Prop where
  classOptions : '\\' ∉ settings.classOptions
  theme : '\\' ∉ settings.theme

open Nesting

/-- The stack between the frames of a document. -/
def betweenFrames : List Environment := [⟨"document", false⟩]

/-- The stack inside a frame. -/
def insideFrame : List Environment := ⟨"frame", false⟩ :: betweenFrames

/-! ## Columns and layouts -/

/-- The argument of a column is silent: it has digits and the command for the text width. -/
theorem silent_textWidth (percent : Nat) : Silent (braced (textWidth percent)) := by
  have digits (n : Nat) : Silent (Text.ofNat n) := by
    apply Silent.of_noBackslash
    intro member
    have isDigit : Char.isDigit '\\' := Nat.isDigit_of_mem_toDigits (by decide) (by decide) member
    exact absurd isDigit (by decide)
  have opened : Silent ("\x7b" : Text) := .of_noBackslash (by decide)
  have dot : Silent ("." : Text) := .of_noBackslash (by decide)
  have zero : Silent (if percent % 100 < 10 then "0" else "" : String).toList := by
    split
    · exact .of_noBackslash (by decide)
    · exact Silent.nil
  have width : Silent ('\\' :: (("textwidth" : Text) ++ ['\x7d'])) :=
    .command (by decide) (by decide)
  have number := ((digits (percent / 100)).append dot).append zero
  have whole := ((opened.append number).append (digits (percent % 100))).append width
  have same : braced (textWidth percent) = ("\x7b" : Text) ++ (Text.ofNat (percent / 100) ++ "." ++
      (if percent % 100 < 10 then "0" else "" : String).toList) ++ Text.ofNat (percent % 100) ++
        '\\' :: (("textwidth" : Text) ++ ['\x7d']) := by
    simp [braced, textWidth]
  rw [same]
  exact whole

/-- A column leads from the columns around it back to them. -/
theorem leads_renderColumn {column : Column} (noBackslash : ∀ line ∈ column.lines, '\\' ∉ line) :
    Leads (⟨"columns", false⟩ :: insideFrame) (renderColumn column)
      (⟨"columns", false⟩ :: insideFrame) := by
  have may : MayOpen "column" (⟨"columns", false⟩ :: insideFrame) := by decide
  have opens : tokens ("  " ++ opening "column" ++ braced (textWidth column.percent)) =
      [.opens "column"] := by
    rw [List.append_assoc, Silent.frameIndent, tokens_opening (by decide),
      (silent_textWidth column.percent).tokens_eq]
  have closes : tokens (("  " : Text) ++ closing "column") = [.closes "column"] := by decide
  exact Leads.environment may (by decide) opens
    (leads_renderLines Silent.columnIndent (List.cons_ne_nil _ _) noBackslash) closes

/-- Content in its layout leads from the frame around it back to the frame. -/
theorem leads_renderLayout {layout : Layout} (noBackslash : ∀ line ∈ layout.lines, '\\' ∉ line) :
    Leads insideFrame (renderLayout layout) insideFrame := by
  cases layout with
  | single lines => exact leads_renderLines Silent.frameIndent (List.cons_ne_nil _ _) noBackslash
  | columns columns =>
    have may : MayOpen "columns" insideFrame := by decide
    have opens : tokens (("  " : Text) ++ opening "columns" ++ "[t]") = [.opens "columns"] := by
      decide
    have closes : tokens (("  " : Text) ++ closing "columns") = [.closes "columns"] := by decide
    refine Leads.environment may (by decide) opens (Leads.flatMap ?_) closes
    intro column member
    apply leads_renderColumn
    intro line inColumn
    exact noBackslash line (List.mem_flatMap.mpr ⟨column, member, inColumn⟩)

/-! ## Elements -/

/-- A parameter of an element, or its fallback, is silent with its ampersands escaped. -/
theorem silent_param {element : Element} (noBackslash : element.NoBackslash) (key : Text)
    {fallback : Text} (noBackslashInFallback : '\\' ∉ fallback) :
    Silent (escapeAmpersand (element.paramOr key fallback)) := by
  have noBackslashInValue := element.absent_paramOr noBackslash.values noBackslashInFallback key
  exact (Inert.of_noBackslash noBackslashInValue).silent_escapeAmpersand

/-- A frame leads back to the document if what it shows leads back to the frame. -/
theorem leads_frame {title : Text} (silent : Silent title) {lines : List Text}
    (inside : Leads insideFrame lines insideFrame) :
    Leads betweenFrames (frameOpening title ++ lines ++ [closing "frame"]) betweenFrames := by
  have may : MayOpen "frame" betweenFrames := by decide
  have opens : tokens (opening "frame" ++ "[fragile]") = [.opens "frame"] := by decide
  have closes : tokens (closing "frame") = [.closes "frame"] := by decide
  have titleLine : tokens ("  " ++ command "frametitle" title) = [] := by
    have titled : Silent (command "frametitle" title) :=
      .command_argument (by decide) silent
    exact (Silent.frameIndent.append titled).tokens_eq
  have framed : Leads insideFrame (["  " ++ command "frametitle" title] ++ lines) insideFrame :=
    (Leads.quietLine titleLine).append inside
  exact Leads.environment may (by decide) opens framed closes

theorem leads_renderSlide {slide : Element} (noBackslash : slide.NoBackslash)
    (isSlide : slide.isSlide) : Leads betweenFrames (renderSlide slide) betweenFrames := by
  have title : Silent (escapeAmpersand (slide.paramOr "title" "Slide")) :=
    silent_param noBackslash "title" (by decide)
  have remark : tokens ("  " ++ comment "Slide content:") = [] := by decide
  have content : Leads insideFrame (renderLayout (.ofContent slide.content)) insideFrame := by
    apply leads_renderLayout
    intro line member inLine
    exact noBackslash.content isSlide (Layout.subset_of_mem_lines member inLine)
  have framed := leads_frame title ((Leads.quietLine remark).append content)
  rw [← List.append_assoc] at framed
  exact framed

theorem leads_renderCode {element : Element} (noBackslash : element.NoBackslash) :
    Leads betweenFrames (renderCode element) betweenFrames := by
  have label : Silent ("Code: " : Text) := .of_noBackslash (by decide)
  have snippet : Silent (escapeAmpersand (element.paramOr "snippet" "Code")) :=
    silent_param noBackslash "snippet" (by decide)
  exact leads_frame (label.append snippet)
    (leads_codePlaceholder Silent.frameIndent (List.cons_ne_nil _ _))

theorem leads_renderComment {element : Element} (noBackslash : element.NoBackslash)
    {label fallback : Text} (noBackslashInLabel : '\\' ∉ label) (key : Text)
    (noBackslashInFallback : '\\' ∉ fallback) :
    Leads betweenFrames (renderComment element label key fallback) betweenFrames := by
  have name : Silent element.kind.displayName :=
    .of_noBackslash (element.absent_displayName noBackslash.typeName (by decide))
  have rest : Silent (" element is not rendered in LaTeX" : Text) := .of_noBackslash (by decide)
  have labelled : Silent label := .of_noBackslash noBackslashInLabel
  have colon : Silent (": " : Text) := .of_noBackslash (by decide)
  have value := silent_param noBackslash key noBackslashInFallback
  have first := (name.append rest).comment
  have second := ((labelled.append colon).append value).comment
  exact (Leads.quietLine first.tokens_eq).append (Leads.quietLine second.tokens_eq)

/-- Every element leads back to where it stands, whatever its kind. -/
theorem leads_renderElement {element : Element} (noBackslash : element.NoBackslash) :
    Leads betweenFrames (renderElement element) betweenFrames := by
  rw [renderElement]
  cases kind : element.kind with
  | slide =>
    have isSlide : element.isSlide := by simp [Element.isSlide, kind]
    exact leads_renderSlide noBackslash isSlide
  | teleprompt => exact leads_renderComment noBackslash (by decide) "title" (by decide)
  | code => exact leads_renderCode noBackslash
  | video => exact leads_renderComment noBackslash (by decide) "source" (by decide)
  | screencast => exact leads_renderComment noBackslash (by decide) "source" (by decide)
  | quiz => exact leads_renderComment noBackslash (by decide) "name" (by decide)
  | button => exact Leads.nil
  | unknown name =>
    have noBackslashInName := element.absent_displayName noBackslash.typeName (by decide)
    rw [kind] at noBackslashInName
    have label : Silent ("Unknown element type: " : Text) := .of_noBackslash (by decide)
    have written : Silent name := .of_noBackslash noBackslashInName
    exact Leads.quietLine (label.append written).comment.tokens_eq

/-! ## Scenes and documents -/

theorem leads_renderScene {scene : Scene} (noBackslash : '\\' ∉ scene.title)
    (elements : ∀ element ∈ scene.elements, element.NoBackslash) (filter : Option Text) :
    Leads betweenFrames (renderScene filter scene) betweenFrames := by
  have label : Silent ("Scene: " : Text) := .of_noBackslash (by decide)
  have title : Silent scene.title := .of_noBackslash noBackslash
  have heading : Leads betweenFrames [comment ("Scene: " ++ scene.title)] betweenFrames :=
    Leads.quietLine (label.append title).comment.tokens_eq
  have shown : Leads betweenFrames ((scene.elements.filter (passes filter)).flatMap renderElement)
      betweenFrames := by
    apply Leads.flatMap
    intro element member
    exact leads_renderElement (elements element (List.mem_filter.mp member).1)
  exact (heading.append shown).append (Leads.quietLine rfl)

/-- What stands in front of the document environment. -/
def preamble (settings : Settings) (header : Header) : List Text :=
  [comment "Generated LaTeX presentation",
    "\\documentclass[" ++ settings.classOptions ++ "]" ++ braced "beamer",
    command "usepackage" settings.theme, command "title" header.title,
    command "author" header.author]

/-- What stands inside the document environment. -/
def documentBody (filter : Option Text) (document : Document) : List Text :=
  [opening "frame", "\\titlepage", closing "frame", []] ++
    document.scenes.flatMap (renderScene filter)

theorem renderDocument_eq (settings : Settings) (language : Option Text) (document : Document) :
    renderDocument settings language document = preamble settings document.header ++
      [opening "document"] ++ documentBody (activeFilter language) document ++
        [closing "document"] := by
  simp [renderDocument, renderHeader, preamble, documentBody]

theorem leads_documentBody {document : Document} (noBackslash : document.NoBackslash)
    (filter : Option Text) :
    Leads betweenFrames (documentBody filter document) betweenFrames := by
  have may : MayOpen "frame" betweenFrames := by decide
  have opens : tokens (opening "frame") = [.opens "frame"] := by decide
  have closes : tokens (closing "frame") = [.closes "frame"] := by decide
  have page : Leads insideFrame ["\\titlepage"] insideFrame := Leads.quietLine (by decide)
  have titleFrame := Leads.environment may (by decide) opens page closes
  have gap : Leads betweenFrames [[]] betweenFrames := Leads.quietLine rfl
  have scenes : Leads betweenFrames (document.scenes.flatMap (renderScene filter))
      betweenFrames := by
    apply Leads.flatMap
    intro scene member
    exact leads_renderScene (noBackslash.sceneTitles scene member)
      (noBackslash.elements scene member) filter
  exact (titleFrame.append gap).append scenes

theorem tokens_preamble {settings : Settings} (settingsNoBackslash : settings.NoBackslash)
    {header : Header} (title : '\\' ∉ header.title) (author : '\\' ∉ header.author) :
    (preamble settings header).flatMap tokens = [] := by
  have classLine :
      Silent ("\\documentclass[" ++ settings.classOptions ++ "]" ++ braced "beamer") := by
    have start : Silent ('\\' :: (("documentclass" : Text) ++ ['['])) :=
      .command (by decide) (by decide)
    have options : Silent settings.classOptions := .of_noBackslash settingsNoBackslash.classOptions
    have stop : Silent ("]" : Text) := .of_noBackslash (by decide)
    have name : Silent (braced "beamer") := .of_noBackslash (by decide)
    exact ((start.append options).append stop).append name
  have theme : Silent (command "usepackage" settings.theme) :=
    .command_argument (by decide) (.of_noBackslash settingsNoBackslash.theme)
  have titled : Silent (command "title" header.title) :=
    .command_argument (by decide) (.of_noBackslash title)
  have authored : Silent (command "author" header.author) :=
    .command_argument (by decide) (.of_noBackslash author)
  have generated : tokens (comment "Generated LaTeX presentation") = [] := by decide
  simp only [preamble, List.flatMap_cons, List.flatMap_nil, generated, classLine.tokens_eq,
    theme.tokens_eq, titled.tokens_eq, authored.tokens_eq, List.append_nil]

/-- Rendering a document without backslashes gives a well-nested text, for all settings without
backslashes and every language. -/
theorem wellNested_render {settings : Settings} (settingsNoBackslash : settings.NoBackslash)
    {document : Document} (noBackslash : document.NoBackslash) (language : Option Text) :
    WellNested (render settings language document) := by
  have body := leads_documentBody noBackslash (activeFilter language)
  have opens : tokens (opening "document") = [.opens "document"] := by decide
  have closes : tokens (closing "document") = [.closes "document"] := by decide
  have all : tokens (render settings language document) =
      .opens "document" :: ((documentBody (activeFilter language) document).flatMap tokens ++
        [.closes "document"]) := by
    rw [render, tokens_joinLines, renderDocument_eq]
    simp only [List.flatMap_append, List.flatMap_singleton, opens, closes,
      tokens_preamble settingsNoBackslash noBackslash.title noBackslash.author]
    simp only [List.nil_append, List.cons_append]
  constructor
  · have started : step? [] (.opens "document") = some betweenFrames := by decide
    have ended : step? betweenFrames (.closes "document") = some [] := by decide
    rw [all, run?, started, Option.bind_some, run?_append, body.run, Option.bind_some, run?, ended,
      Option.bind_some, run?]
  · rw [all, List.count_cons_self, List.count_append, List.count_eq_zero.mpr body.noDocument]
    decide
  · have longer : preamble settings document.header ++ [opening "document"] ++
        documentBody (activeFilter language) document ≠ [] := by simp
    have noFeed : '\n' ∉ closing "document" := by decide
    rw [render, renderDocument_eq, Text.joinLines_concat longer, List.splitOn_append_cons_self,
      List.splitOn_eq_singleton noFeed, List.getLast?_concat]

/-- A slide with two columns, a list that an image ends, emphasis and an open list at its end. -/
def sampleSlide : Element where
  typeName := "Slide"
  params := ⟨[("title", "Q & A")], by decide⟩
  content := "### Column width=1\n- **a** & *b*\n### Image source=\"x.png\"\n" ++
    "### Column width=2\n- c"

/-- A document with one slide and a code element. -/
def sampleDocument : Document where
  header := ⟨"T", "A", []⟩
  scenes := [⟨"One", [sampleSlide, ⟨"Code", .empty, "\\end\x7bdocument\x7d"⟩]⟩]

theorem noBackslash_sampleDocument : sampleDocument.NoBackslash where
  title := by decide
  author := by decide
  sceneTitles := by decide
  elements := by
    intro scene member element inside
    obtain rfl := List.mem_singleton.mp member
    rcases List.mem_pair.mp inside with rfl | rfl
    · exact ⟨by decide, by decide, fun _ => by decide⟩
    · exact ⟨by decide, by decide, by decide +kernel⟩

/-- The content of the code element is not rendered, so its backslash does no harm. -/
theorem wellNested_sampleDocument :
    Settings.standard.NoBackslash ∧ sampleDocument.NoBackslash ∧
      WellNested (render Settings.standard none sampleDocument) := by
  have settings : Settings.standard.NoBackslash := ⟨by decide, by decide⟩
  exact ⟨settings, noBackslash_sampleDocument,
    wellNested_render settings noBackslash_sampleDocument none⟩

end Latex
end Lectern
