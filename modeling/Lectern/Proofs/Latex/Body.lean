import Lectern.Latex.Body
import Lectern.Proofs.Latex.Inline
import Lectern.Proofs.Latex.Nesting

/-!
# Nesting of slide content

The list state of the content renderer says which environments are open: those around the content,
and a list with an item where the state is `inside`. Each line keeps this relation, so rendered
content leads from the environments around it back to them.
-/

namespace Lectern.Latex

open Nesting

/-- The open environments in a list state, inside the ones around the content. -/
def ListState.stack (outer : List Environment) : ListState → List Environment
  | .outside => outer
  | .inside => ⟨"itemize", true⟩ :: outer

section

variable {indent : Text} (silent : Silent indent) {outer : List Environment} (inside : outer ≠ [])
include silent

theorem leads_closeList (state : ListState) :
    Leads (state.stack outer) (closeList indent state) outer := by
  cases state with
  | outside => exact Leads.nil
  | inside =>
    have token : tokens (indent ++ closing "itemize") = [.closes "itemize"] := by
      rw [silent]
      decide
    have closed : step? (⟨"itemize", true⟩ :: outer) (.closes "itemize") = some outer :=
      step?_closes (fun _ => rfl) outer
    exact Leads.oneToken token closed (fun same => nomatch same)

theorem leads_plainLine {line : Text} (noBackslash : '\\' ∉ line) :
    Leads outer [plainLine indent line] outer := by
  apply Leads.quietLine
  rw [plainLine, silent]
  split
  · decide
  · exact (silent_formatInline noBackslash).tokens_eq

include inside

theorem leads_openList (state : ListState) :
    ∃ filled, Leads (state.stack outer) (openList indent state) (⟨"itemize", filled⟩ :: outer) := by
  cases state with
  | outside =>
    have token : tokens (indent ++ opening "itemize") = [.opens "itemize"] := by
      rw [silent]
      decide
    have may : MayOpen "itemize" outer := mayOpen_of_other (by decide) inside
    exact ⟨false, Leads.oneToken token (step?_opens may) (by decide)⟩
  | inside => exact ⟨true, Leads.nil⟩

/-- A bullet leads into a list with an item, whether or not one was open. -/
theorem leads_bullet {text : Text} (noBackslash : '\\' ∉ text) (state : ListState) :
    Leads (state.stack outer)
      (openList indent state ++ [indent ++ "  \\item " ++ formatInline text])
      (ListState.inside.stack outer) := by
  obtain ⟨filled, opened⟩ := leads_openList silent inside state
  refine opened.append ?_
  have token : tokens (indent ++ "  \\item " ++ formatInline text) = [.item] := by
    have parts : indent ++ "  \\item " ++ formatInline text =
        indent ++ (("  " : Text) ++ (("\\item " : Text) ++ formatInline text)) := by simp
    rw [parts, silent, Silent.frameIndent, tokens_item, (silent_formatInline noBackslash).tokens_eq]
  exact Leads.oneToken token (step?_item filled outer) (fun same => nomatch same)

/-- Centered lines lead back to where they stand if they do so inside. -/
theorem leads_center {lines : List Text}
    (centered : Leads (⟨"center", false⟩ :: outer) lines (⟨"center", false⟩ :: outer)) :
    Leads outer ([indent ++ opening "center"] ++ lines ++ [indent ++ closing "center"]) outer := by
  have may : MayOpen "center" outer := mayOpen_of_other (by decide) inside
  have opens : tokens (indent ++ opening "center") = [.opens "center"] := by
    rw [silent]
    decide
  have closes : tokens (indent ++ closing "center") = [.closes "center"] := by
    rw [silent]
    decide
  exact Leads.environment may (by decide) opens centered closes

/-- The box that stands for code closes what it opens. -/
theorem leads_codePlaceholder : Leads outer (codePlaceholder indent) outer := by
  have may : MayOpen "minipage" (⟨"center", false⟩ :: outer) :=
    mayOpen_of_other (by decide) (List.cons_ne_nil _ _)
  have opens : tokens (indent ++ "  " ++ command "colorbox" "gray!20" ++ "\x7b"
      ++ opening "minipage" ++ braced "0.9\\textwidth") = [.opens "minipage"] := by
    simp only [List.append_assoc]
    rw [silent]
    decide
  have closes : tokens (indent ++ "  " ++ closing "minipage" ++ "\x7d") =
      [.closes "minipage"] := by
    simp only [List.append_assoc]
    rw [silent]
    decide
  have inPage : ∀ line ∈ [indent ++ "    " ++ command "vspace" "1em", indent ++ "    \\centering",
      indent ++ "    " ++ command "textbf" "Code-Snippet not implemented",
      indent ++ "    " ++ command "vspace" "1em"], tokens line = [] := by
    intro line member
    simp only [List.mem_cons, List.not_mem_nil, or_false] at member
    rcases member with rfl | rfl | rfl | rfl
    · rw [List.append_assoc, silent]
      decide
    · rw [silent]
      decide
    · rw [List.append_assoc, silent]
      decide
    · rw [List.append_assoc, silent]
      decide
  exact leads_center silent inside
    (Leads.environment may (by decide) opens (Leads.quiet inPage) closes)

/-- An image closes what it opens. -/
theorem leads_imageBlock {source : Text} (noBackslash : '\\' ∉ source) :
    Leads outer (imageBlock indent source) outer := by
  have graphics : Silent ('\\' :: (("includegraphics" : Text) ++ ['['])) :=
    .command (by decide) (by decide)
  have size : Silent ("width=0.7" : Text) := .of_noBackslash (by decide)
  have width : Silent ('\\' :: (("textwidth" : Text) ++ [']'])) := .command (by decide) (by decide)
  have path : Silent (braced source) := .of_noBackslash (by simp [braced, noBackslash])
  have options := (graphics.append size).append width
  have image : tokens (indent ++ "  \\includegraphics[width=0.7\\textwidth]" ++ braced source) =
      [] := by
    have parts : indent ++ "  \\includegraphics[width=0.7\\textwidth]" ++ braced source =
        indent ++ "  " ++ ('\\' :: (("includegraphics" : Text) ++ ['[']) ++ "width=0.7" ++
          '\\' :: (("textwidth" : Text) ++ [']'])) ++ braced source := by simp
    rw [parts]
    exact (((silent.append Silent.frameIndent).append options).append path).tokens_eq
  exact leads_center silent inside (Leads.quietLine image)

/-- What one line does to the open environments. -/
theorem leads_renderLine {line : Text} (noBackslash : '\\' ∉ line) (state : ListState) :
    Leads (state.stack outer) (renderLine indent state line).2
      ((renderLine indent state line).1.stack outer) := by
  rw [renderLine]
  cases reading : BodyLine.classify line with
  | column width => exact Leads.nil
  | button => exact Leads.nil
  | code => exact (leads_closeList silent state).append (leads_codePlaceholder silent inside)
  | image source =>
    cases source with
    | none => exact Leads.nil
    | some source =>
      have noBackslashInSource : '\\' ∉ source := fun member =>
        noBackslash (BodyLine.subset_of_classify_eq_image reading member)
      exact (leads_closeList silent state).append
        (leads_imageBlock silent inside noBackslashInSource)
  | bullet text =>
    have noBackslashInText : '\\' ∉ text := fun member =>
      noBackslash (BodyLine.subset_of_classify_eq_bullet reading member)
    exact leads_bullet silent inside noBackslashInText state
  | plain => exact (leads_closeList silent state).append (leads_plainLine silent noBackslash)

/-- Content lines lead from any list state to the environments around the content. -/
theorem leads_renderLinesFrom {lines : List Text} (noBackslash : ∀ line ∈ lines, '\\' ∉ line)
    (state : ListState) :
    Leads (state.stack outer) (renderLinesFrom indent state lines) outer := by
  induction lines generalizing state with
  | nil => exact leads_closeList silent state
  | cons line lines ih =>
    have here := leads_renderLine silent inside (noBackslash line (by simp)) state
    have behind := ih (fun other member => noBackslash other (by simp [member]))
    exact here.append (behind _)

theorem leads_renderLines {lines : List Text} (noBackslash : ∀ line ∈ lines, '\\' ∉ line) :
    Leads outer (renderLines indent lines) outer :=
  leads_renderLinesFrom silent inside noBackslash .outside

end

end Lectern.Latex
