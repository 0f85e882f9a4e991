import Lectern.Deck.Remark
import Lectern.Latex.Markup

/-!
# Inline formatting

One line of text in four passes: remarks are removed, then `**strong**` and `*emphasised*` parts
become commands, then ampersands are escaped. Emphasis holds at least one character, ends at the
next closing stars, and stays within its line.
-/

namespace Lectern.Latex

/-- A part set off by `stars` that the text starts with, as a command, and what follows it. -/
def emphasis? (stars name : Text) (text : Text) : Option (Text × Text) :=
  match stars.isPrefixOf? text with
  | some (first :: rest) =>
    match Text.cutAtText stars rest with
    | some (more, after) =>
      if '\n' ∈ first :: more then none else some (command name (first :: more), after)
    | none => none
  | _ => none

/-- Strong parts as commands. -/
def formatStrong (text : Text) : Text := Text.replace (emphasis? "**" "textbf") text

/-- Emphasised parts as commands. -/
def formatEmphasis (text : Text) : Text := Text.replace (emphasis? "*" "textit") text

/-- One line of text as LaTeX. -/
def formatInline (text : Text) : Text :=
  escapeAmpersand (formatEmphasis (formatStrong (Remark.strip text)))

end Lectern.Latex
