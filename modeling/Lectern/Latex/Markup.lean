import Lectern.Text.Basic

/-!
# LaTeX markup

The few forms of LaTeX that the output is made of: commands with an argument, the two ends of an
environment, comment lines, and the escape of the ampersand.
-/

namespace Lectern.Latex

/-- An argument in braces. -/
def braced (argument : Text) : Text := "\x7b" ++ argument ++ "\x7d"

/-- A command with one argument. -/
def command (name argument : Text) : Text := "\\" ++ name ++ braced argument

/-- The start of an environment. -/
def opening (environment : Text) : Text := command "begin" environment

/-- The end of an environment. -/
def closing (environment : Text) : Text := command "end" environment

/-- A comment line. -/
def comment (text : Text) : Text := "% " ++ text

/-- The text with every ampersand escaped. -/
def escapeAmpersand (text : Text) : Text := Text.replaceChar '&' "\\&" text

end Lectern.Latex
