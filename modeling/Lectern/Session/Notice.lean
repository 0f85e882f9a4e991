import Lectern.Check.Report
import Lectern.Session.Failure
import Lectern.Session.Level

/-!
# Notices

What a session tells its user along the way: each notice has a level and a wording. A notice line
shows the time, the level and the wording in the colour of the level.
-/

namespace Lectern

/-- What a session tells along the way. -/
inductive Notice where
  | unboundToken (token : Text)
  | parsed (title : Text) (scenes : Nat)
  | checked (errors warnings : Nat)
  | finding (diagnostic : Check.Diagnostic)
  | rendering (outputs : Nat)
  | rendered (lines : Nat) (filter : Option Text)
  | skipped (path : Path)
  | written (path : Path) (language : Option Text)
  | noDecks (folder : Path)
  | deckFailed (path : Path) (failure : Failure)
  | folderFinished (processed failed : Nat)
  | languageHint
  | nothingWritten (path : Path)
  | checkSummary (errors warnings : Nat)
  | failed (failure : Failure)
  deriving DecidableEq

namespace Notice

/-- The level of a notice. -/
def level : Notice → Level
  | unboundToken _ | parsed .. | checked .. | rendering _ | rendered .. => .debug
  | finding diagnostic =>
    match diagnostic.severity with
    | .error => .error
    | .warning => .warn
  | skipped _ | noDecks _ | languageHint => .warn
  | written .. | folderFinished .. | nothingWritten _ | checkSummary .. => .info
  | deckFailed .. | failed _ => .error

/-- An optional text as it is shown in notices. -/
def showFilter : Option Text → Text
  | none => "None"
  | some language => "Some(" ++ Text.quoted language ++ ")"

/-- The wording of a notice. -/
def message : Notice → Text
  | unboundToken token => "Ignoring parameter token without '=': " ++ Text.quoted token
  | parsed title scenes =>
    "Parsed deck '" ++ title ++ "' with " ++ Text.ofNat scenes ++ " scene(s)"
  | checked errors warnings =>
    "Validation finished: " ++ Text.ofNat errors ++ " error(s), " ++ Text.ofNat warnings
      ++ " warning(s)"
  | finding diagnostic => diagnostic.describe
  | rendering outputs => "Rendering " ++ Text.ofNat outputs ++ " output(s)"
  | rendered lines filter =>
    "Rendered " ++ Text.ofNat lines ++ " line(s) for language filter " ++ showFilter filter
  | skipped path =>
    "Skipping " ++ Text.quoted path ++ ", output already exists (use -f to force overwrite)"
  | written path none => "LaTeX output written to " ++ Text.quoted path
  | written path (some language) =>
    "LaTeX output (" ++ language ++ ") written to " ++ Text.quoted path
  | noDecks folder => "No deck files found in directory: " ++ Text.quoted folder
  | deckFailed path failure => "Error processing " ++ Text.quoted path ++ ": " ++ failure.message
  | folderFinished done missed =>
    "Finished processing " ++ Text.ofNat done ++ " deck(s), " ++ Text.ofNat missed ++ " failed"
  | languageHint =>
    "Every slide needs a lang attribute, e.g. ## Slide(title=\"Intro\", lang=\"EN\")"
  | nothingWritten path => "Nothing written for " ++ Text.quoted path
  | checkSummary errors warnings =>
    Text.ofNat errors ++ " error(s), " ++ Text.ofNat warnings ++ " warning(s)"
  | failed failure => failure.message

/-- The terminal colour and the tag of a level. -/
def style : Level → Text × Text
  | .error => ("1;31", "ERROR")
  | .warn => ("1;33", "WARN ")
  | .info => ("1;32", "INFO ")
  | .debug => ("1;36", "DEBUG")
  | .trace => ("1;35", "TRACE")

/-- The line that shows a notice. -/
def line (time : Text) (notice : Notice) : Text :=
  let (colour, tag) := style notice.level
  "\x1b[" ++ colour ++ "m" ++ time ++ " " ++ tag ++ " " ++ notice.message ++ "\x1b[0m"

end Notice
end Lectern
