import Lectern.Config.Basic
import Lectern.Files.FileError
import Lectern.Files.Path
import Lectern.Json.Problem
import Lectern.Text.Quoted

/-!
# Failures

Why a command does not do what it was asked to do. The wording names what was being done before
what went wrong, joined by colons.
-/

namespace Lectern

/-- What was being done, the widest first, and then what went wrong. -/
def inContext (contexts : List Text) (problem : Text) : Text :=
  (": " : Text).intercalate (contexts ++ [problem])

/-- A deck that cannot be rendered or does not pass its checks. -/
inductive DeckError where
  | missingLanguage (scene : Text) (position : Nat)
  | checksFailed (findings : Nat)
  deriving DecidableEq

/-- The wording of a deck error. -/
def DeckError.message : DeckError → Text
  | .missingLanguage scene position =>
    "Slide missing 'lang' attribute (scene '" ++ scene ++ "', element " ++ Text.ofNat position
      ++ ")"
  | .checksFailed findings =>
    "Deck failed validation with " ++ Text.ofNat findings ++ " finding(s)"

/-- Why a document has no outputs. -/
inductive RenderError where
  | deck (error : DeckError)
  | languageNotFound (requested : Text) (tags : List Text)
  deriving DecidableEq

/-- The wording of a render error. -/
def RenderError.message : RenderError → Text
  | .deck error => error.message
  | .languageNotFound requested tags =>
    "Language '" ++ requested ++ "' not found in deck. Available languages: "
      ++ (", " : Text).intercalate tags

/-- Why a configuration cannot be used: its text, or a setting in it. -/
inductive ConfigError where
  | unreadable (source : Text) (problem : Json.Problem)
  | invalid (setting : InvalidSetting)
  deriving DecidableEq

/-- The wording of a configuration error. -/
def ConfigError.message : ConfigError → Text
  | .unreadable source problem => "Failed to parse config: " ++ problem.message source
  | .invalid setting => setting.message

/-- What was being done to a file or folder. -/
inductive FileTask where
  | read
  | write
  | makeFolder
  | readConfig
  | writeConfig
  deriving DecidableEq

/-- The wording of a task on a path. -/
def FileTask.describe (task : FileTask) (path : Path) : Text :=
  (match task with
    | .read => ("Failed to read file: " : Text)
    | .write => "Failed to write to file: "
    | .makeFolder => "Failed to create directory: "
    | .readConfig => "Failed to open config file: "
    | .writeConfig => "Failed to write config file: ") ++ Text.quoted path

/-- Why a command fails. -/
inductive Failure where
  | inputNeeded
  | inputMissing (path : Path)
  | fileMissing (path : Path)
  | folderMissing (path : Path)
  | file (task : FileTask) (path : Path) (error : FileError)
  | walk (path : Path) (error : FileError)
  | config (path : Option Path) (error : ConfigError)
  | render (path : Path) (error : RenderError)
  | deck (error : DeckError)
  | decksFailed (count : Nat)
  deriving DecidableEq

/-- What was being done when the text of a configuration file could not be read. -/
def configContext (path : Path) : Text :=
  "Failed to parse config file: " ++ Text.quoted path

/-- The wording of a failure. A configuration text that cannot be read is described twice, once
by itself and once as what lies behind. -/
def Failure.message : Failure → Text
  | .inputNeeded => "INPUT_PATH is required when no subcommand is specified"
  | .inputMissing path => "Input path does not exist: " ++ Text.quoted path
  | .fileMissing path => "Input file does not exist: " ++ Text.quoted path
  | .folderMissing path => "Input directory does not exist: " ++ Text.quoted path
  | .file task path error => inContext [task.describe path] error.message
  | .walk path error =>
    inContext ["Failed to read directory entry",
      "IO error for operation on " ++ path ++ ": " ++ error.message] error.message
  | .config path (.unreadable source problem) =>
    inContext ((path.map configContext).toList
      ++ [(ConfigError.unreadable source problem).message]) (problem.message source)
  | .config _ (.invalid setting) =>
    inContext ["Configuration validation failed"] setting.message
  | .render path error =>
    inContext ["Failed to render deck: " ++ Text.quoted path] error.message
  | .deck error => error.message
  | .decksFailed count => Text.ofNat count ++ " deck(s) failed to render"

/-- An error by the area it comes from, for readers who do not know its causes. -/
inductive AreaError where
  | file (detail : Text)
  | deck (error : DeckError)
  | config (error : ConfigError)
  | unknown (detail : Text)
  deriving DecidableEq

/-- The wording of an error by its area. -/
def AreaError.message : AreaError → Text
  | .file detail => "File error: " ++ detail
  | .deck error => "Deck error: " ++ error.message
  | .config error => "Config error: " ++ error.message
  | .unknown detail => "Unknown error: " ++ detail

end Lectern
