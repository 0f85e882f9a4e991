import Lectern.Latex.Document
import Lectern.Session.Level

/-!
# Configurations

Where outputs go and how they are named, the preamble, the checks, and the notice threshold.
Every setting has a default. A valid configuration has a suffix, an extension and a theme that
are not blank, and a suffix without path separators.
-/

namespace Lectern

/-- How outputs are named and where they go; without a directory they go beside the deck. -/
structure OutputConfig where
  directory : Option Text
  suffix : Text
  extension : Text
  deriving DecidableEq

/-- Whether warnings fail a deck, and whether decks are checked before they are rendered. -/
structure CheckConfig where
  strict : Bool
  beforeRender : Bool
  deriving DecidableEq

/-- All settings. -/
structure Config where
  output : OutputConfig
  latex : Latex.Settings
  checks : CheckConfig
  level : Level
  deriving DecidableEq

/-- A setting with a value that cannot be used, and why. -/
structure InvalidSetting where
  setting : Text
  reason : Text
  deriving DecidableEq

/-- The wording of a refused setting. -/
def InvalidSetting.message (invalid : InvalidSetting) : Text :=
  "Invalid config value for '" ++ invalid.setting ++ "': " ++ invalid.reason

namespace Config

/-- The settings of a deck without a configuration. -/
def standard : Config where
  output := ⟨none, "_output", "tex"⟩
  latex := .standard
  checks := ⟨false, false⟩
  level := .info

/-- The settings that may not be blank, in the order in which they are checked. -/
def required (config : Config) : List (Text × Text) :=
  [("output.suffix", config.output.suffix), ("output.extension", config.output.extension),
    ("latex.theme", config.latex.theme)]

/-- The first setting with a value that cannot be used. -/
def invalidSetting? (config : Config) : Option InvalidSetting :=
  match config.required.find? fun (_, value) => Text.isBlankText value with
  | some (setting, _) => some ⟨setting, "must not be empty"⟩
  | none =>
    if '/' ∈ config.output.suffix ∨ '\\' ∈ config.output.suffix then
      some ⟨"output.suffix", "must not contain path separators"⟩
    else none

/-- Accepts a configuration without an unusable value. -/
def validate (config : Config) : Except InvalidSetting Unit :=
  match config.invalidSetting? with
  | some invalid => .error invalid
  | none => .ok ()

end Config
end Lectern
