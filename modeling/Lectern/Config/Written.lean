import Lectern.Config.Basic
import Lectern.Json.Basic
import Lectern.Json.Reader

/-!
# Written configurations

Configurations are written as objects with all settings and read from objects with any of them,
in any order. Settings that are not named keep their defaults, and keys that no setting has are
skipped. A section may also be a list of its settings in their written order.
-/

namespace Lectern

open Json

/-- A configuration as a tree of values. -/
def Config.toJson (config : Config) : Json :=
  .object [
    ("output", .object [
      ("directory", config.output.directory.elim .null .text),
      ("suffix", .text config.output.suffix),
      ("extension", .text config.output.extension)]),
    ("latex", .object [
      ("document_class_options", .text config.latex.classOptions),
      ("theme", .text config.latex.theme)]),
    ("validation", .object [
      ("strict", .bool config.checks.strict),
      ("check_before_render", .bool config.checks.beforeRender)]),
    ("log_level", .text config.level.name)]

/-- The settings of the section on outputs. -/
def OutputConfig.fields : List (Reader.Field OutputConfig) :=
  [⟨"directory", fun output => do pure { output with directory := ← Reader.optionalText }⟩,
    ⟨"suffix", fun output => do pure { output with suffix := ← Reader.text }⟩,
    ⟨"extension", fun output => do pure { output with extension := ← Reader.text }⟩]

/-- The settings of the section on the preamble. -/
def Latex.Settings.fields : List (Reader.Field Latex.Settings) :=
  [⟨"document_class_options",
      fun settings => do pure { settings with classOptions := ← Reader.text }⟩,
    ⟨"theme", fun settings => do pure { settings with theme := ← Reader.text }⟩]

/-- The settings of the section on checks. -/
def CheckConfig.fields : List (Reader.Field CheckConfig) :=
  [⟨"strict", fun checks => do pure { checks with strict := ← Reader.bool }⟩,
    ⟨"check_before_render", fun checks => do pure { checks with beforeRender := ← Reader.bool }⟩]

namespace Config

/-- The sections and settings of a configuration. -/
def fields : List (Reader.Field Config) :=
  [⟨"output", fun config => do
      pure { config with
        output := ← Reader.record "struct OutputConfig" OutputConfig.fields standard.output }⟩,
    ⟨"latex", fun config => do
      pure { config with
        latex := ← Reader.record "struct LatexConfig" Latex.Settings.fields standard.latex }⟩,
    ⟨"validation", fun config => do
      pure { config with
        checks := ← Reader.record "struct ValidationConfig" CheckConfig.fields standard.checks }⟩,
    ⟨"log_level", fun config => do
      pure { config with level := ← Reader.variant Level.named }⟩]

/-- Reads a configuration. -/
def parse (source : Text) : Except Problem Config :=
  Reader.whole (Reader.record "struct Config" fields standard) source

/-- Writes a configuration. -/
def write (config : Config) : Text := config.toJson.write

end Config
end Lectern
