import Lectern.Proofs.Config.Partial
import Lectern.Proofs.Session.Machine
import Lectern.Proofs.Text.Utf8
import Lectern.Publish.Run

/-!
# Saved configurations

A written configuration names every setting, so nothing of the defaults is left where it is read
(`Config.parse_write`). A written file is found where it was written, so a configuration is loaded
back from the file that it was saved to (`Config.load_of_save`).
-/

namespace Lectern

open Json Json.Reader

/-! ## Sections -/

/-- All settings of a section are given. -/
def OutputConfig.all (output : OutputConfig) : OutputConfig.Given :=
  ⟨some output.directory, some output.suffix, some output.extension⟩

@[inherit_doc OutputConfig.all]
def Latex.Settings.all (settings : Latex.Settings) : Latex.Settings.Given :=
  ⟨some settings.classOptions, some settings.theme⟩

@[inherit_doc OutputConfig.all]
def CheckConfig.all (checks : CheckConfig) : CheckConfig.Given :=
  ⟨some checks.strict, some checks.beforeRender⟩

section

variable (depth : Nat)

theorem OutputConfig.all_writtenIn (output : OutputConfig) :
    output.all.WrittenIn (writeAt depth (.object [
      ("directory", output.directory.elim .null .text),
      ("suffix", .text output.suffix),
      ("extension", .text output.extension)])) := by
  refine ⟨_, objectOf_writeAt depth _, ⟨_, rfl, ?_⟩, ⟨_, rfl, writesText_writeText _⟩,
    ⟨_, rfl, writesText_writeText _⟩, by simp [membersAt]⟩
  cases output.directory with
  | none => rfl
  | some directory => exact writesText_writeText directory

theorem Latex.Settings.all_writtenIn (settings : Latex.Settings) :
    settings.all.WrittenIn (writeAt depth (.object [
      ("document_class_options", .text settings.classOptions),
      ("theme", .text settings.theme)])) :=
  ⟨_, objectOf_writeAt depth _, ⟨_, rfl, writesText_writeText _⟩,
    ⟨_, rfl, writesText_writeText _⟩, by simp [membersAt]⟩

theorem writesBool_writeAt (value : Bool) : WritesBool value (writeAt depth (.bool value)) := by
  cases value <;> rfl

theorem CheckConfig.all_writtenIn (checks : CheckConfig) :
    checks.all.WrittenIn (writeAt depth (.object [
      ("strict", .bool checks.strict),
      ("check_before_render", .bool checks.beforeRender)])) :=
  ⟨_, objectOf_writeAt depth _, ⟨_, rfl, writesBool_writeAt _ _⟩,
    ⟨_, rfl, writesBool_writeAt _ _⟩, by simp [membersAt]⟩

end

/-! ## Configurations -/

namespace Config

/-- All settings are given. -/
def all (config : Config) : Config.Given :=
  ⟨config.output.all, config.latex.all, config.checks.all, some config.level⟩

theorem all_writtenIn (config : Config) : config.all.WrittenIn config.write := by
  have written : ObjectOf _ config.write :=
    objectOf_writeAt 0 [("output", _), ("latex", _), ("validation", _), ("log_level", _)]
  refine ⟨[], config.write, [], _, spaces_nil, spaces_nil, by simp, written, ?_⟩
  exact ⟨⟨some config.output.all, ⟨_, rfl, OutputConfig.all_writtenIn 1 _⟩, rfl⟩,
    ⟨some config.latex.all, ⟨_, rfl, Latex.Settings.all_writtenIn 1 _⟩, rfl⟩,
    ⟨some config.checks.all, ⟨_, rfl, CheckConfig.all_writtenIn 1 _⟩, rfl⟩,
    ⟨_, rfl, .inl (writesText_writeText _)⟩, by simp [membersAt]⟩

theorem parse_write (config : Config) : Config.parse config.write = .ok config :=
  parse_of_writtenIn config.all_writtenIn

/-- A configuration is read from what it is written as, and loaded from the file that it was saved
to. -/
theorem load_of_save (config : Config) :
    Config.parse config.write = .ok config ∧
      ∀ (machine after : Machine) (path : Path),
        machine.run (config.save path) = (.ok (), after) →
          after.tree.readText path = .ok config.write ∧
            after.run (Config.load path) = (.ok config, after) := by
  refine ⟨parse_write config, ?_⟩
  intro machine after path saved
  obtain ⟨location, found⟩ :=
    FileTree.find_of_writeFile (Machine.of_run_writeBytes_eq_ok saved)
  have source : after.tree.readText path = .ok config.write := by
    rw [FileTree.readText, FileTree.readFile_of_find found]
    simp only [Text.ofBytes?_toBytes]
    rfl
  have isThere : (Machine.kindOn after.tree path).isSome := by
    rw [Machine.kindOn, found]
    rfl
  have read : after.run (Host.readText .readConfig path) = (.ok config.write, after) := by
    rw [Machine.run_readText, source]
    rfl
  refine ⟨source, ?_⟩
  rw [Config.load, Machine.run_bind_of_ok (Machine.run_exists? after path), if_pos isThere,
    Machine.run_bind_of_ok read, parse_write]
  rfl

/-- Quotes, backslashes, a line feed and a letter outside ASCII are saved and loaded again. -/
theorem load_of_save_escaped :
    let config := { standard with output := ⟨some "C:\\\"decks\"", "_é\n", "tex"⟩, level := .debug }
    let machine := Machine.fresh ⟨.empty, []⟩
    let after := (machine.run (config.save "vmdtex.json")).2
    machine.run (config.save "vmdtex.json") = (.ok (), after) ∧
      after.run (Config.load "vmdtex.json") = (.ok config, after) := by
  intro config machine after
  have saved : machine.run (config.save "vmdtex.json") = (.ok (), after) := rfl
  exact ⟨saved, ((load_of_save config).2 machine after "vmdtex.json" saved).2⟩

end Config
end Lectern
