import Lectern.Config.Written
import Lectern.Proofs.Json.Records

/-!
# Partial configurations

A text that is read as a configuration need not name every setting. What it names is a value of its
own (`Config.Given`): for each setting the value that is given for it, or none. A text gives exactly
these settings where each of their keys stands once with a way to write the value, the other known
keys are missing, and whatever else stands in the text is well-formed (`Config.Given.WrittenIn`).
Reading it takes the given values over the defaults, and leaves every other setting at its default
(`Config.parse_given`). Every key of the object and of its sections must stand for a text, even one
that no setting has (`Config.parse_halfPairKey`).
-/

namespace Lectern

open Json Json.Reader

/-! ## Given settings -/

/-- The settings on outputs that are given; a given directory may be none. -/
structure OutputConfig.Given where
  directory : Option (Option Text) := none
  suffix : Option Text := none
  extension : Option Text := none

/-- The settings of the preamble that are given. -/
structure Latex.Settings.Given where
  classOptions : Option Text := none
  theme : Option Text := none

/-- The settings on checks that are given. -/
structure CheckConfig.Given where
  strict : Option Bool := none
  beforeRender : Option Bool := none

/-- The settings of a configuration that are given. -/
structure Config.Given where
  output : OutputConfig.Given := {}
  latex : Latex.Settings.Given := {}
  checks : CheckConfig.Given := {}
  level : Option Level := none

/-- The ways to write a level: as its name, or as an object with the name as its only key. -/
def WritesLevel (level : Level) (written : Text) : Prop :=
  WritesText level.name written ∨ ObjectOf [(level.name, "null")] written

theorem Level.lookup_name (level : Level) : Level.named.lookup level.name = some level := by
  cases level <;> rfl

theorem reads_level {level : Level} {written : Text} (writes : WritesLevel level written) :
    Reads (variant Level.named) written level := by
  rcases writes with text | object
  · exact reads_variant (Level.lookup_name level) text
  · exact reads_variant_object (Level.lookup_name level) object

/-! ## Outputs -/

namespace OutputConfig.Given

variable (given : OutputConfig.Given)

/-- The given settings, and those of a base for the others. -/
def overriding (base : OutputConfig) : OutputConfig where
  directory := given.directory.getD base.directory
  suffix := given.suffix.getD base.suffix
  extension := given.extension.getD base.extension

/-- The members of an object name exactly the given settings, and what else they hold is
well-formed. -/
structure NamedBy (members : List (Text × Text)) : Prop where
  directory : Names WritesOptionalText members "directory" given.directory
  suffix : Names WritesText members "suffix" given.suffix
  extension : Names WritesText members "extension" given.extension
  others : ∀ member ∈ members, member.1 ∉ (["directory", "suffix", "extension"] : List Text) →
    Wellformed member.2

/-- An object names exactly the given settings. -/
def WrittenIn (text : Text) : Prop := ∃ members, ObjectOf members text ∧ given.NamedBy members

/-- What the given settings do to a section that started from a base. -/
def changes (base : OutputConfig) : List (OutputConfig → OutputConfig) :=
  [fun output => { output with directory := given.directory.getD base.directory },
    fun output => { output with suffix := given.suffix.getD base.suffix },
    fun output => { output with extension := given.extension.getD base.extension }]

variable {given}

theorem WrittenIn.reads {text : Text} (written : given.WrittenIn text) (name : Text)
    (base : OutputConfig) :
    Reads (record name OutputConfig.fields base) text (given.overriding base) := by
  obtain ⟨members, object, named⟩ := written
  have tells : List.Forall₂ (Tells members base) OutputConfig.fields (given.changes base) :=
    .cons (tells_of_names named.directory reads_optionalText rfl)
      (.cons (tells_of_names named.suffix reads_text rfl)
        (.cons (tells_of_names named.extension reads_text rfl) .nil))
  have independent : Independent (given.changes base) := ⟨by simp [changes], by simp [changes]⟩
  exact reads_record_of_tells object tells (by decide) independent named.others name

end OutputConfig.Given

/-! ## Preambles -/

namespace Latex.Settings.Given

variable (given : Latex.Settings.Given)

/-- The given settings, and those of a base for the others. -/
def overriding (base : Latex.Settings) : Latex.Settings where
  classOptions := given.classOptions.getD base.classOptions
  theme := given.theme.getD base.theme

/-- The members of an object name exactly the given settings. -/
structure NamedBy (members : List (Text × Text)) : Prop where
  classOptions : Names WritesText members "document_class_options" given.classOptions
  theme : Names WritesText members "theme" given.theme
  others : ∀ member ∈ members, member.1 ∉ (["document_class_options", "theme"] : List Text) →
    Wellformed member.2

/-- An object names exactly the given settings. -/
def WrittenIn (text : Text) : Prop := ∃ members, ObjectOf members text ∧ given.NamedBy members

/-- What the given settings do to a section that started from a base. -/
def changes (base : Latex.Settings) : List (Latex.Settings → Latex.Settings) :=
  [fun settings =>
      { settings with classOptions := given.classOptions.getD base.classOptions },
    fun settings => { settings with theme := given.theme.getD base.theme }]

variable {given}

theorem WrittenIn.reads {text : Text} (written : given.WrittenIn text) (name : Text)
    (base : Latex.Settings) :
    Reads (record name Latex.Settings.fields base) text (given.overriding base) := by
  obtain ⟨members, object, named⟩ := written
  have tells : List.Forall₂ (Tells members base) Latex.Settings.fields (given.changes base) :=
    .cons (tells_of_names named.classOptions reads_text rfl)
      (.cons (tells_of_names named.theme reads_text rfl) .nil)
  have independent : Independent (given.changes base) := ⟨by simp [changes], by simp [changes]⟩
  exact reads_record_of_tells object tells (by decide) independent named.others name

end Latex.Settings.Given

/-! ## Checks -/

namespace CheckConfig.Given

variable (given : CheckConfig.Given)

/-- The given settings, and those of a base for the others. -/
def overriding (base : CheckConfig) : CheckConfig where
  strict := given.strict.getD base.strict
  beforeRender := given.beforeRender.getD base.beforeRender

/-- The members of an object name exactly the given settings. -/
structure NamedBy (members : List (Text × Text)) : Prop where
  strict : Names WritesBool members "strict" given.strict
  beforeRender : Names WritesBool members "check_before_render" given.beforeRender
  others : ∀ member ∈ members, member.1 ∉ (["strict", "check_before_render"] : List Text) →
    Wellformed member.2

/-- An object names exactly the given settings. -/
def WrittenIn (text : Text) : Prop := ∃ members, ObjectOf members text ∧ given.NamedBy members

/-- What the given settings do to a section that started from a base. -/
def changes (base : CheckConfig) : List (CheckConfig → CheckConfig) :=
  [fun checks => { checks with strict := given.strict.getD base.strict },
    fun checks => { checks with beforeRender := given.beforeRender.getD base.beforeRender }]

variable {given}

theorem WrittenIn.reads {text : Text} (written : given.WrittenIn text) (name : Text)
    (base : CheckConfig) :
    Reads (record name CheckConfig.fields base) text (given.overriding base) := by
  obtain ⟨members, object, named⟩ := written
  have tells : List.Forall₂ (Tells members base) CheckConfig.fields (given.changes base) :=
    .cons (tells_of_names named.strict reads_bool rfl)
      (.cons (tells_of_names named.beforeRender reads_bool rfl) .nil)
  have independent : Independent (given.changes base) := ⟨by simp [changes], by simp [changes]⟩
  exact reads_record_of_tells object tells (by decide) independent named.others name

end CheckConfig.Given

/-! ## Configurations -/

namespace Config.Given

variable (given : Config.Given)

/-- The given settings, and those of a base for the others. -/
def overriding (base : Config) : Config where
  output := given.output.overriding base.output
  latex := given.latex.overriding base.latex
  checks := given.checks.overriding base.checks
  level := given.level.getD base.level

/-- The members of an object name exactly the given settings. -/
structure NamedBy (members : List (Text × Text)) : Prop where
  output : NamesSection OutputConfig.Given.WrittenIn members "output" {} given.output
  latex : NamesSection Latex.Settings.Given.WrittenIn members "latex" {} given.latex
  checks : NamesSection CheckConfig.Given.WrittenIn members "validation" {} given.checks
  level : Names WritesLevel members "log_level" given.level
  others : ∀ member ∈ members,
    member.1 ∉ (["output", "latex", "validation", "log_level"] : List Text) → Wellformed member.2

/-- A text is an object whose keys stand for texts, with spaces around it or not, that names exactly
the given settings. -/
def WrittenIn (source : Text) : Prop :=
  ∃ before text behind members, Spaces before ∧ Spaces behind ∧
    source = before ++ (text ++ behind) ∧ ObjectOf members text ∧ given.NamedBy members

/-- What the given settings do to a configuration that started from a base. -/
def changes (base : Config) : List (Config → Config) :=
  [fun config => { config with output := given.output.overriding base.output },
    fun config => { config with latex := given.latex.overriding base.latex },
    fun config => { config with checks := given.checks.overriding base.checks },
    fun config => { config with level := given.level.getD base.level }]

variable {given}

theorem NamedBy.reads {members : List (Text × Text)} {text : Text} (named : given.NamedBy members)
    (object : ObjectOf members text) (name : Text) :
    Reads (record name Config.fields standard) text (given.overriding standard) := by
  have tells : List.Forall₂ (Tells members standard) Config.fields (given.changes standard) :=
    .cons (tells_of_namesSection (·.overriding standard.output) named.output (·.reads _ _) rfl)
      (.cons (tells_of_namesSection (·.overriding standard.latex) named.latex (·.reads _ _) rfl)
        (.cons (tells_of_namesSection (·.overriding standard.checks) named.checks
            (·.reads _ _) rfl)
          (.cons (tells_of_names named.level reads_level rfl) .nil)))
  have independent : Independent (given.changes standard) :=
    ⟨by simp [changes], by simp [changes]⟩
  exact reads_record_of_tells object tells (by decide) independent named.others name

end Config.Given

namespace Config

theorem parse_of_writtenIn {given : Config.Given} {source : Text}
    (written : given.WrittenIn source) : Config.parse source = .ok (given.overriding standard) := by
  obtain ⟨before, text, behind, members, isSpaces, isSpacesBehind, rfl, object, named⟩ := written
  exact (named.reads object _).whole isSpaces isSpacesBehind

/-- A partial configuration overrides exactly the settings that it names. -/
theorem parse_given (given : Config.Given) {source : Text} (written : given.WrittenIn source) :
    Config.parse source = .ok (given.overriding standard) ∧
      ∀ other, given.WrittenIn other → Config.parse other = Config.parse source := by
  refine ⟨parse_of_writtenIn written, ?_⟩
  intro other otherWritten
  rw [parse_of_writtenIn written, parse_of_writtenIn otherWritten]

/-- An escape, another order, and a key that no setting has, with a number beyond every bound and
half a surrogate pair behind it. -/
theorem parse_given_escaped :
    let given : Config.Given := { output := { suffix := some "_slides" }, level := some .debug }
    let source : Text := "\n\x7b\"log_level\" : \"d\\u0065bug\", "
      ++ "\"more\": [1e999, \"\\uD800\"], \"output\": \x7b\"suffix\": \"_slides\"\x7d\x7d "
    given.WrittenIn source ∧
      Config.parse source = .ok { standard with
        output := { standard.output with suffix := "_slides" }
        level := .debug } := by
  intro given source
  have zero : HexDigit '0' 0 := ⟨by decide, .inl rfl⟩
  have five : HexDigit '5' 5 := ⟨by decide, .inl rfl⟩
  have six : HexDigit '6' 6 := ⟨by decide, .inl rfl⟩
  have eight : HexDigit '8' 8 := ⟨by decide, .inl rfl⟩
  have thirteen : HexDigit 'D' 13 := ⟨by decide, .inr rfl⟩
  have letter : Spells 'e' _ := .unit (.mk zero zero six five)
  have level : WritesLevel .debug "\"d\\u0065bug\"" :=
    .inl ⟨_, .cons (.plain (by decide)) (.cons letter (spelled_plain rfl)), rfl⟩
  have number : Wellformed ['1', 'e', '9', '9', '9'] :=
    .number ⟨[], ['1'], [], ['e', '9', '9', '9'], .inl rfl, ⟨⟨by simp, by simp⟩, by simp⟩, .inl rfl,
      .inr ⟨'e', [], ['9', '9', '9'], .inl rfl, .inl rfl, ⟨by simp, by simp⟩, rfl⟩, rfl⟩
  have half : Wellformed _ := .text (.unit (.mk thirteen eight zero zero) .nil)
  have more : Wellformed "[1e999, \"\\uD800\"]" := .list (.entry (.first spaces_nil) rfl
    (.entry (.further spaces_nil spaces_space) rfl (.done spaces_nil)))
    (List.forall_mem_cons.mpr ⟨number, List.forall_mem_singleton.mpr half⟩)
  have inner : Entries '\x7d' (Member Spelled) true [("suffix", "\"_slides\"")] _ :=
    .entry (.first spaces_nil) (.mk (spelled_plain rfl) spaces_nil spaces_space)
      (.done spaces_nil)
  have output : given.output.WrittenIn _ :=
    ⟨_, ⟨_, rfl, inner⟩, rfl, ⟨_, rfl, _, spelled_plain rfl, rfl⟩, rfl,
      by simp⟩
  have outer : Entries '\x7d' (Member Spelled) true [("log_level", "\"d\\u0065bug\""),
      ("more", "[1e999, \"\\uD800\"]"), ("output", "\x7b\"suffix\": \"_slides\"\x7d")] _ :=
    .entry (.first spaces_nil) (.mk (spelled_plain rfl) spaces_space spaces_space)
      (.entry (.further spaces_nil spaces_space)
        (.mk (spelled_plain rfl) spaces_nil spaces_space)
        (.entry (.further spaces_nil spaces_space)
          (.mk (spelled_plain rfl) spaces_nil spaces_space) (.done spaces_nil)))
  have written : given.WrittenIn source := by
    refine ⟨['\n'], _, [' '], _, by simp [Spaces], spaces_space, ?_, ⟨_, rfl, outer⟩, ?_⟩
    · rfl
    · exact ⟨⟨some given.output, ⟨_, rfl, output⟩, rfl⟩, ⟨none, rfl, rfl⟩, ⟨none, rfl, rfl⟩,
        ⟨_, rfl, level⟩, by simpa using more⟩
  exact ⟨written, (parse_given given written).1⟩

/-- An object that names no setting is refused if its key is half a surrogate pair, which stands for
no text. -/
theorem parse_halfPairKey :
    let source : Text := "\x7b\"\\uD800\": 1\x7d"
    Wellformed source ∧ (∀ key, ¬ Spelled key "\\uD800") ∧
      Config.parse source = .error ⟨.unfinishedPair, "\": 1\x7d", 1⟩ := by
  have zero : HexDigit '0' 0 := ⟨by decide, .inl rfl⟩
  have eight : HexDigit '8' 8 := ⟨by decide, .inl rfl⟩
  have thirteen : HexDigit 'D' 13 := ⟨by decide, .inr rfl⟩
  have half : Unquoted _ := .unit (.mk thirteen eight zero zero) .nil
  have one : Wellformed ['1'] := .number ⟨[], ['1'], [], [], .inl rfl,
    ⟨⟨by simp, by simp⟩, by simp⟩, .inl rfl, .inl rfl, rfl⟩
  have layout : Entries '\x7d' (Member fun _ => Unquoted) true [([], ['1'])] _ :=
    .entry (.first spaces_nil) (.mk half spaces_nil spaces_space) (.done spaces_nil)
  refine ⟨.object layout (List.forall_mem_singleton.mpr one), ?_, rfl⟩
  intro key spelled
  have read := scanText_spelled spelled []
  cases read

end Config

end Lectern
