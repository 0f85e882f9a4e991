import Lectern.Proofs.Files.Path
import Lectern.Publish.Outputs

/-!
# Places of outputs

The name of an output is made of the stem of the deck file, a language tag, the suffix and the
extension. Where none of them has a slash, the name is one step below the output folder
(`isName_outputName`). A configuration is checked for slashes in the suffix alone, so a tag or an
extension can lead further: `inOutputFolder_iff` says when the output stays in its folder.
-/

namespace Lectern

/-- What checking a configuration ensures. -/
structure Config.Usable (config : Config) : Prop where
  suffix : Text.isBlankText config.output.suffix = false
  extension : Text.isBlankText config.output.extension = false
  theme : Text.isBlankText config.latex.theme = false
  noSlashInSuffix : '/' ∉ config.output.suffix
  noBackslashInSuffix : '\\' ∉ config.output.suffix

theorem Config.usable_of_validate {config : Config} (valid : config.validate = .ok ()) :
    config.Usable := by
  rw [validate] at valid
  cases refused : config.invalidSetting? with
  | some invalid =>
    rw [refused] at valid
    cases valid
  | none =>
    rw [invalidSetting?] at refused
    split at refused
    · cases refused
    · rename_i written
      have noBlank (setting value : Text) (member : (setting, value) ∈ config.required) :
          Text.isBlankText value = false := by
        simpa using List.find?_eq_none.mp written _ member
      split at refused
      · cases refused
      · rename_i noSeparator
        rw [not_or] at noSeparator
        refine ⟨noBlank "output.suffix" _ ?_, noBlank "output.extension" _ ?_,
          noBlank "latex.theme" _ ?_, noSeparator.1, noSeparator.2⟩ <;> simp [required]

namespace Publisher

theorem suffix_ne_nil {config : Config} (usable : config.Usable) : config.output.suffix ≠ [] := by
  intro empty
  have notBlank := usable.suffix
  rw [empty] at notBlank
  cases notBlank

/-- A publisher has the configuration that it was made from, and this has been checked. -/
theorem of_ofConfig_eq_ok {config : Config} {requested : Option Text} {publisher : Publisher}
    (made : ofConfig config requested = .ok publisher) :
    publisher = ⟨config, requested⟩ ∧ config.Usable := by
  rw [ofConfig] at made
  cases valid : config.validate with
  | error invalid =>
    rw [valid] at made
    cases made
  | ok accepted =>
    rw [valid] at made
    exact ⟨(Except.ok.inj made).symm, Config.usable_of_validate valid⟩

/-! ## Names of outputs -/

/-- What stands in the name of an output before its extension. -/
def nameLead (input : Path) (language : Option Text) (suffix : Text) : Text :=
  Path.stem input ++ language.elim [] ('_' :: ·) ++ suffix ++ ['.']

theorem outputName_eq (input : Path) (language : Option Text) (suffix extension : Text) :
    outputName input language suffix extension =
      nameLead input language suffix ++ extension.dropWhile (· = '.') := rfl

/-- Outputs of a deck file in different languages have different names. -/
theorem outputName_inj {input : Path} {language other : Option Text} {suffix extension : Text}
    (same : outputName input language suffix extension =
      outputName input other suffix extension) : language = other := by
  simp only [outputName, List.append_assoc, List.append_cancel_left_eq] at same
  have sameTag := List.append_cancel_right same
  cases language <;> cases other <;> simp_all

section

variable {input : Path} {name : Text} (named : input.fileName? = some name)
include named

theorem noSlash_stem : '/' ∉ input.stem := fun member =>
  (Path.isName_of_fileName? named).noSlash
    ((Path.stem_of_fileName? named).1.subset member)

/-- The part before the extension has a slash only from the tag or the suffix. -/
theorem noSlash_nameLead {suffix : Text} (noSlashInSuffix : '/' ∉ suffix) {language : Option Text}
    (noSlashInTag : ∀ tag ∈ language, '/' ∉ tag) : '/' ∉ nameLead input language suffix := by
  have noSlashInTagPart : '/' ∉ language.elim [] ('_' :: ·) := by
    cases language with
    | none => exact List.not_mem_nil
    | some tag => simpa using noSlashInTag tag rfl
  simp [nameLead, noSlash_stem named, noSlashInTagPart, noSlashInSuffix]

variable {suffix : Text} (written : suffix ≠ [])
include written

/-- The name of an output starts with two characters that are no slashes. -/
theorem nameLead_cons (noSlashInSuffix : '/' ∉ suffix) (language : Option Text) :
    ∃ c d rest, c ≠ '/' ∧ d ≠ '/' ∧ nameLead input language suffix = c :: d :: rest := by
  have noSlash := noSlash_stem named
  obtain ⟨c, stem, shape⟩ := List.exists_cons_of_ne_nil (Path.stem_of_fileName? named).2
  obtain ⟨d, more, rfl⟩ := List.exists_cons_of_ne_nil written
  rw [shape, List.mem_cons, not_or] at noSlash
  rw [List.mem_cons, not_or] at noSlashInSuffix
  rw [nameLead, shape]
  cases stem with
  | cons e stem =>
    rw [List.mem_cons, not_or] at noSlash
    exact ⟨c, e, _, Ne.symm noSlash.1, Ne.symm noSlash.2.1, rfl⟩
  | nil =>
    cases language with
    | none => exact ⟨c, d, _, Ne.symm noSlash.1, Ne.symm noSlashInSuffix.1, rfl⟩
    | some tag => exact ⟨c, '_', _, Ne.symm noSlash.1, by decide, rfl⟩

theorem steps_outputName_ne_nil (noSlashInSuffix : '/' ∉ suffix) (language : Option Text)
    (extension : Text) : Path.steps (outputName input language suffix extension) ≠ [] := by
  obtain ⟨c, d, rest, first, second, lead⟩ := nameLead_cons named written noSlashInSuffix language
  rw [outputName_eq, lead]
  exact Path.steps_ne_nil_of_pair first second _

theorem front_outputName (noSlashInSuffix : '/' ∉ suffix) (language : Option Text)
    (extension : Text) : Path.front (outputName input language suffix extension) = [] := by
  obtain ⟨c, d, rest, first, second, lead⟩ := nameLead_cons named written noSlashInSuffix language
  rw [outputName_eq, lead]
  apply Path.front_eq_nil
  · simpa using first
  · simp
  · intro dotSlash
    obtain ⟨-, behind⟩ := List.cons_prefix_cons.mp dotSlash
    obtain ⟨slash, -⟩ := List.cons_prefix_cons.mp behind
    exact second slash.symm

/-- Without slashes in the tag, the steps of an output's name are its start and the parts that count
of what follows in the extension. -/
theorem steps_outputName_of_noSlash (noSlashInSuffix : '/' ∉ suffix) {language : Option Text}
    (noSlashInTag : ∀ tag ∈ language, '/' ∉ tag) (extension : Text) :
    ∃ first, Path.steps (outputName input language suffix extension) =
      first :: ((extension.dropWhile (· = '.')).splitOn '/').tail.filter
        fun part => !Path.isIdle part := by
  have noSlash := noSlash_nameLead named noSlashInSuffix noSlashInTag
  obtain ⟨c, d, rest, -, -, lead⟩ := nameLead_cons named written noSlashInSuffix language
  obtain ⟨first, more, parts⟩ := List.exists_cons_of_ne_nil
    (List.splitOn_ne_nil '/' (extension.dropWhile (· = '.')))
  have whole : (outputName input language suffix extension).splitOn '/' =
      (nameLead input language suffix ++ first) :: more := by
    rw [outputName_eq, Text.splitOn_append_of_absent noSlash, parts, List.modifyHead_cons]
  have counts : Path.isIdle (nameLead input language suffix ++ first) = false := by
    simp [lead, Path.isIdle]
  refine ⟨nameLead input language suffix ++ first, ?_⟩
  rw [Path.steps, whole, List.filter_cons_of_pos (by simp [counts]), parts, List.tail_cons]

/-- A slash in the tag makes a further step of what stands behind it. -/
theorem steps_outputName_of_slash (noSlashInSuffix : '/' ∉ suffix) {tag : Text}
    (slash : '/' ∈ tag) (extension : Text) :
    (Path.steps (outputName input (some tag) suffix extension)).dropLast ≠ [] := by
  obtain ⟨before, after, rfl⟩ := List.append_of_mem slash
  have cut : outputName input (some (before ++ '/' :: after)) suffix extension =
      (input.stem ++ '_' :: before) ++ '/' ::
        (after ++ (suffix ++ '.' :: extension.dropWhile (· = '.'))) := by
    simp [outputName]
  have first : Path.steps (input.stem ++ '_' :: before) ≠ [] :=
    Path.steps_append_cons_ne_nil (Path.stem_of_fileName? named).2 (noSlash_stem named)
      (by decide) before
  have second : Path.steps (after ++ (suffix ++ '.' :: extension.dropWhile (· = '.'))) ≠ [] :=
    Path.steps_append_ne_nil after
      (Path.steps_append_cons_ne_nil written noSlashInSuffix (by decide) _)
  rw [cut, Path.steps_append_slash, List.dropLast_append_of_ne_nil second]
  exact List.append_ne_nil_of_left_ne_nil first _

/-- Without slashes in its parts, the name of an output is the name of a file. -/
theorem isName_outputName (noSlashInSuffix : '/' ∉ suffix) {language : Option Text}
    (noSlashInTag : ∀ tag ∈ language, '/' ∉ tag) {extension : Text}
    (noSlashInExtension : '/' ∉ extension) :
    Path.IsName (outputName input language suffix extension) where
  noSlash := by
    have noSlashBehind : '/' ∉ extension.dropWhile (· = '.') := fun member =>
      noSlashInExtension (List.dropWhile_subset _ member)
    rw [outputName_eq]
    exact List.not_mem_append (noSlash_nameLead named noSlashInSuffix noSlashInTag) noSlashBehind
  counts := by
    obtain ⟨c, d, rest, -, -, lead⟩ := nameLead_cons named written noSlashInSuffix language
    simp [outputName_eq, lead, Path.isIdle]
  notUp := by
    have stem := List.length_pos_iff.mpr (Path.stem_of_fileName? named).2
    have behind := List.length_pos_iff.mpr written
    intro up
    have short := congrArg List.length up
    simp only [outputName, List.length_append, List.length_cons, List.length_nil] at short
    omega

end

/-- An output stays in its folder: the parent of its path is the folder for outputs. -/
def InOutputFolder (publisher : Publisher) (input : Path) (language : Option Text) : Prop :=
  ∃ parent, (publisher.outputPath input language).parent? = some parent ∧
    parent.Same (publisher.outputFolder input)

/-- An output stays in its folder exactly if the tag has no slash and the extension none with a
part that counts behind it. -/
theorem inOutputFolder_iff {config : Config} {requested : Option Text} {publisher : Publisher}
    (made : ofConfig config requested = .ok publisher) {input : Path} {name : Text}
    (named : input.fileName? = some name) (language : Option Text) :
    publisher.InOutputFolder input language ↔
      (∀ tag ∈ language, '/' ∉ tag) ∧
        ∀ part ∈ ((config.output.extension.dropWhile (· = '.')).splitOn '/').tail,
          Path.isIdle part := by
  obtain ⟨rfl, usable⟩ := of_ofConfig_eq_ok made
  have written := suffix_ne_nil usable
  have noSlash := usable.noSlashInSuffix
  have single := Path.parent?_join_same_iff ((Publisher.mk config requested).outputFolder input)
    (front_outputName named written noSlash language config.output.extension)
    (steps_outputName_ne_nil named written noSlash language config.output.extension)
  rw [InOutputFolder, outputPath, single]
  by_cases noSlashInTag : ∀ tag ∈ language, '/' ∉ tag
  · obtain ⟨first, steps⟩ :=
      steps_outputName_of_noSlash named written noSlash noSlashInTag config.output.extension
    have short (kept : List Text) : (first :: kept).dropLast = [] ↔ kept = [] := by
      cases kept <;> simp
    rw [steps, short, List.filter_eq_nil_iff, and_iff_right noSlashInTag]
    simp only [Bool.not_eq_true', Bool.not_eq_false]
  · obtain ⟨tag, rfl, slash⟩ : ∃ tag, language = some tag ∧ '/' ∈ tag := by
      simpa using noSlashInTag
    have further :=
      steps_outputName_of_slash named written noSlash slash config.output.extension
    simp [further, slash]

/-- The usual configuration keeps the outputs for a plain tag in the folder of the deck. -/
theorem inOutputFolder_standard :
    ofConfig Config.standard none = .ok ⟨Config.standard, none⟩ ∧
      Path.fileName? "decks/talk.vmd" = some ("talk.vmd" : Text) ∧
      (Publisher.mk Config.standard none).InOutputFolder "decks/talk.vmd" (some "EN") := by
  have made : ofConfig Config.standard none = .ok ⟨Config.standard, none⟩ := rfl
  have named : Path.fileName? "decks/talk.vmd" = some ("talk.vmd" : Text) := by decide
  exact ⟨made, named, (inOutputFolder_iff made named (some "EN")).mpr (by decide)⟩

/-- A tag with a slash, which a deck may have, takes its output to another folder. -/
theorem not_inOutputFolder_slash :
    ofConfig Config.standard none = .ok ⟨Config.standard, none⟩ ∧
      Path.fileName? "decks/talk.vmd" = some ("talk.vmd" : Text) ∧
      (Document.parse "# Scene: A\n## Slide(lang=\"EN/x\")").languages = .ok ["EN/x"] ∧
      ¬ (Publisher.mk Config.standard none).InOutputFolder "decks/talk.vmd" (some "EN/x") := by
  have parent : Path.parent?
      ((Publisher.mk Config.standard none).outputPath "decks/talk.vmd" (some "EN/x")) =
        some "decks/talk_EN" := by decide
  refine ⟨rfl, by decide, by decide, ?_⟩
  rintro ⟨other, found, -, steps⟩
  obtain rfl := Option.some.inj (parent.symm.trans found)
  exact absurd steps (by decide)

end Publisher
end Lectern
