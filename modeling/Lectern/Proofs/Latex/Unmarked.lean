import Lectern.Proofs.Latex.Inline

/-!
# What formatting leaves when its markup is deleted

Formatting adds commands for emphasis, takes stars away and puts backslashes in front of ampersands.
Deleting all of this from the output gives the line without its remarks and stars, so no character
of the text is lost, repeated or moved (`unmarked_formatInline`). The line itself has no backslash
and no closing brace: these could not be told from those that formatting adds.
-/

namespace Lectern.Latex

/-- Markup that the text starts with: what stays of it, and what follows. Only an ampersand stays,
without the backslash in front of it. -/
def markup? : Text → Option (Text × Text)
  | '*' :: after | '\x7d' :: after => some ([], after)
  | '\\' :: '&' :: after => some (['&'], after)
  | text => (emphasisStarts.findSome? (·.isPrefixOf? text)).map ([], ·)

/-- The text with its markup deleted. -/
def unmarked (text : Text) : Text := Text.replace markup? text

/-! ## Deleting markup -/

theorem unmarked_star (rest : Text) : unmarked ('*' :: rest) = unmarked rest := by
  have read : markup? ('*' :: ([] ++ rest)) = some ([], rest) := rfl
  exact Text.replace_cons_of_some read

theorem unmarked_closing (rest : Text) : unmarked ('\x7d' :: rest) = unmarked rest := by
  have read : markup? ('\x7d' :: ([] ++ rest)) = some ([], rest) := rfl
  exact Text.replace_cons_of_some read

theorem unmarked_ampersand (rest : Text) :
    unmarked ('\\' :: '&' :: rest) = '&' :: unmarked rest := by
  have read : markup? ('\\' :: (['&'] ++ rest)) = some (['&'], rest) := rfl
  exact Text.replace_cons_of_some read

theorem unmarked_start {start : Text} (known : start ∈ emphasisStarts) (rest : Text) :
    unmarked (start ++ rest) = unmarked rest := by
  rcases List.mem_pair.mp known with rfl | rfl
  · have read : markup? ('\\' :: (("textbf\x7b" : Text) ++ rest)) = some ([], rest) := rfl
    exact Text.replace_cons_of_some read
  · have read : markup? ('\\' :: (("textit\x7b" : Text) ++ rest)) = some ([], rest) := rfl
    exact Text.replace_cons_of_some read

/-- Any other character stays. -/
theorem unmarked_cons {c : Char} (noBackslash : c ≠ '\\') (noClosing : c ≠ '\x7d')
    (noStar : c ≠ '*') (rest : Text) : unmarked (c :: rest) = c :: unmarked rest := by
  have declined : markup? (c :: rest) = none := by
    simp [markup?, emphasisStarts, List.isPrefixOf?, Ne.symm noBackslash, noBackslash, noClosing,
      noStar]
  exact Text.replace_cons_of_none declined

/-- Without commands all that is deleted are the stars. -/
theorem unmarked_of_plain {text : Text} (noBackslash : '\\' ∉ text) (noClosing : '\x7d' ∉ text) :
    unmarked text = text.filter (· ≠ '*') := by
  induction text with
  | nil => rfl
  | cons c rest ih =>
    rw [List.mem_cons, not_or] at noBackslash noClosing
    have behind := ih noBackslash.2 noClosing.2
    by_cases star : c = '*'
    · subst star
      rw [unmarked_star, behind]
      rfl
    · rw [unmarked_cons (Ne.symm noBackslash.1) (Ne.symm noClosing.1) star, behind]
      simp [star]

/-- Commands are deleted in an inert text whatever stands behind it. -/
theorem Inert.unmarked_append {text : Text} (inert : Inert text) (rest : Text) :
    unmarked (text ++ rest) = unmarked text ++ unmarked rest := by
  induction inert with
  | nil => rfl
  | @char c noBackslash more inert ih =>
    rw [List.cons_append]
    by_cases star : c = '*'
    · rw [star, unmarked_star, unmarked_star, ih]
    by_cases closing : c = '\x7d'
    · rw [closing, unmarked_closing, unmarked_closing, ih]
    · rw [unmarked_cons noBackslash closing star, unmarked_cons noBackslash closing star, ih]
      rfl
  | command known inert ih =>
    rw [List.append_assoc, unmarked_start known, unmarked_start known, ih]

/-! ## Formatting -/

section

variable {stars name : Text} (nonempty : stars ≠ []) (all : ∀ c ∈ stars, c = '*')
include all

theorem unmarked_stars (rest : Text) : unmarked (stars ++ rest) = unmarked rest := by
  induction stars with
  | nil => rfl
  | cons c stars ih =>
    obtain rfl := all c (by simp)
    rw [List.cons_append, unmarked_star]
    exact ih fun d member => all d (by simp [member])

include nonempty

/-- A pass for emphasis changes nothing but markup. -/
theorem Inert.unmarked_replace_emphasis (known : ('\\' :: (name ++ ['\x7b'])) ∈ emphasisStarts)
    {text : Text} (inert : Inert text) :
    unmarked (Text.replace (emphasis? stars name) text) = unmarked text := by
  refine Text.replace_parts
    (motive := fun text image => Inert text → unmarked image = unmarked text)
    (goesForward_emphasis nonempty all) ?_ ?_ text inert
  · exact fun text _ => rfl
  · intro lead text image after read ih inert
    obtain ⟨part, rfl, -, rfl⟩ := eq_of_emphasis?_eq_some read
    -- Stars cut the text into inert parts, in each of which markup is deleted alone.
    obtain ⟨inertLead, inertBehind⟩ := split_stars nonempty all inert
    obtain ⟨inertPart, inertAfter⟩ := split_stars nonempty all inertBehind
    have written : Latex.command name part ++ Text.replace (emphasis? stars name) after =
        ('\\' :: (name ++ ['\x7b'])) ++
          (part ++ '\x7d' :: Text.replace (emphasis? stars name) after) := by
      simp [Latex.command, braced]
    rw [written, inertLead.unmarked_append, inertLead.unmarked_append, unmarked_start known,
      inertPart.unmarked_append, unmarked_closing, unmarked_stars all, inertPart.unmarked_append,
      unmarked_stars all, ih inertAfter]

end

/-- Escaping ampersands adds nothing but markup. -/
theorem Inert.unmarked_escapeAmpersand {text : Text} (inert : Inert text) :
    unmarked (escapeAmpersand text) = unmarked text := by
  induction inert with
  | nil => rfl
  | @char c noBackslash rest inert ih =>
    rw [escapeAmpersand_cons]
    split
    · rename_i ampersand
      subst ampersand
      have kept : unmarked ('&' :: rest) = '&' :: unmarked rest :=
        unmarked_cons (by decide) (by decide) (by decide) rest
      have escaped : unmarked ('\\' :: '&' :: escapeAmpersand rest) = '&' :: unmarked rest := by
        rw [unmarked_ampersand, ih]
      exact escaped.trans kept.symm
    · have single : Inert [c] := char noBackslash nil
      have kept : unmarked ([c] ++ rest) = unmarked [c] ++ unmarked rest :=
        single.unmarked_append rest
      rw [single.unmarked_append, ih, ← kept]
      rfl
  | command known inert ih =>
    rw [escapeAmpersand_start known, unmarked_start known, unmarked_start known, ih]

/-- Every ampersand of an escaped text has a backslash in front of it. -/
theorem backslash_before_ampersand {text before after : Text}
    (split : escapeAmpersand text = before ++ '&' :: after) :
    ∃ start, before = start ++ ['\\'] := by
  induction text generalizing before with
  | nil => simp [escapeAmpersand, Text.replaceChar] at split
  | cons c rest ih =>
    rw [escapeAmpersand_cons] at split
    split at split
    · -- The escape is `\&`, and its ampersand is the first one.
      rcases before with _ | ⟨first, _ | ⟨second, more⟩⟩
      · cases split
      · obtain ⟨rfl, -⟩ := List.cons.inj split
        exact ⟨[], rfl⟩
      · obtain ⟨rfl, behind⟩ := List.cons.inj split
        obtain ⟨rfl, further⟩ := List.cons.inj behind
        obtain ⟨start, rfl⟩ := ih further
        exact ⟨'\\' :: '&' :: start, rfl⟩
    · rename_i other
      rcases before with _ | ⟨first, more⟩
      · exact absurd (List.cons.inj split).1 other
      · obtain ⟨rfl, further⟩ := List.cons.inj split
        obtain ⟨start, rfl⟩ := ih further
        exact ⟨c :: start, rfl⟩

/-- Deleting the markup of a formatted line gives the line without its remarks and stars, and every
ampersand of a formatted line has a backslash in front of it. -/
theorem unmarked_formatInline {line : Text} (noBackslash : '\\' ∉ line)
    (noClosing : '\x7d' ∉ line) :
    unmarked (formatInline line) = (Remark.strip line).filter (· ≠ '*') ∧
      ∀ before after, formatInline line = before ++ '&' :: after →
        ∃ start, before = start ++ ['\\'] := by
  have stripped : Remark.strip line ⊆ line := Remark.strip_subset line
  obtain ⟨plain, strong, emphasised⟩ := inert_passes noBackslash
  refine ⟨?_, fun before after split => backslash_before_ampersand split⟩
  calc unmarked (formatInline line)
      = unmarked (formatEmphasis (formatStrong (Remark.strip line))) :=
        emphasised.unmarked_escapeAmpersand
    _ = unmarked (formatStrong (Remark.strip line)) :=
        strong.unmarked_replace_emphasis (by decide) (by simp) (by decide)
    _ = unmarked (Remark.strip line) :=
        plain.unmarked_replace_emphasis (by decide) (by simp) (by decide)
    _ = (Remark.strip line).filter (· ≠ '*') :=
        unmarked_of_plain (fun member => noBackslash (stripped member))
          (fun member => noClosing (stripped member))

/-- Stars that cross, with a remark and an ampersand among them. -/
theorem unmarked_crossing :
    let line : Text := "**a*b[!note]**&*c***"
    '\\' ∉ line ∧ '\x7d' ∉ line ∧
      formatInline line = "\\textbf\x7ba\\textit\x7bb\x7d\\&\x7dc\\textit\x7b*\x7d" ∧
      unmarked (formatInline line) = "ab&c" := by
  intro line
  have noBackslash : '\\' ∉ line := by decide
  have noClosing : '\x7d' ∉ line := by decide
  have stripped : (Remark.strip line).filter (· ≠ '*') = "ab&c" := by decide
  exact ⟨noBackslash, noClosing, by decide,
    (unmarked_formatInline noBackslash noClosing).1.trans stripped⟩

end Lectern.Latex
