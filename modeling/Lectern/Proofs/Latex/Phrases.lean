import Mathlib.Data.List.Chain
import Lectern.Proofs.Latex.Inline

/-!
# Emphasis as it was meant

A line that an author puts together from phrases, each plain, strong or emphasised as a whole, is
formatted phrase by phrase (`formatInline_sources`). Strong parts and emphasised parts are set off
by the same character, so one condition is needed: no phrase with stars directly behind an
emphasised one, where the closing star and the opening ones would be read together. Behind a strong
phrase any phrase may stand, since the stars that close it are the first two.
-/

namespace Lectern.Latex

/-- How a phrase is set. -/
inductive Tone where
  | plain
  | strong
  | emphasised
  deriving DecidableEq

/-- A part of a line that is set as a whole. -/
structure Phrase where
  tone : Tone
  text : Text
  nonempty : text ≠ []
  noStar : '*' ∉ text
  noBracket : '[' ∉ text
  noFeed : '\n' ∉ text

namespace Phrase

/-- The phrase as an author writes it. -/
def source (phrase : Phrase) : Text :=
  match phrase.tone with
  | .plain => phrase.text
  | .strong => "**" ++ phrase.text ++ "**"
  | .emphasised => "*" ++ phrase.text ++ "*"

/-- The phrase as it is meant in LaTeX, with its ampersands bare. -/
def meant (phrase : Phrase) : Text :=
  match phrase.tone with
  | .plain => phrase.text
  | .strong => command "textbf" phrase.text
  | .emphasised => command "textit" phrase.text

/-- The phrase between the two passes. -/
def halfway (phrase : Phrase) : Text :=
  match phrase.tone with
  | .strong => phrase.meant
  | _ => phrase.source

/-- No phrase with stars directly behind an emphasised one. -/
def Separate (phrases : List Phrase) : Prop :=
  phrases.IsChain fun phrase next => phrase.tone = .emphasised → next.tone = .plain

end Phrase

/-! ## One phrase -/

section

variable {stars name : Text} (nonempty : stars ≠ []) (all : ∀ c ∈ stars, c = '*')
include nonempty all

/-- A part without stars and line feeds is set off up to the next stars. -/
theorem emphasis?_part {part : Text} (nonemptyPart : part ≠ []) (noStar : '*' ∉ part)
    (noFeed : '\n' ∉ part) (rest : Text) :
    emphasis? stars name (stars ++ (part ++ (stars ++ rest))) = some (command name part, rest) := by
  obtain ⟨star, more, rfl⟩ := List.exists_cons_of_ne_nil nonempty
  obtain ⟨first, inner, rfl⟩ := List.exists_cons_of_ne_nil nonemptyPart
  obtain rfl := all star (by simp)
  have noStarInside : '*' ∉ inner := fun member => noStar (by simp [member])
  have opened : ('*' :: more).isPrefixOf?
      ('*' :: more ++ (first :: inner ++ ('*' :: more ++ rest))) =
        some (first :: (inner ++ ('*' :: more ++ rest))) :=
    List.isPrefixOf?_eq_some_iff_append_eq.mpr rfl
  have closed : Text.cutAtText ('*' :: more) (inner ++ ('*' :: more ++ rest)) =
      some (inner, rest) := Text.cutAtText_append_of_absent noStarInside rest
  rw [emphasis?, opened]
  simp only [closed, if_neg noFeed]

/-- Such a part is replaced by its command. -/
theorem replace_emphasis_part {part : Text} (nonemptyPart : part ≠ []) (noStar : '*' ∉ part)
    (noFeed : '\n' ∉ part) (rest : Text) :
    Text.replace (emphasis? stars name) (stars ++ (part ++ (stars ++ rest))) =
      command name part ++ Text.replace (emphasis? stars name) rest := by
  have read : emphasis? stars name (stars ++ (part ++ (stars ++ rest))) =
      some (command name part, rest) := emphasis?_part nonempty all nonemptyPart noStar noFeed rest
  obtain ⟨star, more, rfl⟩ := List.exists_cons_of_ne_nil nonempty
  have shape : star :: more ++ (part ++ (star :: more ++ rest)) =
      star :: ((more ++ (part ++ star :: more)) ++ rest) := by simp
  rw [shape] at read ⊢
  exact Text.replace_cons_of_some read

/-- A text without stars stays. -/
theorem replace_emphasis_append {text : Text} (noStar : '*' ∉ text) (rest : Text) :
    Text.replace (emphasis? stars name) (text ++ rest) =
      text ++ Text.replace (emphasis? stars name) rest := by
  refine Text.replace_append_of_declined ?_ rest
  intro c member behind
  exact emphasis?_eq_none nonempty all (fun same => noStar (same ▸ member)) behind

end

/-- A single star opens no strong part. -/
theorem formatStrong_star {rest : Text} (single : rest.head? ≠ some '*') :
    formatStrong ('*' :: rest) = '*' :: formatStrong rest := by
  have declined : emphasis? "**" "textbf" ('*' :: rest) = none := by
    cases read : emphasis? "**" "textbf" ('*' :: rest) with
    | none => rfl
    | some found =>
      obtain ⟨part, same, -, -⟩ := eq_of_emphasis?_eq_some read
      obtain ⟨-, behind⟩ := List.cons.inj same
      exact absurd (by rw [behind]; rfl) single
  exact Text.replace_cons_of_none declined

/-! ## Phrases in a row -/

namespace Phrase

theorem head?_text_ne (phrase : Phrase) (rest : Text) : (phrase.text ++ rest).head? ≠ some '*' := by
  obtain ⟨first, more, written⟩ := List.exists_cons_of_ne_nil phrase.nonempty
  rw [written]
  intro star
  obtain rfl := Option.some.inj star
  exact phrase.noStar (by simp [written])

/-- Behind an emphasised phrase there is no star. -/
theorem Separate.head?_ne {phrase : Phrase} {rest : List Phrase}
    (separate : Separate (phrase :: rest)) (emphasised : phrase.tone = .emphasised) :
    (rest.flatMap source).head? ≠ some '*' := by
  cases rest with
  | nil => simp
  | cons next more =>
    have plain : next.tone = .plain := (List.isChain_cons_cons.mp separate).1 emphasised
    rw [List.flatMap_cons, source, plain]
    exact next.head?_text_ne _

/-- The first pass sets the strong phrases and leaves the others. -/
theorem formatStrong_sources {phrases : List Phrase} (separate : Separate phrases) :
    formatStrong (phrases.flatMap source) = phrases.flatMap halfway := by
  induction phrases with
  | nil => rfl
  | cons phrase rest ih =>
    have behind := ih separate.tail
    rw [List.flatMap_cons, List.flatMap_cons, ← behind]
    cases tone : phrase.tone with
    | plain =>
      rw [halfway, source, tone]
      exact replace_emphasis_append (by decide) (by simp) phrase.noStar _
    | strong =>
      rw [halfway, source, meant, tone, List.append_assoc, List.append_assoc]
      exact replace_emphasis_part (by decide) (by simp) phrase.nonempty phrase.noStar
        phrase.noFeed _
    | emphasised =>
      -- Neither star of the phrase has another star behind it.
      have closing := formatStrong_star (separate.head?_ne tone)
      have kept : formatStrong (phrase.text ++ '*' :: rest.flatMap source) =
          phrase.text ++ '*' :: formatStrong (rest.flatMap source) := by
        rw [← closing]
        exact replace_emphasis_append (by decide) (by simp) phrase.noStar _
      have opening := formatStrong_star (phrase.head?_text_ne ('*' :: rest.flatMap source))
      rw [kept] at opening
      rw [halfway, source, tone]
      simpa using opening

/-- The second pass sets the emphasised phrases; a command of the first pass has no star. -/
theorem formatEmphasis_halfway (phrases : List Phrase) :
    formatEmphasis (phrases.flatMap halfway) = phrases.flatMap meant := by
  induction phrases with
  | nil => rfl
  | cons phrase rest ih =>
    rw [List.flatMap_cons, List.flatMap_cons, ← ih]
    cases tone : phrase.tone with
    | plain =>
      rw [halfway, source, meant, tone]
      exact replace_emphasis_append (by decide) (by simp) phrase.noStar _
    | strong =>
      have noStar : '*' ∉ command "textbf" phrase.text := by
        simp [command, braced, phrase.noStar]
      rw [halfway, meant, tone]
      exact replace_emphasis_append (by decide) (by simp) noStar _
    | emphasised =>
      rw [halfway, source, meant, tone, List.append_assoc, List.append_assoc]
      exact replace_emphasis_part (by decide) (by simp) phrase.nonempty phrase.noStar
        phrase.noFeed _

theorem noBracket_sources (phrases : List Phrase) : '[' ∉ phrases.flatMap source := by
  intro member
  obtain ⟨phrase, -, inSource⟩ := List.mem_flatMap.mp member
  cases tone : phrase.tone <;> simp [source, tone, phrase.noBracket] at inSource

end Phrase

/-- Separate phrases are formatted one by one, and every ampersand in them is escaped. -/
theorem formatInline_sources {phrases : List Phrase} (separate : Phrase.Separate phrases) :
    formatInline (phrases.flatMap Phrase.source) =
      Text.replaceChar '&' "\\&" (phrases.flatMap Phrase.meant) := by
  rw [formatInline, Remark.strip_eq_self (Phrase.noBracket_sources phrases),
    Phrase.formatStrong_sources separate, Phrase.formatEmphasis_halfway]
  rfl

/-- A strong phrase in front of another strong one and an emphasised one. -/
def neighbours : List Phrase := [
  ⟨.strong, "R&D", by decide, by decide, by decide, by decide⟩,
  ⟨.strong, "x", by decide, by decide, by decide, by decide⟩,
  ⟨.emphasised, "y", by decide, by decide, by decide, by decide⟩,
  ⟨.plain, " & ", by decide, by decide, by decide, by decide⟩,
  ⟨.emphasised, "z", by decide, by decide, by decide, by decide⟩]

theorem formatInline_neighbours :
    Phrase.Separate neighbours ∧
      formatInline "**R&D****x***y* & *z*" =
        "\\textbf\x7bR\\&D\x7d\\textbf\x7bx\x7d\\textit\x7by\x7d \\& \\textit\x7bz\x7d" := by
  have separate : Phrase.Separate neighbours := by
    simp [Phrase.Separate, neighbours]
  exact ⟨separate, formatInline_sources separate⟩

end Lectern.Latex
