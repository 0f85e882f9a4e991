import Lectern.Latex.Inline
import Lectern.Proofs.Latex.Token
import Lectern.Proofs.Deck.BodyLine
import Lectern.Proofs.Text.Occurrence

/-!
# Tokens of formatted lines

Formatting a line makes no token. The passes for emphasis add commands of two names and cut their
text only at stars, so that every backslash stands in front of one of these names in full. The pass
for ampersands comes last and adds backslashes in front of ampersands only.
-/

namespace Lectern.Latex

/-- The starts of the commands for emphasis. -/
def emphasisStarts : List Text := ["\\textbf\x7b", "\\textit\x7b"]

/-- A text in which every backslash starts a command for emphasis. -/
inductive Inert : Text → Prop where
  | nil : Inert []
  | char {c : Char} (noBackslash : c ≠ '\\') {rest : Text} (inert : Inert rest) : Inert (c :: rest)
  | command {start : Text} (known : start ∈ emphasisStarts) {rest : Text} (inert : Inert rest) :
    Inert (start ++ rest)

namespace Inert

theorem of_noBackslash {text : Text} (noBackslash : '\\' ∉ text) : Inert text := by
  induction text with
  | nil => exact nil
  | cons c text ih =>
    have differs : c ≠ '\\' := fun same => noBackslash (by simp [same])
    have noBackslashBehind : '\\' ∉ text := fun member => noBackslash (by simp [member])
    exact char differs (ih noBackslashBehind)

theorem append {first second : Text} (inertFirst : Inert first) (inertSecond : Inert second) :
    Inert (first ++ second) := by
  induction inertFirst with
  | nil => exact inertSecond
  | char noBackslash inert ih => exact char noBackslash ih
  | command known inert ih =>
    rw [List.append_assoc]
    exact command known ih

theorem noStar_of_mem {start : Text} (known : start ∈ emphasisStarts) : '*' ∉ start := by
  rcases List.mem_pair.mp known with rfl | rfl <;> decide

/-- A star is never inside a command, so an inert text falls into inert parts at each of them. -/
theorem split_star {text before after : Text} (inert : Inert text)
    (split : text = before ++ '*' :: after) : Inert before ∧ Inert after := by
  induction inert generalizing before with
  | nil => simp at split
  | @char c noBackslash rest inert ih =>
    cases before with
    | nil =>
      obtain ⟨-, rfl⟩ := List.cons.inj split
      exact ⟨nil, inert⟩
    | cons d before =>
      obtain ⟨rfl, same⟩ := List.cons.inj split
      obtain ⟨inertBefore, inertAfter⟩ := ih same
      exact ⟨char noBackslash inertBefore, inertAfter⟩
  | @command start known rest inert ih =>
    rcases List.append_eq_append_iff.mp split with ⟨more, rfl, same⟩ | ⟨more, reach, same⟩
    · obtain ⟨inertBefore, inertAfter⟩ := ih same
      exact ⟨command known inertBefore, inertAfter⟩
    · cases more with
      | nil =>
        rw [List.append_nil] at reach
        subst reach
        rw [List.nil_append] at same
        have split : rest = [] ++ '*' :: after := same.symm
        obtain ⟨-, inertAfter⟩ := ih split
        have whole := command known Inert.nil
        rw [List.append_nil] at whole
        exact ⟨whole, inertAfter⟩
      | cons d more =>
        obtain ⟨rfl, -⟩ := List.cons.inj same
        exact absurd (by simp [reach]) (noStar_of_mem known)

/-- The same holds at a run of stars. -/
theorem split_stars {stars : Text} (nonempty : stars ≠ []) (all : ∀ c ∈ stars, c = '*')
    {before after : Text} (inert : Inert (before ++ (stars ++ after))) :
    Inert before ∧ Inert after := by
  induction stars generalizing before with
  | nil => exact absurd rfl nonempty
  | cons c stars ih =>
    obtain rfl := all c (by simp)
    obtain ⟨inertBefore, inertBehind⟩ := inert.split_star rfl
    by_cases last : stars = []
    · subst last
      exact ⟨inertBefore, inertBehind⟩
    · have more : Inert ([] ++ (stars ++ after)) := inertBehind
      obtain ⟨-, inertAfter⟩ := ih last (fun d member => all d (by simp [member])) more
      exact ⟨inertBefore, inertAfter⟩

/-- Replacement keeps a text inert if its step acts at stars only and makes inert images. -/
theorem replace {step : Text → Option (Text × Text)} (forward : Text.GoesForward step)
    (atStar : ∀ c rest, c ≠ '*' → step (c :: rest) = none)
    (sound : ∀ text image after, Inert text → step text = some (image, after) →
      Inert image ∧ Inert after)
    {text : Text} (inert : Inert text) : Inert (Text.replace step text) := by
  refine Text.replace_parts (motive := fun text image => Inert text → Inert image) forward ?_ ?_
    text inert
  · exact fun text inert => inert
  · intro lead text image after accepted ih inert
    obtain ⟨c, part, rfl⟩ := forward accepted
    obtain rfl : c = '*' := by
      by_contra other
      rw [atStar c _ other] at accepted
      cases accepted
    obtain ⟨inertLead, inertBehind⟩ := inert.split_star rfl
    obtain ⟨inertImage, inertAfter⟩ := sound _ image after (char (by decide) inertBehind) accepted
    exact inertLead.append (inertImage.append (ih inertAfter))

end Inert

/-! ## Emphasis -/

section

variable {stars name : Text}

/-- A part set off by stars stands between two runs of them. -/
theorem eq_of_emphasis?_eq_some {text image after : Text}
    (read : emphasis? stars name text = some (image, after)) :
    ∃ part, text = stars ++ (part ++ (stars ++ after)) ∧ part ≠ [] ∧ image = command name part := by
  rw [emphasis?] at read
  split at read
  · rename_i first rest opened
    split at read
    · rename_i more behind closed
      split at read
      · cases read
      · obtain ⟨rfl, rfl⟩ := Prod.mk.inj (Option.some.inj read)
        refine ⟨first :: more, ?_, by simp, rfl⟩
        rw [← List.isPrefixOf?_eq_some_iff_append_eq.mp opened, Text.eq_of_cutAtText_eq_some closed]
        simp
    · cases read
  · cases read

variable (nonempty : stars ≠ []) (all : ∀ c ∈ stars, c = '*')
include nonempty all

theorem goesForward_emphasis : Text.GoesForward (emphasis? stars name) := by
  intro text image after read
  obtain ⟨part, rfl, -, -⟩ := eq_of_emphasis?_eq_some read
  obtain ⟨c, more, rfl⟩ := List.exists_cons_of_ne_nil nonempty
  exact ⟨c, more ++ (part ++ (c :: more)), by simp⟩

theorem emphasis?_eq_none {c : Char} (other : c ≠ '*') (rest : Text) :
    emphasis? stars name (c :: rest) = none := by
  cases read : emphasis? stars name (c :: rest) with
  | none => rfl
  | some found =>
    obtain ⟨d, more, rfl⟩ := List.exists_cons_of_ne_nil nonempty
    obtain ⟨part, same, -, -⟩ := eq_of_emphasis?_eq_some read
    obtain ⟨rfl, -⟩ := List.cons.inj same
    exact absurd (all c (by simp)) other

/-- A pass for emphasis keeps a text inert. -/
theorem Inert.replace_emphasis (known : ('\\' :: (name ++ ['\x7b'])) ∈ emphasisStarts) {text : Text}
    (inert : Inert text) : Inert (Text.replace (emphasis? stars name) text) := by
  refine Inert.replace (goesForward_emphasis nonempty all) ?_ ?_ inert
  · exact fun c rest other => emphasis?_eq_none nonempty all other rest
  · intro text image after inertText read
    obtain ⟨part, rfl, -, rfl⟩ := eq_of_emphasis?_eq_some read
    have whole : Inert ([] ++ (stars ++ (part ++ (stars ++ after)))) := inertText
    obtain ⟨-, behind⟩ := split_stars nonempty all whole
    obtain ⟨inertPart, inertAfter⟩ := split_stars nonempty all behind
    have written : Latex.command name part =
        ('\\' :: (name ++ ['\x7b'])) ++ (part ++ ['\x7d']) := by
      simp [Latex.command, braced]
    have closed : Inert ['\x7d'] := of_noBackslash (by decide)
    rw [written]
    exact ⟨Inert.command known (inertPart.append closed), inertAfter⟩

end

/-! ## Ampersands and whole lines -/

theorem escapeAmpersand_cons (c : Char) (rest : Text) :
    escapeAmpersand (c :: rest) =
      (if c = '&' then ("\\&" : Text) else [c]) ++ escapeAmpersand rest := rfl

theorem escapeAmpersand_start {start : Text} (known : start ∈ emphasisStarts) (rest : Text) :
    escapeAmpersand (start ++ rest) = start ++ escapeAmpersand rest := by
  rcases List.mem_pair.mp known with rfl | rfl <;> rfl

/-- An inert text is silent with its ampersands escaped. -/
theorem Inert.silent_escapeAmpersand {text : Text} (inert : Inert text) :
    Silent (escapeAmpersand text) := by
  induction inert with
  | nil => exact Silent.nil
  | @char c noBackslash rest inert ih =>
    rw [escapeAmpersand_cons]
    refine Silent.append ?_ ih
    split
    · have ampersand : Silent ('\\' :: ([] ++ ['&'])) :=
        Silent.command (by decide) (by decide)
      exact ampersand
    · exact Silent.of_noBackslash (by simpa using Ne.symm noBackslash)
  | @command start known rest inert ih =>
    have silent : Silent start := by
      rcases List.mem_pair.mp known with rfl | rfl
      · have strong : Silent ('\\' :: (("textbf" : Text) ++ ['\x7b'])) :=
          Silent.command (by decide) (by decide)
        exact strong
      · have emphasised : Silent ('\\' :: (("textit" : Text) ++ ['\x7b'])) :=
          Silent.command (by decide) (by decide)
        exact emphasised
    rw [escapeAmpersand_start known]
    exact silent.append ih

/-- Both passes for emphasis leave an inert text, if the line has no backslash. -/
theorem inert_passes {line : Text} (noBackslash : '\\' ∉ line) :
    Inert (Remark.strip line) ∧ Inert (formatStrong (Remark.strip line)) ∧
      Inert (formatEmphasis (formatStrong (Remark.strip line))) := by
  have stripped : Inert (Remark.strip line) :=
    Inert.of_noBackslash fun member => noBackslash (Remark.strip_subset line member)
  have strong : Inert (formatStrong (Remark.strip line)) :=
    Inert.replace_emphasis (by decide) (by simp) (by decide) stripped
  have emphasised : Inert (formatEmphasis (formatStrong (Remark.strip line))) :=
    Inert.replace_emphasis (by decide) (by simp) (by decide) strong
  exact ⟨stripped, strong, emphasised⟩

/-- A formatted line has no token if the line has no backslash. -/
theorem silent_formatInline {line : Text} (noBackslash : '\\' ∉ line) :
    Silent (formatInline line) := by
  obtain ⟨-, -, emphasised⟩ := inert_passes noBackslash
  exact emphasised.silent_escapeAmpersand

end Lectern.Latex
