import Lectern.Proofs.Latex.Inline

/-!
# Balanced braces

The two passes for emphasis know nothing of braces, so a part set off by stars may hold any of them,
also ones that the other pass has put there. What a pass does to a part is seen from the depth of
open braces: behind the part it is the same as before the pass, and inside the part it is greater by
one. So the depth never falls below what it was, and a text that is balanced stays so
(`bracesBalanced_formatInline`).
-/

namespace Lectern.Latex

/-- A text in which no closing brace comes too early and as many braces are closed as opened. -/
structure BracesBalanced (text : Text) : Prop where
  neverBelow : ∀ start, start <+: text → start.count '\x7d' ≤ start.count '\x7b'
  allClosed : text.count '\x7b' = text.count '\x7d'

namespace Braces

/-! ## Depth -/

/-- The depth behind a character; `none` for a closing brace without a partner. -/
def step? (depth : ℕ) (c : Char) : Option ℕ :=
  if c = '\x7b' then some (depth + 1)
  else if c = '\x7d' then if depth = 0 then none else some (depth - 1)
  else some depth

/-- The depth of open braces behind a text that starts at a depth. -/
def depth? : ℕ → Text → Option ℕ
  | depth, [] => some depth
  | depth, c :: rest => (step? depth c).bind fun depth => depth? depth rest

theorem depth?_append (depth : ℕ) (first second : Text) :
    depth? depth (first ++ second) =
      (depth? depth first).bind fun depth => depth? depth second := by
  induction first generalizing depth with
  | nil => rfl
  | cons c first ih =>
    rw [List.cons_append, depth?, depth?]
    cases step? depth c with
    | none => rfl
    | some depth => exact ih depth

theorem step?_other {c : Char} (opening : c ≠ '\x7b') (closing : c ≠ '\x7d') (depth : ℕ) :
    step? depth c = some depth := by
  rw [step?, if_neg opening, if_neg closing]

theorem step?_succ {depth next : ℕ} {c : Char} (here : step? depth c = some next) :
    step? (depth + 1) c = some (next + 1) := by
  by_cases opening : c = '\x7b'
  · subst opening
    obtain rfl := Option.some.inj here
    rfl
  by_cases closing : c = '\x7d'
  · subst closing
    cases depth with
    | zero => cases here
    | succ depth =>
      obtain rfl := Option.some.inj here
      rfl
  · rw [step?_other opening closing] at here ⊢
    obtain rfl := Option.some.inj here
    rfl

/-- Inside one more pair of braces a text leads from and to depths that are greater by one. -/
theorem depth?_succ {depth final : ℕ} {text : Text} (leads : depth? depth text = some final) :
    depth? (depth + 1) text = some (final + 1) := by
  induction text generalizing depth with
  | nil =>
    obtain rfl := Option.some.inj leads
    rfl
  | cons c rest ih =>
    obtain ⟨next, here, behind⟩ := Option.bind_eq_some_iff.mp leads
    rw [depth?, step?_succ here]
    exact ih behind

/-- A text without braces. -/
def NoBrace (text : Text) : Prop := '\x7b' ∉ text ∧ '\x7d' ∉ text

instance (text : Text) : Decidable (NoBrace text) := inferInstanceAs (Decidable (_ ∧ _))

theorem NoBrace.of_forall {text : Text} {p : Char → Prop} (all : ∀ c ∈ text, p c)
    (braces : ¬ p '\x7b' ∧ ¬ p '\x7d') : NoBrace text :=
  ⟨fun member => braces.1 (all _ member), fun member => braces.2 (all _ member)⟩

theorem NoBrace.depth?_eq {text : Text} (noBrace : NoBrace text) (depth : ℕ) :
    depth? depth text = some depth := by
  obtain ⟨noOpening, noClosing⟩ := noBrace
  induction text with
  | nil => rfl
  | cons c rest ih =>
    rw [List.mem_cons, not_or] at noOpening noClosing
    rw [depth?, step?_other (Ne.symm noOpening.1) (Ne.symm noClosing.1)]
    exact ih noOpening.2 noClosing.2

theorem forall_prefix_cons_iff {c : Char} {rest : Text} {motive : Text → Prop} :
    (∀ start, start <+: c :: rest → motive start) ↔
      motive [] ∧ ∀ start, start <+: rest → motive (c :: start) := by
  constructor
  · intro all
    refine ⟨all [] List.nil_prefix, fun start isPrefix => all (c :: start) ?_⟩
    exact List.cons_prefix_cons.mpr ⟨rfl, isPrefix⟩
  · rintro ⟨empty, longer⟩ start isPrefix
    rcases List.prefix_cons_iff.mp isPrefix with rfl | ⟨more, rfl, inRest⟩
    · exact empty
    · exact longer more inRest

/-- The depth behind a text, by the numbers of braces in it and in its starts. -/
theorem depth?_eq_some_iff {depth final : ℕ} {text : Text} :
    depth? depth text = some final ↔
      (∀ start, start <+: text → start.count '\x7d' ≤ depth + start.count '\x7b') ∧
        depth + text.count '\x7b' = final + text.count '\x7d' := by
  induction text generalizing depth with
  | nil => simp [depth?]
  | cons c rest ih =>
    rw [depth?, forall_prefix_cons_iff]
    by_cases opening : c = '\x7b'
    · subst opening
      have deeper : step? depth '\x7b' = some (depth + 1) := rfl
      rw [deeper, Option.bind_some, ih]
      simp [Nat.add_right_comm, Nat.add_assoc]
    by_cases closing : c = '\x7d'
    · subst closing
      cases depth with
      | zero =>
        have stops : step? 0 '\x7d' = none := rfl
        rw [stops, Option.bind_none]
        refine iff_of_false (by simp) fun ⟨⟨_, starts⟩, _⟩ => ?_
        exact absurd (starts [] List.nil_prefix) (by decide)
      | succ depth =>
        have higher : step? (depth + 1) '\x7d' = some depth := rfl
        rw [higher, Option.bind_some, ih]
        simp [Nat.add_right_comm, ← Nat.add_assoc]
    · rw [step?_other opening closing, Option.bind_some, ih]
      simp [opening, closing]

/-- Balanced braces lead from depth zero to depth zero. -/
theorem bracesBalanced_iff {text : Text} : BracesBalanced text ↔ depth? 0 text = some 0 := by
  rw [depth?_eq_some_iff]
  simp only [Nat.zero_add]
  constructor
  · exact fun balanced => ⟨balanced.neverBelow, balanced.allClosed⟩
  · exact fun ⟨neverBelow, allClosed⟩ => ⟨neverBelow, allClosed⟩

instance (text : Text) : Decidable (BracesBalanced text) :=
  decidable_of_iff (depth? 0 text = some 0) bracesBalanced_iff.symm

/-! ## Texts that lead to the same depth -/

/-- Wherever the first text leads, from any depth, the second one leads too. -/
def Keeps (before after : Text) : Prop :=
  ∀ depth final, depth? depth before = some final → depth? depth after = some final

namespace Keeps

theorem refl (text : Text) : Keeps text text := fun _ _ leads => leads

theorem trans {first second third : Text} (left : Keeps first second) (right : Keeps second third) :
    Keeps first third :=
  fun depth final leads => right depth final (left depth final leads)

theorem append {first second before after : Text} (left : Keeps first before)
    (right : Keeps second after) : Keeps (first ++ second) (before ++ after) := by
  intro depth final leads
  rw [depth?_append, Option.bind_eq_some_iff] at leads ⊢
  obtain ⟨between, here, behind⟩ := leads
  exact ⟨between, left depth between here, right between final behind⟩

theorem of_noBrace {before after : Text} (noneBefore : NoBrace before)
    (noneAfter : NoBrace after) : Keeps before after := by
  intro depth final leads
  rw [noneBefore.depth?_eq] at leads
  rw [noneAfter.depth?_eq]
  exact leads

/-- A command leads where its argument leads. -/
theorem command {name : Text} (noneInName : NoBrace name) (part : Text) :
    Keeps part (Latex.command name part) := by
  intro depth final leads
  have written : Latex.command name part =
      ('\\' :: name) ++ ('\x7b' :: (part ++ ['\x7d'])) := by
    simp [Latex.command, braced]
  have noneInStart : NoBrace ('\\' :: name) := by
    simpa [NoBrace] using noneInName
  have inside : depth? (depth + 1) (part ++ ['\x7d']) = some final := by
    rw [depth?_append, depth?_succ leads]
    rfl
  rw [written, depth?_append, noneInStart.depth?_eq]
  exact inside

/-- Replacement leads to the same depth if every image leads where its part led. -/
theorem replace {step : Text → Option (Text × Text)}
    (parts : ∀ text image after, step text = some (image, after) →
      ∃ c part, text = c :: (part ++ after) ∧ Keeps (c :: part) image) (text : Text) :
    Keeps text (Text.replace step text) := by
  have forward : Text.GoesForward step := by
    intro text image after accepted
    obtain ⟨c, part, same, -⟩ := parts text image after accepted
    exact ⟨c, part, same⟩
  refine Text.replace_induction (motive := Keeps) forward (refl []) ?_ ?_ text
  · intro c rest _ ih
    exact (refl [c]).append ih
  · intro text image after accepted ih
    obtain ⟨c, part, rfl, keeps⟩ := parts text image after accepted
    exact keeps.append ih

end Keeps

/-! ## Formatting -/

theorem keeps_strip (text : Text) : Keeps text (Remark.strip text) := by
  refine Keeps.replace ?_ text
  intro text image after answer
  obtain ⟨found, read, same⟩ := Option.map_eq_some_iff.mp answer
  obtain ⟨rfl, rfl⟩ := Prod.mk.inj same
  obtain ⟨inside, rfl, remark⟩ := Remark.eq_of_after?_eq_some read
  have noneInside : NoBrace inside := .of_forall remark (by decide)
  have noneInRemark : NoBrace ('[' :: '!' :: (inside ++ [']'])) := by
    simpa [NoBrace] using noneInside
  exact ⟨'[', '!' :: (inside ++ [']']), by simp, Keeps.of_noBrace noneInRemark (by decide)⟩

theorem keeps_emphasis {stars name : Text} (nonempty : stars ≠ []) (all : ∀ c ∈ stars, c = '*')
    (noneInName : NoBrace name) (text : Text) :
    Keeps text (Text.replace (emphasis? stars name) text) := by
  have noneInStars : NoBrace stars := .of_forall all (by decide)
  have noStars : Keeps stars [] := Keeps.of_noBrace noneInStars (by decide)
  refine Keeps.replace ?_ text
  intro text image after read
  obtain ⟨part, rfl, -, rfl⟩ := eq_of_emphasis?_eq_some read
  have unwrapped := noStars.append ((Keeps.refl part).append noStars)
  rw [List.nil_append, List.append_nil] at unwrapped
  obtain ⟨c, more, rfl⟩ := List.exists_cons_of_ne_nil nonempty
  exact ⟨c, more ++ (part ++ c :: more), by simp, unwrapped.trans (Keeps.command noneInName part)⟩

theorem keeps_escapeAmpersand (text : Text) : Keeps text (escapeAmpersand text) := by
  induction text with
  | nil => exact Keeps.refl []
  | cons c rest ih =>
    have here : Keeps [c] (if c = '&' then ("\\&" : Text) else [c]) := by
      split
      · rename_i ampersand
        subst ampersand
        exact Keeps.of_noBrace (by decide) (by decide)
      · exact Keeps.refl [c]
    rw [escapeAmpersand_cons]
    exact here.append ih

/-- Formatting leads to the same depth from any depth. -/
theorem keeps_formatInline (text : Text) : Keeps text (formatInline text) := by
  have strong : Keeps _ (formatStrong (Remark.strip text)) :=
    keeps_emphasis (by decide) (by simp) (by decide) _
  have emphasised : Keeps _ (formatEmphasis (formatStrong (Remark.strip text))) :=
    keeps_emphasis (by decide) (by simp) (by decide) _
  exact ((keeps_strip text).trans strong).trans (emphasised.trans (keeps_escapeAmpersand _))

end Braces

/-- A text with balanced braces is formatted to one, wherever its stars stand. -/
theorem bracesBalanced_formatInline {text : Text} (balanced : BracesBalanced text) :
    BracesBalanced (formatInline text) :=
  Braces.bracesBalanced_iff.mpr
    (Braces.keeps_formatInline text 0 0 (Braces.bracesBalanced_iff.mp balanced))

/-- An emphasised part that starts in a strong one, with braces that close behind each of them. -/
theorem bracesBalanced_overlapping :
    let text : Text := "**\x7ba*b**\x7dc*[!note]"
    BracesBalanced text ∧ formatInline text = "\\textbf\x7b\x7ba\\textit\x7bb\x7d\x7dc\x7d" ∧
      BracesBalanced (formatInline text) := by
  intro text
  have balanced : BracesBalanced text := by decide
  exact ⟨balanced, by decide, bracesBalanced_formatInline balanced⟩

end Lectern.Latex
