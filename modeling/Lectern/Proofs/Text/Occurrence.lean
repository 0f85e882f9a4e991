import Mathlib.Data.List.Infix
import Lectern.Text.Basic

/-!
# Occurrences and absent characters

A character that does not occur in a mark separates the places where the mark can occur: an
occurrence lies wholly on one side of it. So a cut in front of a mark can be told from what
stands there, and what stands behind the mark does not matter.
-/

namespace Lectern.Text

variable {mark : Text} {c : Char}

/-- A prefix ends before a character that it lacks. -/
theorem prefix_append_cons_iff (absent : c ∉ mark) (before after : Text) :
    mark <+: before ++ c :: after ↔ mark <+: before := by
  constructor
  · intro whole
    rcases List.prefix_or_prefix_of_prefix whole (List.prefix_append before _) with inside | beyond
    · exact inside
    · obtain ⟨more, rfl⟩ := beyond
      rw [List.prefix_append_right_inj] at whole
      cases more with
      | nil => simp
      | cons d more =>
        obtain ⟨rfl, -⟩ := List.cons_prefix_cons.mp whole
        exact absurd (by simp) absent
  · intro inside
    exact inside.trans (List.prefix_append before _)

/-- An occurrence lies on one side of a character that it lacks. -/
theorem infix_append_cons (absent : c ∉ mark) {before after : Text}
    (occurs : mark <:+: before ++ c :: after) : mark <:+: before ∨ mark <:+: after := by
  induction before with
  | nil =>
    rcases List.infix_cons_iff.mp occurs with start | inside
    · have empty := (prefix_append_cons_iff absent [] after).mp start
      exact .inl empty.isInfix
    · exact .inr inside
  | cons d before ih =>
    rcases List.infix_cons_iff.mp occurs with start | inside
    · have before := (prefix_append_cons_iff absent (d :: before) after).mp start
      exact .inl before.isInfix
    · rcases ih inside with left | right
      · exact .inl (left.trans (List.suffix_cons d before).isInfix)
      · exact .inr right

/-- A text is cut at a character that does not occur before. -/
theorem cutAt_append {before : Text} (absent : c ∉ before) (after : Text) :
    cutAt c (before ++ c :: after) = some (before, after) := by
  induction before with
  | nil => simp [cutAt]
  | cons d before ih =>
    have differs : d ≠ c := fun same => absent (by simp [same])
    have absentBehind : c ∉ before := fun member => absent (by simp [member])
    simp [cutAt, differs, ih absentBehind]

/-- Another character behind a text joins what stands behind the cut. -/
theorem cutAt_concat {d : Char} (differs : d ≠ c) (text : Text) :
    cutAt c (text ++ [d]) = (cutAt c text).map fun parts => (parts.1, parts.2 ++ [d]) := by
  induction text with
  | nil => simp [cutAt, differs]
  | cons first text ih =>
    rw [List.cons_append, cutAt, cutAt]
    split
    · rfl
    · rw [ih, Option.map_map, Option.map_map]
      rfl

/-- A cut at a character joins back to the text, and the character does not occur before. -/
theorem eq_of_cutAt_eq_some {text before after : Text}
    (cut : cutAt c text = some (before, after)) : text = before ++ c :: after ∧ c ∉ before := by
  induction text generalizing before with
  | nil => cases cut
  | cons d rest ih =>
    rw [cutAt] at cut
    split at cut
    · rename_i same
      obtain ⟨rfl, rfl⟩ := Prod.mk.inj (Option.some.inj cut)
      exact ⟨by rw [same]; rfl, List.not_mem_nil⟩
    · rename_i differs
      obtain ⟨⟨inside, behind⟩, further, same⟩ := Option.map_eq_some_iff.mp cut
      obtain ⟨rfl, rfl⟩ := Prod.mk.inj same
      obtain ⟨joined, absent⟩ := ih further
      refine ⟨by rw [joined]; rfl, ?_⟩
      simp [absent, Ne.symm differs]

theorem isPrefixOf?_eq_none {text : Text} (differs : ¬ mark <+: text) :
    mark.isPrefixOf? text = none := by
  cases found : mark.isPrefixOf? text with
  | none => rfl
  | some rest =>
    have joined := List.isPrefixOf?_eq_some_iff_append_eq.mp found
    exact absurd ⟨rest, joined⟩ differs

/-- A character that does not end the mark joins what stands behind it. -/
theorem isPrefixOf?_concat (differs : mark.getLast? ≠ some c) (text : Text) :
    mark.isPrefixOf? (text ++ [c]) = (mark.isPrefixOf? text).map (· ++ [c]) := by
  cases found : mark.isPrefixOf? text with
  | some rest =>
    have joined := List.isPrefixOf?_eq_some_iff_append_eq.mp found
    exact List.isPrefixOf?_eq_some_iff_append_eq.mpr (by rw [← joined, List.append_assoc])
  | none =>
    refine isPrefixOf?_eq_none fun start => ?_
    rcases List.prefix_concat_iff.mp start with rfl | ⟨rest, joined⟩
    · exact differs List.getLast?_concat
    · rw [List.isPrefixOf?_eq_some_iff_append_eq.mpr joined] at found
      cases found

/-- A text that starts with the mark is cut at its start. -/
theorem cutAtText_start (nonempty : mark ≠ []) (after : Text) :
    cutAtText mark (mark ++ after) = some ([], after) := by
  obtain ⟨c, more, rfl⟩ := List.exists_cons_of_ne_nil nonempty
  have here : (c :: more).isPrefixOf? (c :: (more ++ after)) = some after :=
    List.isPrefixOf?_eq_some_iff_append_eq.mpr rfl
  rw [List.cons_append, cutAtText, here]

/-- A text is cut behind a character that the mark lacks, if the mark does not occur before. -/
theorem cutAtText_append_cons (absent : c ∉ mark) (nonempty : mark ≠ []) {before : Text}
    (free : ¬ mark <:+: before) (text : Text) :
    cutAtText mark (before ++ c :: text) =
      (cutAtText mark text).map fun parts => (before ++ c :: parts.1, parts.2) := by
  induction before with
  | nil =>
    have notHere : ¬ mark <+: c :: text := by
      intro start
      have empty := (prefix_append_cons_iff absent [] text).mp start
      exact nonempty (List.prefix_nil.mp empty)
    rw [List.nil_append, cutAtText, isPrefixOf?_eq_none notHere]
    rfl
  | cons d before ih =>
    have notHere : ¬ mark <+: d :: (before ++ c :: text) := by
      intro start
      have inside := (prefix_append_cons_iff absent (d :: before) text).mp start
      exact free inside.isInfix
    have freeBehind : ¬ mark <:+: before := fun occurs =>
      free (occurs.trans (List.suffix_cons d before).isInfix)
    rw [List.cons_append, cutAtText, isPrefixOf?_eq_none notHere]
    dsimp only
    rw [ih freeBehind, Option.map_map]
    rfl

/-- A text is cut at a mark whose first character does not occur before. -/
theorem cutAtText_append_of_absent {before : Text} (absent : c ∉ before) (after : Text) :
    cutAtText (c :: mark) (before ++ (c :: mark ++ after)) = some (before, after) := by
  induction before with
  | nil =>
    have here : (c :: mark).isPrefixOf? (c :: (mark ++ after)) = some after :=
      List.isPrefixOf?_eq_some_iff_append_eq.mpr rfl
    rw [List.nil_append, List.cons_append, cutAtText, here]
  | cons d before ih =>
    have notHere : ¬ c :: mark <+: d :: (before ++ (c :: mark ++ after)) := by
      intro start
      obtain ⟨rfl, -⟩ := List.cons_prefix_cons.mp start
      exact absent (by simp)
    have absentBehind : c ∉ before := fun member => absent (by simp [member])
    rw [List.cons_append, cutAtText, isPrefixOf?_eq_none notHere, ih absentBehind]
    rfl

/-- A cut joins back to the text. -/
theorem eq_of_cutAtText_eq_some {text before after : Text}
    (cut : cutAtText mark text = some (before, after)) : text = before ++ mark ++ after := by
  induction text generalizing before with
  | nil =>
    rw [cutAtText] at cut
    split at cut
    · rename_i empty
      obtain ⟨rfl, rfl⟩ := Prod.mk.inj (Option.some.inj cut)
      rw [empty]
      rfl
    · cases cut
  | cons c rest ih =>
    rw [cutAtText] at cut
    split at cut
    · rename_i found start
      obtain ⟨rfl, rfl⟩ := Prod.mk.inj (Option.some.inj cut)
      rw [List.nil_append, List.isPrefixOf?_eq_some_iff_append_eq.mp start]
    · obtain ⟨⟨inside, behind⟩, further, same⟩ := Option.map_eq_some_iff.mp cut
      obtain ⟨rfl, rfl⟩ := Prod.mk.inj same
      rw [ih further]
      rfl

/-- A text is cut at the first occurrence. -/
theorem free_of_cutAtText_eq_some (nonempty : mark ≠ []) {text before after : Text}
    (cut : cutAtText mark text = some (before, after)) : ¬ mark <:+: before := by
  induction text generalizing before with
  | nil =>
    rw [cutAtText, if_neg nonempty] at cut
    cases cut
  | cons c rest ih =>
    have joined := eq_of_cutAtText_eq_some cut
    rw [cutAtText] at cut
    split at cut
    · obtain ⟨rfl, rfl⟩ := Prod.mk.inj (Option.some.inj cut)
      simpa using nonempty
    · rename_i notHere
      obtain ⟨⟨inside, behind⟩, further, same⟩ := Option.map_eq_some_iff.mp cut
      obtain ⟨rfl, rfl⟩ := Prod.mk.inj same
      intro occurs
      rcases List.infix_cons_iff.mp occurs with start | later
      · obtain ⟨more, whole⟩ := start.trans (List.prefix_append _ (mark ++ behind))
        rw [← List.append_assoc, ← joined] at whole
        rw [List.isPrefixOf?_eq_some_iff_append_eq.mpr whole] at notHere
        cases notHere
      · exact ih further later

/-- A text is cut where the mark occurs. -/
theorem mentions_iff {part text : Text} : mentions part text ↔ part <:+: text := by
  rw [mentions, Option.isSome_iff_exists]
  constructor
  · rintro ⟨⟨before, after⟩, cut⟩
    exact ⟨before, after, (eq_of_cutAtText_eq_some cut).symm⟩
  · rintro occurs
    induction text with
    | nil =>
      obtain rfl := List.infix_nil.mp occurs
      exact ⟨([], []), rfl⟩
    | cons c text ih =>
      rw [cutAtText]
      split
      · exact ⟨_, rfl⟩
      · rename_i notHere
        rcases List.infix_cons_iff.mp occurs with ⟨more, start⟩ | later
        · rw [List.isPrefixOf?_eq_some_iff_append_eq.mpr start] at notHere
          cases notHere
        · obtain ⟨parts, cut⟩ := ih later
          rw [cut]
          exact ⟨_, rfl⟩

end Lectern.Text
