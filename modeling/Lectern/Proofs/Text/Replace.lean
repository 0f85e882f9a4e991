import Lectern.Text.Replace

/-!
# Replacement by induction

A step that goes forward replaces a part of the text with at least one character. Replacement with
such a step follows the text: at every place a character stays, or a part gives way to its image.
The same can be told by parts: what stands in front of the first replaced part stays as a whole.
-/

namespace Lectern.Text

variable {step : Text → Option (Text × Text)}

/-- What the step leaves stands behind at least one character. -/
def GoesForward (step : Text → Option (Text × Text)) : Prop :=
  ∀ ⦃text image after⦄, step text = some (image, after) →
    ∃ c replaced, text = c :: (replaced ++ after)

/-- What relates a text to its image under replacement, from the places where the step declines and
those where it accepts. -/
theorem replace_induction (forward : GoesForward step) {motive : Text → Text → Prop}
    (nil : motive [] [])
    (kept : ∀ c rest, step (c :: rest) = none → motive rest (replace step rest) →
      motive (c :: rest) (c :: replace step rest))
    (replaced : ∀ text image after, step text = some (image, after) →
      motive after (replace step after) → motive text (image ++ replace step after))
    (text : Text) : motive text (replace step text) := by
  induction length : text.length using Nat.strongRecOn generalizing text with
  | ind n ih =>
    cases text with
    | nil => exact nil
    | cons c rest =>
      cases answer : step (c :: rest) with
      | none =>
        rw [replace_cons_of_none answer]
        refine kept c rest answer (ih rest.length ?_ rest rfl)
        rw [← length, List.length_cons]
        omega
      | some found =>
        obtain ⟨image, after⟩ := found
        obtain ⟨d, part, text⟩ := forward answer
        obtain ⟨rfl, rfl⟩ := List.cons.inj text
        rw [replace_cons_of_some answer]
        refine replaced _ image after answer (ih after.length ?_ after rfl)
        rw [← length, List.length_cons, List.length_append]
        omega

/-- Replacement by parts: a text with no part to replace stays, and the text in front of a replaced
part stays. -/
theorem replace_parts (forward : GoesForward step) {motive : Text → Text → Prop}
    (kept : ∀ text, motive text text)
    (replaced : ∀ lead text image after, step text = some (image, after) →
      motive after (replace step after) →
        motive (lead ++ text) (lead ++ (image ++ replace step after)))
    (text : Text) : motive text (replace step text) := by
  -- The lead grows by the characters that stay, until a part is replaced behind it.
  have general : ∀ lead, motive (lead ++ text) (lead ++ replace step text) := by
    refine replace_induction
      (motive := fun text image => ∀ lead, motive (lead ++ text) (lead ++ image))
      forward ?_ ?_ ?_ text
    · exact fun lead => kept (lead ++ [])
    · intro c rest _ ih lead
      have longer := ih (lead ++ [c])
      rwa [List.append_assoc, List.append_assoc] at longer
    · intro text image after answer ih lead
      exact replaced lead text image after answer (ih [])
  exact general []

/-- Characters at which the step declines stay. -/
theorem replace_append_of_declined {lead : Text}
    (declined : ∀ c ∈ lead, ∀ behind, step (c :: behind) = none) (rest : Text) :
    replace step (lead ++ rest) = lead ++ replace step rest := by
  induction lead with
  | nil => rfl
  | cons c lead ih =>
    have declinedBehind : ∀ d ∈ lead, ∀ behind, step (d :: behind) = none :=
      fun d member => declined d (List.mem_cons_of_mem c member)
    rw [List.cons_append, replace_cons_of_none (declined c (by simp) _), ih declinedBehind]
    rfl

/-- A character behind the text that the step leaves in the rest stays behind the result. -/
theorem replace_concat (forward : GoesForward step) {c : Char} (stays : step [c] = none)
    (left : ∀ text, step (text ++ [c]) =
      (step text).map fun (image, after) => (image, after ++ [c]))
    (text : Text) : replace step (text ++ [c]) = replace step text ++ [c] := by
  refine replace_induction (motive := fun text image => replace step (text ++ [c]) = image ++ [c])
    forward ?_ ?_ ?_ text
  · exact replace_cons_of_none stays
  · intro d rest declined ih
    have declinedToo : step (d :: (rest ++ [c])) = none := by
      rw [← List.cons_append, left, declined]
      rfl
    rw [List.cons_append, replace_cons_of_none declinedToo, ih]
    rfl
  · intro text image after answer ih
    obtain ⟨d, part, rfl⟩ := forward answer
    have answerToo : step (d :: (part ++ (after ++ [c]))) = some (image, after ++ [c]) := by
      rw [← List.append_assoc, ← List.cons_append, left, answer]
      rfl
    rw [List.cons_append, List.append_assoc, replace_cons_of_some answerToo, ih, List.append_assoc]

/-- Where no image has a character that its text lacks, the result lacks it too. -/
theorem absent_replace (forward : GoesForward step) {c : Char}
    (images : ∀ text image after, step text = some (image, after) → c ∉ text → c ∉ image)
    {text : Text} (absent : c ∉ text) : c ∉ replace step text := by
  refine replace_induction (motive := fun text image => c ∉ text → c ∉ image) forward ?_ ?_ ?_
    text absent
  · exact fun absent => absent
  · intro d rest _ ih absent
    rw [List.mem_cons, not_or] at absent ⊢
    exact ⟨absent.1, ih absent.2⟩
  · intro text image after answer ih absent
    obtain ⟨d, part, rfl⟩ := forward answer
    have absentBehind : c ∉ after := fun member => absent (by simp [member])
    rw [List.mem_append, not_or]
    exact ⟨images _ image after answer absent, ih absentBehind⟩

/-- A step that only erases makes no character. -/
theorem replace_subset (forward : GoesForward step)
    (erases : ∀ text image after, step text = some (image, after) → image = []) (text : Text) :
    replace step text ⊆ text := by
  refine replace_induction (motive := fun text image => image ⊆ text) forward ?_ ?_ ?_ text
  · exact List.Subset.refl []
  · intro c rest _ ih
    exact List.cons_subset_cons c ih
  · intro text image after answer ih
    obtain rfl := erases text image after answer
    obtain ⟨c, part, rfl⟩ := forward answer
    exact List.subset_cons_of_subset c (List.subset_append_of_subset_right part ih)

end Lectern.Text
