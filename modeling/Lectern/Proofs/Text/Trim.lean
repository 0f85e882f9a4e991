import Mathlib.Data.List.DropRight
import Lectern.Text.Blank

/-!
# Trimming

A blank added at either end of a text is not seen by `trim`, and `trim` keeps exactly the texts
that neither start nor end with a blank.
-/

namespace Lectern.Text

theorem trimEnd_eq_rdropWhile (text : Text) : trimEnd text = text.rdropWhile isBlank := rfl

theorem ne_of_blank {c d : Char} (blank : isBlank c) (solid : isBlank d = false) : c ≠ d := by
  rintro rfl
  rw [solid] at blank
  cases blank

/-- A run of characters of a kind ends in front of a character that is not of it. -/
theorem takeWhile_dropWhile_append {p : Char → Bool} {run rest : Text} (all : ∀ c ∈ run, p c)
    (stops : ∀ c ∈ rest.head?, p c = false) :
    (run ++ rest).takeWhile p = run ∧ (run ++ rest).dropWhile p = rest := by
  have none : rest.takeWhile p = [] ∧ rest.dropWhile p = rest := by
    cases rest with
    | nil => exact ⟨rfl, rfl⟩
    | cons c rest => simp [stops c rfl]
  rw [List.takeWhile_append_of_pos all, List.dropWhile_append_of_pos all, none.1, none.2,
    List.append_nil]
  exact ⟨rfl, rfl⟩

/-- A character that is not of the kind ends a run, whatever follows. -/
theorem takeWhile_append_cons_of_neg {α : Type} {p : α → Bool} {x : α} (stops : p x = false)
    (before after : List α) :
    (before ++ x :: after).takeWhile p = before.takeWhile p ∧
      (before ++ x :: after).dropWhile p = before.dropWhile p ++ x :: after := by
  induction before with
  | nil => simp [stops]
  | cons y before ih => by_cases keeps : p y <;> simp [keeps, ih]

/-- A run ends where it did when a character is added, unless it was the whole text. -/
theorem takeWhile_dropWhile_concat (p : Char → Bool) (text : Text) (c : Char) :
    text.dropWhile p = [] ∧
      ((text ++ [c]).dropWhile p = [] ∨ (text ++ [c]).dropWhile p = [c]) ∨
    ∃ next more, text.dropWhile p = next :: more ∧
      (text ++ [c]).dropWhile p = next :: (more ++ [c]) ∧
      (text ++ [c]).takeWhile p = text.takeWhile p := by
  cases stops : text.dropWhile p with
  | nil =>
    left
    refine ⟨rfl, ?_⟩
    rw [List.dropWhile_append, stops]
    by_cases passed : p c <;> simp [passed]
  | cons next more =>
    right
    have notPassed : ∀ d ∈ (next :: (more ++ [c])).head?, p d = false := by
      have first := List.head?_dropWhile_not p text
      simpa [stops] using first
    have longer : text ++ [c] = text.takeWhile p ++ next :: (more ++ [c]) := by
      rw [← List.cons_append, ← stops, ← List.append_assoc, List.takeWhile_append_dropWhile]
    have passed : ∀ d ∈ text.takeWhile p, p d := fun _ => List.mem_takeWhile_imp
    obtain ⟨run, behind⟩ := takeWhile_dropWhile_append passed notPassed
    refine ⟨next, more, rfl, ?_, ?_⟩
    · rw [longer, behind]
    · rw [longer, run]

/-- Blanks in front are not seen. -/
theorem trimStart_append {blanks text : Text} (blank : ∀ c ∈ blanks, isBlank c)
    (first : ∀ c ∈ text.head?, isBlank c = false) : trimStart (blanks ++ text) = text :=
  (takeWhile_dropWhile_append blank first).2

/-- A blank in front is not seen. -/
theorem trim_cons_of_blank {c : Char} (blank : isBlank c) (text : Text) :
    trim (c :: text) = trim text := by
  simp [trim, trimStart, blank]

/-- A blank behind stays there, unless nothing but blanks stands in front of it. -/
theorem trimStart_concat {c : Char} (blank : isBlank c) (text : Text) :
    trimStart (text ++ [c]) = trimStart text ++ [c] ∨
      trimStart (text ++ [c]) = [] ∧ trimStart text = [] := by
  simp only [trimStart, List.dropWhile_append]
  cases rest : text.dropWhile isBlank with
  | nil => simp [blank]
  | cons first more => simp

/-- A blank behind is not seen. -/
theorem trim_concat_of_blank {c : Char} (blank : isBlank c) (text : Text) :
    trim (text ++ [c]) = trim text := by
  rcases trimStart_concat blank text with kept | ⟨dropped, empty⟩
  · rw [trim, trim, kept, trimEnd_eq_rdropWhile, trimEnd_eq_rdropWhile,
      List.rdropWhile_concat_pos _ _ _ blank]
  · rw [trim, trim, dropped, empty]

/-- What survives the loss of a blank at either end survives trimming. -/
theorem trim_preserves {P : Text → Prop}
    (front : ∀ {c text}, isBlank c → P (c :: text) → P text)
    (behind : ∀ {c text}, isBlank c → P (text ++ [c]) → P text)
    {text : Text} (whole : P text) : P (trim text) := by
  have start : P (trimStart text) := by
    induction text with
    | nil => exact whole
    | cons c text ih =>
      by_cases blank : isBlank c
      · rw [trimStart, List.dropWhile_cons_of_pos blank]
        exact ih (front blank whole)
      · rwa [trimStart, List.dropWhile_cons_of_neg blank]
  rw [trim, trimEnd_eq_rdropWhile]
  generalize trimStart text = trimmed at start
  induction trimmed using List.reverseRecOn with
  | nil => exact start
  | append_singleton text c ih =>
    by_cases blank : isBlank c
    · rw [List.rdropWhile_concat_pos _ _ _ blank]
      exact ih (behind blank start)
    · rwa [List.rdropWhile_concat_neg _ _ _ blank]

theorem trim_isInfix (text : Text) : trim text <:+: text := by
  refine trim_preserves (P := fun part => part <:+: text) ?_ ?_ (List.infix_refl text)
  · intro c part _ longer
    exact (List.suffix_cons c part).isInfix.trans longer
  · intro c part _ longer
    exact (List.prefix_append part [c]).isInfix.trans longer

/-- Trimming makes no character. -/
theorem trim_subset (text : Text) : trim text ⊆ text := (trim_isInfix text).subset

/-- Trimming keeps a text without blanks at its ends. -/
theorem trim_eq_self {text : Text} (first : ∀ c ∈ text.head?, isBlank c = false)
    (last : ∀ c ∈ text.getLast?, isBlank c = false) : trim text = text := by
  have start : trimStart text = text := by
    cases text with
    | nil => rfl
    | cons c rest => simp [trimStart, first c rfl]
  rw [trim, start, trimEnd_eq_rdropWhile, List.rdropWhile_eq_self_iff]
  intro nonempty
  simp [last _ (List.getLast?_eq_some_getLast nonempty)]

/-- A trimmed text does not end with a blank. -/
theorem not_blank_of_getLast?_trim {text : Text} {c : Char} (last : c ∈ (trim text).getLast?) :
    isBlank c = false := by
  have nonempty : trim text ≠ [] := by
    rintro empty
    simp [empty] at last
  have notBlank := List.rdropWhile_last_not isBlank (trimStart text) nonempty
  have same : (trim text).getLast nonempty = c := by
    rw [← Option.some_inj, ← List.getLast?_eq_some_getLast]
    exact last
  change ¬ isBlank ((trim text).getLast nonempty) = true at notBlank
  simpa [same] using notBlank

/-- A trimmed text does not start with a blank. -/
theorem not_blank_of_head?_trim {text : Text} {c : Char} (first : c ∈ (trim text).head?) :
    isBlank c = false := by
  obtain ⟨more, trimmed⟩ : ∃ more, trim text = c :: more := by
    cases trimmed : trim text with
    | nil => simp [trimmed] at first
    | cons d more => exact ⟨more, by simpa [trimmed] using first⟩
  obtain ⟨behind, whole⟩ : trim text <+: trimStart text := List.rdropWhile_prefix isBlank _
  rw [trimmed, List.cons_append] at whole
  have notBlank := List.head?_dropWhile_not isBlank text
  have start : (text.dropWhile isBlank).head? = some c := by
    rw [← trimStart, ← whole, List.head?_cons]
  rw [start] at notBlank
  simpa using notBlank

/-- Trimming a second time changes nothing. -/
@[simp] theorem trim_trim (text : Text) : trim (trim text) = trim text :=
  trim_eq_self (fun _ => not_blank_of_head?_trim) (fun _ => not_blank_of_getLast?_trim)

end Lectern.Text
