import Mathlib.Data.List.Infix
import Mathlib.Tactic.SplitIfs
import Lectern.Deck.BodyLine
import Lectern.Proofs.Text.Lines
import Lectern.Proofs.Text.Replace

/-!
# Characters of content lines

What is read from slide content is made of its characters: the lines of a text, a line without
remarks, the text of a bullet, and the path of an image.
-/

namespace Lectern

namespace Text

/-- A recogniser answers at the first place of a suffix. -/
theorem exists_suffix_of_firstMatch {α : Type} {recognise : Text → Option α} {text : Text}
    {found : α} (answer : firstMatch recognise text = some found) :
    ∃ suffix, suffix <:+ text ∧ recognise suffix = some found := by
  induction text with
  | nil => exact ⟨[], List.suffix_refl [], answer⟩
  | cons c rest ih =>
    rw [firstMatch] at answer
    split at answer
    · rename_i here
      exact ⟨c :: rest, List.suffix_refl _, here.trans answer⟩
    · obtain ⟨suffix, isSuffix, here⟩ := ih answer
      exact ⟨suffix, isSuffix.trans (List.suffix_cons c rest), here⟩

/-- Characters where the recogniser never answers are passed over. -/
theorem firstMatch_append_of_declined {α : Type} {recognise : Text → Option α} {lead : Text}
    (declined : ∀ c ∈ lead, ∀ rest, recognise (c :: rest) = none) (text : Text) :
    firstMatch recognise (lead ++ text) = firstMatch recognise text := by
  induction lead with
  | nil => rfl
  | cons c lead ih =>
    rw [List.cons_append, firstMatch, declined c (List.mem_cons_self ..)]
    exact ih fun d member => declined d (List.mem_cons_of_mem _ member)

end Text

namespace Remark

/-- A remark stands between an opening bracket with its mark and a closing bracket. -/
theorem eq_of_after?_eq_some {text after : Text} (read : after? text = some after) :
    ∃ inside, text = '[' :: '!' :: (inside ++ ']' :: after) ∧ ∀ c ∈ inside, isRemarkChar c := by
  unfold after? at read
  split at read
  · rename_i rest
    split at read
    · cases read
    · split at read
      · rename_i found behind
        obtain rfl := Option.some.inj read
        refine ⟨rest.takeWhile isRemarkChar, ?_, fun c => List.mem_takeWhile_imp⟩
        rw [← behind, List.takeWhile_append_dropWhile]
      · cases read
  · cases read

theorem after?_eq_none {c : Char} (other : c ≠ '[') (rest : Text) : after? (c :: rest) = none := by
  cases read : after? (c :: rest) with
  | none => rfl
  | some after =>
    obtain ⟨inside, text, -⟩ := eq_of_after?_eq_some read
    exact absurd (List.cons.inj text).1 other

theorem goesForward_strip : Text.GoesForward fun rest => (after? rest).map (([] : Text), ·) := by
  intro text image after answer
  obtain ⟨found, read, same⟩ := Option.map_eq_some_iff.mp answer
  obtain ⟨rfl, rfl⟩ := Prod.mk.inj same
  obtain ⟨inside, rfl, -⟩ := eq_of_after?_eq_some read
  exact ⟨'[', '!' :: (inside ++ [']']), by simp⟩

theorem strip_subset (text : Text) : strip text ⊆ text := by
  apply Text.replace_subset goesForward_strip
  intro text image after answer
  obtain ⟨found, read, same⟩ := Option.map_eq_some_iff.mp answer
  exact (Prod.mk.inj same).1.symm

/-- A text without brackets has no remark. -/
theorem strip_eq_self {text : Text} (absent : '[' ∉ text) : strip text = text := by
  have kept : strip (text ++ []) = text ++ strip [] := by
    refine Text.replace_append_of_declined ?_ []
    intro c member behind
    have noRemark := after?_eq_none (fun same => absent (same ▸ member)) behind
    simp only [noRemark, Option.map_none]
  rwa [List.append_nil, strip, strip, Text.replace_nil, List.append_nil] at kept

/-- A remark with a dash is a remark with a dash behind blanks. -/
theorem goesForward_stripDashed :
    Text.GoesForward fun rest => (afterDash? rest).map (([] : Text), ·) := by
  intro text image after answer
  obtain ⟨found, read, same⟩ := Option.map_eq_some_iff.mp answer
  obtain ⟨rfl, rfl⟩ := Prod.mk.inj same
  rw [afterDash?] at read
  split at read
  · rename_i behind dashed
    obtain rfl := Option.some.inj read
    obtain ⟨afterRemark, remark, trimmed⟩ := Option.map_eq_some_iff.mp dashed
    obtain ⟨inside, rfl, -⟩ := eq_of_after?_eq_some remark
    have blanks : afterRemark = afterRemark.takeWhile Text.isBlank ++ '-' :: behind := by
      rw [← trimmed, Text.trimStart, List.takeWhile_append_dropWhile]
    refine ⟨'[', '!' :: (inside ++ ']' :: (afterRemark.takeWhile Text.isBlank ++ ['-'])), ?_⟩
    simp only [List.cons_append, List.append_assoc]
    rw [List.nil_append, ← blanks]
  · cases read

theorem stripDashed_subset (text : Text) : stripDashed text ⊆ text := by
  apply Text.replace_subset goesForward_stripDashed
  intro text image after answer
  obtain ⟨found, read, same⟩ := Option.map_eq_some_iff.mp answer
  exact (Prod.mk.inj same).1.symm

end Remark

namespace BodyLine

theorem bulletText?_subset {line text : Text} (read : bulletText? line = some text) :
    text ⊆ line := by
  have start : Text.trimStart line ⊆ line := List.dropWhile_subset ..
  simp only [bulletText?] at read
  split at read
  · obtain rfl := Option.some.inj read
    have stripped := Remark.stripDashed_subset (Text.trimStart line)
    exact List.Subset.trans (List.Subset.trans (Text.trim_subset _) stripped) start
  · split at read
    · rename_i rest dashed
      obtain rfl := Option.some.inj read
      have inStart : rest ⊆ Text.trimStart line := by simp [dashed]
      exact List.Subset.trans (List.Subset.trans (Text.trim_subset _) inStart) start
    · cases read

theorem afterEquals?_subset {text after : Text} (read : afterEquals? text = some after) :
    after ⊆ text := by
  rw [afterEquals?] at read
  split at read
  · rename_i behind trimmed
    obtain rfl := Option.some.inj read
    have inTrimmed : behind ⊆ Text.trimStart text := by simp [trimmed]
    have start : Text.trimStart behind ⊆ behind := List.dropWhile_subset ..
    exact List.Subset.trans (List.Subset.trans start inTrimmed) (List.dropWhile_subset ..)
  · cases read

theorem sourceValue?_subset {text path : Text} (read : sourceValue? text = some path) :
    path ⊆ text := by
  simp only [sourceValue?, Option.bind_eq_bind, Option.bind_eq_some_iff] at read
  obtain ⟨behindWord, word, behindEquals, equals, found⟩ := read
  have inText : behindWord ⊆ text := by
    rw [← List.isPrefixOf?_eq_some_iff_append_eq.mp word]
    exact List.subset_append_right ..
  have inBehindWord := afterEquals?_subset equals
  split at found
  · rename_i opening rest
    have inRest : rest.takeWhile (fun c => !isQuote c && c != '\n') ⊆ opening :: rest :=
      List.subset_cons_of_subset opening (List.takeWhile_subset ..)
    split at found
    · split at found
      · obtain rfl := Option.some.inj found
        exact List.Subset.trans (List.Subset.trans inRest inBehindWord) inText
      · cases found
    · cases found
  · cases found

theorem imageSource?_subset {line path : Text} (read : imageSource? line = some path) :
    path ⊆ line := by
  obtain ⟨suffix, isSuffix, here⟩ := Text.exists_suffix_of_firstMatch read
  exact List.Subset.trans (sourceValue?_subset here) isSuffix.subset

/-- The text of a bullet is made of the characters of its line. -/
theorem subset_of_classify_eq_bullet {line text : Text} (read : classify line = .bullet text) :
    text ⊆ line := by
  simp only [classify] at read
  split_ifs at read
  split at read
  · rename_i bullet
    obtain rfl := BodyLine.bullet.inj read
    exact bulletText?_subset bullet
  · cases read

/-- The path of an image is made of the characters of its line. -/
theorem subset_of_classify_eq_image {line path : Text}
    (read : classify line = .image (some path)) : path ⊆ line := by
  simp only [classify] at read
  split_ifs at read
  · exact imageSource?_subset (BodyLine.image.inj read)
  · split at read <;> cases read

end BodyLine
end Lectern
