import Lectern.Proofs.Text.Lines
import Lectern.Proofs.Text.Occurrence

/-!
# Returns in front of line feeds

A text whose lines end with a return and a line feed, made from one whose lines end with a line
feed alone. Cutting at a mark and trimming go the same way on both texts, and where the text has no
return of its own, both have the same lines.
-/

namespace Lectern.Text

/-- The text with a return in front of every line feed. -/
def withReturns (text : Text) : Text := replaceChar '\n' "\r\n" text

@[simp] theorem withReturns_nil : withReturns [] = [] := rfl

theorem withReturns_feed (rest : Text) :
    withReturns ('\n' :: rest) = '\r' :: '\n' :: withReturns rest := rfl

theorem withReturns_cons {c : Char} (noFeed : c ≠ '\n') (rest : Text) :
    withReturns (c :: rest) = c :: withReturns rest := by
  simp [withReturns, replaceChar, noFeed]

theorem withReturns_append (first second : Text) :
    withReturns (first ++ second) = withReturns first ++ withReturns second :=
  List.flatMap_append

/-! ## Marks -/

/-- A start without returns and line feeds is found in both texts. -/
theorem isPrefixOf?_withReturns {mark : Text} (noFeed : '\n' ∉ mark) (noReturn : '\r' ∉ mark)
    (text : Text) :
    mark.isPrefixOf? (withReturns text) = (mark.isPrefixOf? text).map withReturns := by
  induction mark generalizing text with
  | nil => rfl
  | cons d mark ih =>
    rw [List.mem_cons, not_or] at noFeed noReturn
    cases text with
    | nil => rfl
    | cons c rest =>
      by_cases feed : c = '\n'
      · subst feed
        have differs : (d == '\n') = false := by simpa using Ne.symm noFeed.1
        have differsToo : (d == '\r') = false := by simpa using Ne.symm noReturn.1
        simp [withReturns_feed, List.isPrefixOf?, differs, differsToo]
      · rw [withReturns_cons feed, List.isPrefixOf?, List.isPrefixOf?, ih noFeed.2 noReturn.2]
        split <;> rfl

/-- A cut at a mark without returns and line feeds is the same cut of both texts. -/
theorem cutAtText_withReturns {mark : Text} (nonempty : mark ≠ []) (noFeed : '\n' ∉ mark)
    (noReturn : '\r' ∉ mark) (text : Text) :
    cutAtText mark (withReturns text) =
      (cutAtText mark text).map (Prod.map withReturns withReturns) := by
  induction text with
  | nil => simp [cutAtText, nonempty]
  | cons c rest ih =>
    have start := isPrefixOf?_withReturns noFeed noReturn (c :: rest)
    by_cases feed : c = '\n'
    · subst feed
      have notHere (first : Char) (absent : first ∉ mark) (more : Text) :
          mark.isPrefixOf? (first :: more) = none := by
        apply isPrefixOf?_eq_none
        intro inside
        exact nonempty (List.prefix_nil.mp ((prefix_append_cons_iff absent [] more).mp inside))
      rw [withReturns_feed, cutAtText, notHere '\r' noReturn, cutAtText, notHere '\n' noFeed,
        cutAtText, notHere '\n' noFeed, ih]
      cases cutAtText mark rest <;> rfl
    · rw [withReturns_cons feed] at start ⊢
      rw [cutAtText, cutAtText, start, ih]
      cases mark.isPrefixOf? (c :: rest) with
      | some after => rfl
      | none =>
        cases cutAtText mark rest with
        | none => rfl
        | some cut => simp [withReturns_cons feed]

/-! ## Trimming -/

theorem trimStart_withReturns (text : Text) :
    trimStart (withReturns text) = withReturns (trimStart text) := by
  induction text with
  | nil => rfl
  | cons c rest ih =>
    by_cases feed : c = '\n'
    · subst feed
      exact ih
    · rw [withReturns_cons feed]
      simp only [trimStart, List.dropWhile_cons] at ih ⊢
      split
      · exact ih
      · rw [withReturns_cons feed]

theorem trimEnd_withReturns (text : Text) :
    trimEnd (withReturns text) = withReturns (trimEnd text) := by
  simp only [trimEnd_eq_rdropWhile]
  induction text using List.reverseRecOn with
  | nil => rfl
  | append_singleton text c ih =>
    have blankFeed : isBlank '\n' = true := by decide
    have blankReturn : isBlank '\r' = true := by decide
    rw [withReturns_append]
    by_cases feed : c = '\n'
    · subst feed
      have ends :
          withReturns text ++ withReturns ['\n'] = withReturns text ++ ['\r'] ++ ['\n'] := by
        simp [withReturns_feed]
      rw [ends, List.rdropWhile_concat_pos _ _ _ blankFeed,
        List.rdropWhile_concat_pos _ _ _ blankReturn,
        List.rdropWhile_concat_pos _ _ _ blankFeed, ih]
    · rw [withReturns_cons feed, withReturns_nil, List.rdropWhile_concat, List.rdropWhile_concat]
      split
      · exact ih
      · rw [withReturns_append, withReturns_cons feed, withReturns_nil]

theorem trim_withReturns (text : Text) : trim (withReturns text) = withReturns (trim text) := by
  rw [trim, trimStart_withReturns, trimEnd_withReturns, trim]

/-! ## Lines -/

/-- A text without returns has the lines of the text with returns. -/
theorem lines_withReturns {text : Text} (noReturn : '\r' ∉ text) :
    lines (withReturns text) = lines text := by
  induction text with
  | nil => rfl
  | cons c rest ih =>
    rw [List.mem_cons, not_or] at noReturn
    obtain ⟨differs, noReturnBehind⟩ := noReturn
    by_cases feed : c = '\n'
    · subst feed
      rw [withReturns_feed, lines, lines, ih noReturnBehind]
    · have other : c ≠ '\r' := Ne.symm differs
      rw [withReturns_cons feed, lines_cons feed (fun same => absurd same other),
        lines_cons feed (fun same => absurd same other), ih noReturnBehind]

/-- Without the returns at line ends, the parts between line feeds are those of the text that has
no returns. -/
theorem map_dropReturn_splitOn_withReturns {text : Text} (noReturn : '\r' ∉ text) :
    ((withReturns text).splitOn '\n').map dropReturn = text.splitOn '\n' := by
  induction text with
  | nil => rfl
  | cons c rest ih =>
    rw [List.mem_cons, not_or] at noReturn
    obtain ⟨differs, noReturnBehind⟩ := noReturn
    have behind := ih noReturnBehind
    obtain ⟨first, more, parts⟩ :=
      List.exists_cons_of_ne_nil (List.splitOn_ne_nil '\n' (withReturns rest))
    rw [parts] at behind
    rw [List.splitOn_cons_eq_if_modifyHead c rest, ← behind]
    by_cases feed : c = '\n'
    · subst feed
      rw [withReturns_feed, List.splitOn_cons_eq_if_modifyHead, List.splitOn_cons_eq_if_modifyHead,
        parts]
      rfl
    · rw [withReturns_cons feed, List.splitOn_cons_eq_if_modifyHead, parts]
      simp [feed, dropReturn_cons_of_ne (Ne.symm differs)]

end Lectern.Text
