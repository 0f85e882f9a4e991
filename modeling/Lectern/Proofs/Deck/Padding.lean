import Lectern.Proofs.Deck.BodyLine
import Lectern.Proofs.Text.Occurrence
import Lectern.Proofs.Text.Word

/-!
# Blanks around content lines

No mark of a content line starts or ends with a blank, so every recogniser finds the same in a line
with blanks around it. What a line is does not depend on its indentation, nor on what trimming the
content takes from it (`classify_padded`).
-/

namespace Lectern

namespace Text

/-! ## Searching -/

/-- Changing case leaves blanks alone. -/
theorem toLower_of_blank {c : Char} (blank : isBlank c) : c.toLower = c :=
  forall_blank (motive := fun c => c.toLower = c) (by decide +kernel) blank

/-- A text that begins with another character does not have the start. -/
theorem dropCaseless_cons {start : Text} (nonempty : start ≠ []) {c : Char}
    (differs : ∀ d ∈ start.head?, c.toLower ≠ d) (rest : Text) :
    dropCaseless start (c :: rest) = none := by
  obtain ⟨d, more, rfl⟩ := List.exists_cons_of_ne_nil nonempty
  simp [dropCaseless, differs d rfl]

/-- A character that does not end the start joins what stands behind it. -/
theorem dropCaseless_concat {start : Text} {c : Char} (differs : start.getLast? ≠ some c.toLower)
    (text : Text) :
    dropCaseless start (text ++ [c]) = (dropCaseless start text).map (· ++ [c]) := by
  rw [dropCaseless, dropCaseless]
  by_cases long : start.length ≤ text.length
  · rw [List.take_append_of_le_length long, List.drop_append_of_le_length long]
    split <;> rfl
  · have short : (text ++ [c]).length ≤ start.length := by
      rw [List.length_append, List.length_singleton]
      omega
    rw [List.take_of_length_le short, List.take_of_length_le (by omega), if_neg, if_neg]
    · rfl
    · intro same
      have lengths := congrArg List.length same
      rw [List.length_map] at lengths
      omega
    · rintro rfl
      exact differs (by simp)

/-- A character behind the text changes the answer of a search as it changes those of the
recogniser. -/
theorem firstMatch_concat {α : Type} {recognise : Text → Option α} {c : Char} {image : α → α}
    (behind : ∀ text, recognise (text ++ [c]) = (recognise text).map image) (text : Text) :
    firstMatch recognise (text ++ [c]) = (firstMatch recognise text).map image := by
  induction text with
  | nil =>
    have here : recognise [c] = (recognise []).map image := behind []
    simp only [List.nil_append, firstMatch, here]
    cases recognise [] <;> rfl
  | cons d text ih =>
    have here := behind (d :: text)
    rw [List.cons_append] at here ⊢
    rw [firstMatch, here, firstMatch]
    cases recognise (d :: text) with
    | none => exact ih
    | some found => rfl

/-- A search ignores blanks where the recogniser neither starts with one nor sees one behind. -/
theorem ignoresBlanks_firstMatch {α : Type} {recognise : Text → Option α}
    (declined : ∀ {c}, isBlank c → ∀ rest, recognise (c :: rest) = none)
    (unseen : ∀ {c}, isBlank c → ∀ text, recognise (text ++ [c]) = recognise text) :
    IgnoresBlanks (firstMatch recognise) where
  front line blank := by
    rw [firstMatch, declined blank]
  behind {c} line blank := by
    have same : firstMatch recognise (line ++ [c]) = (firstMatch recognise line).map id :=
      firstMatch_concat (fun text => by rw [unseen blank, Option.map_id_fun, id]) line
    rwa [Option.map_id_fun, id] at same

/-- Whether a line starts with a mark, up to blanks, where the mark does not end with one. -/
theorem ignoresBlanks_isPrefixOf_trimStart (mark : Text)
    (last : mark.getLast?.any isBlank = false) :
    IgnoresBlanks fun line => mark.isPrefixOf (trimStart line) where
  front line blank := by
    simp [trimStart, blank]
  behind {c} line blank := by
    have differs : mark.getLast? ≠ some c := by
      intro same
      rw [same, Option.any_some, blank] at last
      cases last
    rw [Bool.eq_iff_iff, List.isPrefixOf_iff_prefix, List.isPrefixOf_iff_prefix]
    rcases trimStart_concat blank line with longer | ⟨dropped, empty⟩
    · rw [longer, List.prefix_concat_iff]
      refine or_iff_right ?_
      rintro rfl
      exact differs List.getLast?_concat
    · rw [dropped, empty]

/-- Whether a line has a mark in it, where the mark has no blanks. -/
theorem ignoresBlanks_mentions (part : Text) (noBlank : part.any isBlank = false) :
    IgnoresBlanks (mentions part) := by
  have sides {c : Char} (blank : isBlank c) {before after : Text}
      (occurs : part <:+: before ++ c :: after) : part <:+: before ∨ part <:+: after := by
    refine infix_append_cons (fun member => ?_) occurs
    exact List.any_eq_false.mp noBlank c member blank
  constructor
  · intro c line blank
    rw [Bool.eq_iff_iff, mentions_iff, mentions_iff]
    refine ⟨fun occurs => ?_, fun occurs => occurs.trans (List.suffix_cons c line).isInfix⟩
    have start : part <:+: [] ++ c :: line := occurs
    exact (sides blank start).elim (fun empty => empty.trans List.nil_infix) id
  · intro c line blank
    rw [Bool.eq_iff_iff, mentions_iff, mentions_iff]
    refine ⟨fun occurs => ?_, fun occurs => occurs.trans (List.prefix_append line [c]).isInfix⟩
    exact (sides blank occurs).elim id fun empty => empty.trans List.nil_infix

end Text

/-! ## Remarks -/

namespace Remark

theorem not_isRemarkChar_of_blank {c : Char} (blank : Text.isBlank c) : isRemarkChar c = false :=
  Text.forall_blank (motive := fun c => isRemarkChar c = false) (by decide +kernel) blank

/-- A blank behind a text stays behind what follows its remark. -/
theorem after?_concat {c : Char} (blank : Text.isBlank c) (text : Text) :
    after? (text ++ [c]) = (after? text).map (· ++ [c]) := by
  match text with
  | [] => exact after?_eq_none (Text.ne_of_blank blank rfl) []
  | [d] =>
    have noMark : c ≠ '!' := Text.ne_of_blank blank rfl
    simp [after?, noMark]
  | d :: e :: rest =>
    by_cases opens : d = '[' ∧ e = '!'
    · obtain ⟨rfl, rfl⟩ := opens
      obtain ⟨sameInside, sameBehind⟩ :=
        Text.takeWhile_append_cons_of_neg (not_isRemarkChar_of_blank blank) rest []
      have noClosing : c ≠ ']' := Text.ne_of_blank blank rfl
      simp only [List.cons_append, after?, sameInside, sameBehind]
      split
      · rfl
      · cases rest.dropWhile isRemarkChar with
        | nil => simp [noClosing]
        | cons f behind => by_cases closes : f = ']' <;> simp [closes]
    · have noRemark (more : Text) : after? (d :: e :: more) = none := by
        cases read : after? (d :: e :: more) with
        | none => rfl
        | some after =>
          obtain ⟨inside, start, -⟩ := eq_of_after?_eq_some read
          obtain ⟨rfl, behind⟩ := List.cons.inj start
          exact absurd ⟨rfl, (List.cons.inj behind).1⟩ opens
      rw [List.cons_append, List.cons_append, noRemark, noRemark]
      rfl

theorem afterDash?_concat {c : Char} (blank : Text.isBlank c) (text : Text) :
    afterDash? (text ++ [c]) = (afterDash? text).map (· ++ [c]) := by
  rw [afterDash?, afterDash?, after?_concat blank]
  cases after? text with
  | none => rfl
  | some after =>
    simp only [Option.map_some]
    rcases Text.trimStart_concat blank after with longer | ⟨dropped, empty⟩
    · have noDash : c ≠ '-' := Text.ne_of_blank blank rfl
      rw [longer]
      cases Text.trimStart after with
      | nil => simp [noDash]
      | cons d behind => by_cases dash : d = '-' <;> simp [dash]
    · rw [dropped, empty]
      rfl

theorem afterDash?_eq_none {c : Char} (other : c ≠ '[') (rest : Text) :
    afterDash? (c :: rest) = none := by
  rw [afterDash?, after?_eq_none other]
  rfl

/-- A blank behind a text stays there when its remarks with dashes are gone. -/
theorem stripDashed_concat {c : Char} (blank : Text.isBlank c) (text : Text) :
    stripDashed (text ++ [c]) = stripDashed text ++ [c] := by
  refine Text.replace_concat goesForward_stripDashed ?_ ?_ text
  · rw [afterDash?_eq_none (Text.ne_of_blank blank rfl)]
    rfl
  · intro text
    rw [afterDash?_concat blank, Option.map_map, Option.map_map]
    rfl

end Remark

/-! ## Content lines -/

namespace BodyLine

open Text

theorem ignoresBlanks_isColumnMarker : IgnoresBlanks isColumnMarker := by
  have lower := ignoresBlanks_isPrefixOf_trimStart "### column" (by decide)
  have upper := ignoresBlanks_isPrefixOf_trimStart "### Column" (by decide)
  exact lower.combine upper or

/-- A blank behind a text stays behind the equals sign and the blanks, or is one of these. -/
theorem afterEquals?_concat {c : Char} (blank : isBlank c) (text : Text) :
    afterEquals? (text ++ [c]) = (afterEquals? text).map (· ++ [c]) ∨
      afterEquals? (text ++ [c]) = afterEquals? text := by
  rw [afterEquals?, afterEquals?]
  rcases trimStart_concat blank text with longer | ⟨dropped, empty⟩
  · rw [longer]
    cases trimStart text with
    | nil =>
      have noEquals : c ≠ '=' := ne_of_blank blank rfl
      exact .inr (by simp [noEquals])
    | cons d behind =>
      by_cases equals : d = '='
      · subst equals
        simp only [List.cons_append, Option.map_some, Option.some.injEq]
        exact (trimStart_concat blank behind).imp_right fun gone => gone.1.trans gone.2.symm
      · exact .inr (by simp [equals])
  · exact .inr (by rw [dropped, empty])

/-- The digits of a width end at a blank. -/
theorem widthDigits?_concat {c : Char} (blank : isBlank c) (text : Text) :
    widthDigits? (text ++ [c]) = widthDigits? text := by
  have noDigit : isDecimalDigit c = false :=
    forall_blank (motive := fun c => isDecimalDigit c = false) (by decide +kernel) blank
  have differs : ("width" : Text).getLast? ≠ some c.toLower := by
    rw [toLower_of_blank blank]
    exact fun same => ne_of_blank blank rfl (Option.some.inj same).symm
  rw [widthDigits?, widthDigits?, dropCaseless_concat differs]
  cases dropCaseless "width" text with
  | none => rfl
  | some behind =>
    simp only [Option.map_some, Option.bind_eq_bind, Option.bind_some]
    rcases afterEquals?_concat blank behind with longer | same
    · rw [longer]
      cases afterEquals? behind with
      | none => rfl
      | some value =>
        simp only [Option.map_some, Option.bind_some,
          (takeWhile_append_cons_of_neg noDigit value []).1]
    · rw [same]

/-- A quoted path is closed before a blank, or not at all. -/
theorem sourceValue?_concat {c : Char} (blank : isBlank c) (text : Text) :
    sourceValue? (text ++ [c]) = sourceValue? text := by
  have noQuote : isQuote c = false :=
    forall_blank (motive := fun c => isQuote c = false) (by decide +kernel) blank
  have differs : ("source" : Text).getLast? ≠ some c := fun same =>
    ne_of_blank blank rfl (Option.some.inj same).symm
  rw [sourceValue?, sourceValue?, isPrefixOf?_concat differs]
  cases List.isPrefixOf? ("source" : Text) text with
  | none => rfl
  | some behind =>
    simp only [Option.map_some, Option.bind_eq_bind, Option.bind_some]
    rcases afterEquals?_concat blank behind with longer | same
    · rw [longer]
      cases afterEquals? behind with
      | none => rfl
      | some value =>
        cases value with
        | nil => rfl
        | cons opening rest =>
          simp only [Option.map_some, Option.bind_some, List.cons_append]
          rcases takeWhile_dropWhile_concat (fun c => !isQuote c && c != '\n') rest c with
            ⟨unclosed, passed | stopped⟩ | ⟨closing, more, closed, closedToo, path⟩
          · rw [unclosed, passed]
          · rw [unclosed, stopped]
            simp [noQuote]
          · rw [closed, closedToo, path]
    · rw [same]

theorem ignoresBlanks_imageSource? : IgnoresBlanks imageSource? := by
  refine ignoresBlanks_firstMatch ?_ sourceValue?_concat
  intro c blank rest
  have differs : ¬ ("source" : Text) <+: c :: rest := fun start =>
    ne_of_blank blank rfl (List.cons_prefix_cons.mp start).1.symm
  rw [sourceValue?, isPrefixOf?_eq_none differs]
  rfl

theorem ignoresBlanks_columnWidth? : IgnoresBlanks columnWidth? := by
  have searched : IgnoresBlanks (firstMatch widthDigits?) := by
    refine ignoresBlanks_firstMatch ?_ widthDigits?_concat
    intro c blank rest
    have differs : ∀ d ∈ ("width" : Text).head?, c.toLower ≠ d := by
      rintro d ⟨⟩
      rw [toLower_of_blank blank]
      exact ne_of_blank blank rfl
    rw [widthDigits?, dropCaseless_cons (by decide) differs]
    rfl
  exact ignoresBlanks_isColumnMarker.combine searched fun marker digits? =>
    if marker then digits?.bind (parseBelow widthBound) else none

theorem ignoresBlanks_hasRemarkBullet : IgnoresBlanks hasRemarkBullet where
  front {c} line blank := by
    rw [hasRemarkBullet, firstMatch, Remark.afterDash?_eq_none (ne_of_blank blank rfl)]
    rfl
  behind {c} line blank := by
    rw [hasRemarkBullet, firstMatch_concat (Remark.afterDash?_concat blank), Option.isSome_map]
    rfl

theorem ignoresBlanks_bulletText? : IgnoresBlanks bulletText? where
  front {c} line blank := by
    have start : trimStart (c :: line) = trimStart line := List.dropWhile_cons_of_pos blank
    rw [bulletText?, bulletText?, ignoresBlanks_hasRemarkBullet.front line blank, start]
  behind {c} line blank := by
    simp only [bulletText?, ignoresBlanks_hasRemarkBullet.behind line blank]
    rcases trimStart_concat blank line with longer | ⟨dropped, empty⟩
    · rw [longer, Remark.stripDashed_concat blank, trim_concat_of_blank blank]
      split
      · rfl
      · cases trimStart line with
        | nil =>
          have noDash : c ≠ '-' := ne_of_blank blank rfl
          simp [noDash]
        | cons d rest => by_cases dash : d = '-' <;> simp [dash, trim_concat_of_blank blank]
    · rw [dropped, empty]

theorem ignoresBlanks_classify : IgnoresBlanks classify := by
  have marked := ignoresBlanks_isPrefixOf_trimStart "###" (by decide)
  have button := ignoresBlanks_mentions "Button" (by decide)
  have code := ignoresBlanks_mentions "Code" (by decide)
  have image := ignoresBlanks_mentions "Image" (by decide)
  constructor
  · intro c line blank
    simp only [classify, ignoresBlanks_isColumnMarker.front line blank,
      ignoresBlanks_columnWidth?.front line blank, marked.front line blank,
      button.front line blank, code.front line blank, image.front line blank,
      ignoresBlanks_imageSource?.front line blank, ignoresBlanks_bulletText?.front line blank]
  · intro c line blank
    simp only [classify, ignoresBlanks_isColumnMarker.behind line blank,
      ignoresBlanks_columnWidth?.behind line blank, marked.behind line blank,
      button.behind line blank, code.behind line blank, image.behind line blank,
      ignoresBlanks_imageSource?.behind line blank, ignoresBlanks_bulletText?.behind line blank]

/-- Blanks around a content line do not change what it is, nor the width, path or text read from it;
so trimming slide content only takes plain lines away, above and below. -/
theorem classify_padded {before behind : Text} (blankBefore : isBlankText before)
    (blankBehind : isBlankText behind) (line content : Text) :
    classify (before ++ line ++ behind) = classify line ∧
      ∃ above below, (content.splitOn '\n').map classify =
        List.replicate above .plain ++ (lines (trim content)).map classify ++
          List.replicate below .plain := by
  refine ⟨ignoresBlanks_classify.padded blankBefore blankBehind line, ?_⟩
  have empty : classify [] = .plain := rfl
  obtain ⟨above, below, trimmed⟩ := ignoresBlanks_classify.map_splitOn_trim content
  obtain ⟨last, parts⟩ := ignoresBlanks_classify.map_splitOn (trim content)
  rw [empty] at trimmed parts
  refine ⟨above, last + below, ?_⟩
  rw [trimmed, parts, ← List.replicate_append_replicate, List.append_assoc, List.append_assoc,
    List.append_assoc]

/-- A remark between wide blanks, and content whose first marker is indented below an empty line. -/
theorem classify_padded_remark :
    isBlankText ("\u3000\t" : Text) ∧ isBlankText ("\u2028 \r" : Text) ∧
      classify (("\u3000\t" : Text) ++ ("[!note] \u00a0- a - b" : Text) ++ ("\u2028 \r" : Text)) =
        classify "[!note] \u00a0- a - b" ∧
      classify "[!note] \u00a0- a - b" = .bullet "a - b" ∧
      ∃ above below,
        ((" \r\n\t### Column(WIDTH = 3)\r\n- a\n\n" : Text).splitOn '\n').map classify =
          List.replicate above .plain ++ [.column (some 3), .bullet "a"] ++
            List.replicate below .plain := by
  have blank : isBlankText ("\u3000\t" : Text) ∧ isBlankText ("\u2028 \r" : Text) := by decide
  obtain ⟨same, above, below, content⟩ := classify_padded blank.1 blank.2
    ("[!note] \u00a0- a - b" : Text) (" \r\n\t### Column(WIDTH = 3)\r\n- a\n\n" : Text)
  refine ⟨blank.1, blank.2, same, by decide +kernel, above, below, ?_⟩
  have read : (lines (trim (" \r\n\t### Column(WIDTH = 3)\r\n- a\n\n" : Text))).map classify =
      [.column (some 3), .bullet "a"] := by decide +kernel
  rw [content, read]

end BodyLine
end Lectern
