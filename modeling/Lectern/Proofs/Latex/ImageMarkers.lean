import Lectern.Latex.Body
import Lectern.Proofs.Deck.BodyLine
import Lectern.Proofs.Text.Occurrence

/-!
# Image markers

A marker line is searched for the marker words as a whole, the path included, and a button comes
before code, code before an image. So the path decides what its line is; where it has neither of
the first two words, the whole path goes to the output.
-/

namespace Lectern

namespace BodyLine

/-- The marker line of an image. -/
def imageLine (path : Text) : Text := "### Image(source=\"" ++ path ++ "\")"

theorem imageLine_eq (path : Text) :
    imageLine path = ("### Image(source=" : Text) ++ '"' :: (path ++ '"' :: [')']) := by
  have front : ("### Image(source=\"" : Text) = ("### Image(source=" : Text) ++ ['"'] := by decide
  have back : ("\")" : Text) = '"' :: [')'] := by decide
  unfold imageLine
  rw [front, back, List.append_assoc, List.append_assoc, List.singleton_append]

/-- A word that is not in the frame of the line stands in the path or nowhere: the quotes keep the
two apart. -/
theorem infix_imageLine_iff {word : Text} (noQuote : '"' ∉ word)
    (notInFront : ¬ word <:+: "### Image(source=") (notBehind : ¬ word <:+: [')']) {path : Text} :
    word <:+: imageLine path ↔ word <:+: path := by
  rw [imageLine_eq]
  constructor
  · intro occurs
    rcases Text.infix_append_cons noQuote occurs with inFront | behind
    · exact absurd inFront notInFront
    · rcases Text.infix_append_cons noQuote behind with inPath | atEnd
      · exact inPath
      · exact absurd atEnd notBehind
  · intro inPath
    have inQuotes : path <:+: '"' :: (path ++ '"' :: [')']) := ⟨['"'], '"' :: [')'], by simp⟩
    exact (inPath.trans inQuotes).trans (List.suffix_append _ _).isInfix

/-- A path without quotes is read up to its closing quote. -/
theorem sourceValue?_quoted {path : Text} (noDouble : '"' ∉ path) (noSingle : '\'' ∉ path)
    (noFeed : '\n' ∉ path) (rest : Text) :
    sourceValue? (("source=" : Text) ++ '"' :: (path ++ '"' :: rest)) = some path := by
  have inside : ∀ c ∈ path, (!isQuote c && c != '\n') = true := by
    intro c member
    have notDouble : c ≠ '"' := fun same => noDouble (same ▸ member)
    have notSingle : c ≠ '\'' := fun same => noSingle (same ▸ member)
    have notFeed : c ≠ '\n' := fun same => noFeed (same ▸ member)
    simp [isQuote, notDouble, notSingle, notFeed]
  have stops : ∀ c ∈ ('"' :: rest).head?, (!isQuote c && c != '\n') = false := by
    intro c first
    obtain rfl : '"' = c := by simpa using first
    decide
  obtain ⟨taken, left⟩ := Text.takeWhile_dropWhile_append inside stops
  have word : List.isPrefixOf? ("source" : Text)
      (("source=" : Text) ++ '"' :: (path ++ '"' :: rest)) =
        some ('=' :: '"' :: (path ++ '"' :: rest)) := rfl
  have equals : afterEquals? ('=' :: '"' :: (path ++ '"' :: rest)) =
      some ('"' :: (path ++ '"' :: rest)) := rfl
  rw [sourceValue?, word, Option.bind_eq_bind, Option.bind_some, equals, Option.bind_some]
  dsimp only
  rw [taken, left]
  rfl

theorem imageSource?_imageLine {path : Text} (noDouble : '"' ∉ path) (noSingle : '\'' ∉ path)
    (noFeed : '\n' ∉ path) : imageSource? (imageLine path) = some path := by
  have declined : ∀ c ∈ ("### Image(" : Text), ∀ rest, sourceValue? (c :: rest) = none := by
    intro c member rest
    have other : 's' ≠ c := by
      rintro rfl
      exact absurd member (by decide)
    simp [sourceValue?, List.isPrefixOf?, other]
  have front : ("### Image(source=" : Text) = ("### Image(" : Text) ++ ("source=" : Text) := rfl
  have here := sourceValue?_quoted noDouble noSingle noFeed [')']
  obtain ⟨more, source⟩ : ∃ more,
      ("source=" : Text) ++ '"' :: (path ++ '"' :: [')']) = 's' :: more := ⟨_, rfl⟩
  rw [imageSource?, imageLine_eq, front, List.append_assoc,
    Text.firstMatch_append_of_declined declined]
  rw [source] at here ⊢
  rw [Text.firstMatch, here]

/-- The path takes part in the search for marker words. -/
theorem classify_imageLine (path : Text) : classify (imageLine path) =
    if ("Button" : Text) <:+: path then .button
    else if ("Code" : Text) <:+: path then .code
    else .image (imageSource? (imageLine path)) := by
  have noColumn : isColumnMarker (imageLine path) = false := rfl
  have marker : List.isPrefixOf ("###" : Text) (Text.trimStart (imageLine path)) = true := rfl
  have button : Text.mentions "Button" (imageLine path) ↔ ("Button" : Text) <:+: path := by
    rw [Text.mentions_iff]
    exact infix_imageLine_iff (by decide) (by decide) (by decide)
  have code : Text.mentions "Code" (imageLine path) ↔ ("Code" : Text) <:+: path := by
    rw [Text.mentions_iff]
    exact infix_imageLine_iff (by decide) (by decide) (by decide)
  have image : Text.mentions "Image" (imageLine path) := by
    rw [Text.mentions_iff, imageLine_eq]
    have inFront : ("Image" : Text) <:+: "### Image(source=" := by decide
    exact inFront.trans (List.prefix_append _ _).isInfix
  simp only [classify, noColumn, marker, button, code, image, Bool.true_and, Bool.false_eq_true,
    if_false, if_true]

end BodyLine

namespace Latex

/-- What the marker line of an image adds. A path with the word `Button` makes it a button and one
with `Code` a piece of code; every other path is rendered whole. -/
theorem renderLine_imageLine {path : Text} (noDouble : '"' ∉ path) (noSingle : '\'' ∉ path)
    (noFeed : '\n' ∉ path) (indent : Text) (state : ListState) :
    renderLine indent state (BodyLine.imageLine path) =
      if ("Button" : Text) <:+: path then (state, [])
      else if ("Code" : Text) <:+: path then
        (.outside, closeList indent state ++ codePlaceholder indent)
      else (.outside, closeList indent state ++ imageBlock indent path) := by
  rw [renderLine, BodyLine.classify_imageLine,
    BodyLine.imageSource?_imageLine noDouble noSingle noFeed]
  split_ifs with button code
  · rfl
  · rfl
  · rfl

/-- A path with parentheses, spaces and the word `source`, behind an open list. -/
theorem renderLine_imageLine_spacedPath :
    let path : Text := "img (1)/source=a, b.png"
    renderLine "  " .inside (BodyLine.imageLine path) =
      (.outside, ("  \\end\x7bitemize\x7d" : Text) :: imageBlock "  " path) := by
  intro path
  have noDouble : '"' ∉ path := by decide
  have noSingle : '\'' ∉ path := by decide
  have noFeed : '\n' ∉ path := by decide
  have noButton : ¬ ("Button" : Text) <:+: path := by decide
  have noCode : ¬ ("Code" : Text) <:+: path := by decide
  rw [renderLine_imageLine noDouble noSingle noFeed, if_neg noButton, if_neg noCode]
  rfl

/-- Not every path is rendered: a folder or file name can make the line a button, and an apostrophe
ends the path. -/
theorem not_renderLine_imageLine :
    renderLine "  " .inside (BodyLine.imageLine "img/Button.png") = (.inside, []) ∧
      renderLine "  " .outside (BodyLine.imageLine "it's.png") =
        (.outside, imageBlock "  " "it") := by
  decide +kernel

end Latex
end Lectern
