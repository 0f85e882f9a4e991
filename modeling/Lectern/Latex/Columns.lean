import Lectern.Deck.BodyLine
import Lectern.Latex.Markup
import Lectern.Number.Binary64
import Lectern.Segment
import Lectern.Text.Lines

/-!
# Columns

Slide content is laid out in columns when at least two of its column markers declare a width.
Widths are relative: each column gets the whole percents of its share, computed in binary64.
Every marker opens a column, with or without a width, but there are only as many columns as
declared widths, and lines outside of these columns are dropped.
-/

namespace Lectern.Latex

/-- A column of a slide: declared width, percents of the text width, and lines. -/
structure Column where
  width : Nat
  percent : Nat
  lines : List Text
  deriving DecidableEq

/-- How slide content is laid out. -/
inductive Layout where
  | single (lines : List Text)
  | columns (columns : List Column)
  deriving DecidableEq

/-- A percentage as a fraction of the text width, with two places. -/
def textWidth (percent : Nat) : Text :=
  let places := percent % 100
  Text.ofNat (percent / 100) ++ "." ++ (if places < 10 then "0" else "") ++ Text.ofNat places
    ++ "\\textwidth"

/-- The widths that column markers declare, in order. -/
def declaredWidths (lines : List Text) : List Nat := lines.filterMap BodyLine.columnWidth?

/-- The sum of all widths. -/
def exactTotal (widths : List Nat) : Nat := widths.foldr (· + ·) 0

/-- The sum of widths from a partial sum on, rounded at every step. -/
def roundedTotalFrom (total : Rat) : List Nat → Rat
  | [] => total
  | width :: rest => roundedTotalFrom (Binary64.round (total + Binary64.round width)) rest

/-- The sum that shares refer to. The exact sum is rounded once; a sum past the bound of widths
is rounded at every step. -/
def widthTotal (widths : List Nat) : Rat :=
  if exactTotal widths < BodyLine.widthBound then Binary64.round (exactTotal widths)
  else roundedTotalFrom 0 widths

/-- The whole percents of one share. -/
def percentOf (total : Rat) (width : Nat) : Nat :=
  (Binary64.round (Binary64.round (Binary64.round width / total) * 100)).floor.toNat

/-- The whole percents of each share; where all widths are zero the shares are equal. -/
def percents (widths : List Nat) : List Nat :=
  if exactTotal widths = 0 then widths.map fun _ => 100 / widths.length
  else widths.map (percentOf (widthTotal widths))

/-- The lines behind each of the first `count` column markers, and no lines for a missing one. -/
def partition (lines : List Text) (count : Nat) : List (List Text) :=
  let isMarker line := if BodyLine.isColumnMarker line then some () else none
  let behind := (Segment.marked isMarker lines).map Prod.snd
  behind.take count ++ List.replicate (count - behind.length) []

/-- The layout of slide content. -/
def Layout.ofContent (content : Text) : Layout :=
  let lines := Text.lines content
  let widths := declaredWidths lines
  if widths.length < 2 then .single lines
  else
    .columns ((widths.zip ((percents widths).zip (partition lines widths.length))).map
      fun (width, percent, lines) => ⟨width, percent, lines⟩)

end Lectern.Latex
